/-
**Dates in text.**

Two forms count as a date. A timestamp is a full date, one of `T`, `t` and a space, a time of day
with an optional fraction of a second, and an offset from universal time. A plain date is a year,
a month and a day with hyphens between them, where white space may stand before each number, the
year may have a sign and then any number of digits, and leading zeros may be left out.

The calendar is the Gregorian one, extended to all years from -262143 to 262142.
-/

import SampleShapes.Text.Blank

namespace SampleShapes.Calendar

/-! ### The calendar -/

/-- February has 29 days. -/
def isLeap (year : Int) : Bool :=
  year % 4 == 0 && (year % 100 != 0 || year % 400 == 0)

/-- The number of days of a month, counted from 1; no month has a number outside 1 to 12. -/
def daysInMonth (year : Int) : Nat → Nat
  | 2 => if isLeap year then 29 else 28
  | 4 | 6 | 9 | 11 => 30
  | 1 | 3 | 5 | 7 | 8 | 10 | 12 => 31
  | _ => 0

/-- The day exists, in a year within the range of the calendar. -/
def isDay (year : Int) (month day : Nat) : Bool :=
  -262143 ≤ year && year ≤ 262142 && 1 ≤ day && day ≤ daysInMonth year month

/-! ### Reading numbers -/

/-- A number of digits between one and `most` off the front of `chars`. -/
def number? (most : Nat) (chars : List Char) : Option (Nat × List Char) :=
  match (chars.take most).takeWhile Char.isDigit with
  | [] => none
  | digits =>
    some (digits.foldl (fun sum c => sum * 10 + (c.toNat - '0'.toNat)) 0, chars.drop digits.length)

/-- A number of exactly `count` digits off the front of `chars`. -/
def fixedNumber? (count : Nat) (chars : List Char) : Option (Nat × List Char) :=
  if ((chars.take count).takeWhile Char.isDigit).length = count then number? count chars else none

/-- The rest of `chars` behind one expected character. -/
def expect? (expected : Char) : List Char → Option (List Char)
  | c :: rest => if c = expected then some rest else none
  | [] => none

/-! ### Plain dates -/

/-- A year: four digits at most, or a sign and any number of digits. -/
def year? : List Char → Option (Int × List Char)
  | '-' :: rest => (number? rest.length rest).map fun (year, rest) => (-(year : Int), rest)
  | '+' :: rest => (number? rest.length rest).map fun (year, rest) => ((year : Int), rest)
  | chars => (number? 4 chars).map fun (year, rest) => ((year : Int), rest)

/-- The characters are a plain date. -/
def isPlainDate (chars : List Char) : Bool :=
  (do
    let (year, chars) ← year? (chars.dropWhile Text.isBlank)
    let chars ← expect? '-' chars
    let (month, chars) ← number? 2 (chars.dropWhile Text.isBlank)
    let chars ← expect? '-' chars
    let (day, chars) ← number? 2 (chars.dropWhile Text.isBlank)
    return chars.isEmpty && isDay year month day : Option Bool).getD false

/-! ### Timestamps -/

/-- An optional fraction of a second: a point and one digit or more. -/
def fraction? : List Char → Option (List Char)
  | '.' :: rest =>
    if rest.head?.any Char.isDigit then some (rest.dropWhile Char.isDigit) else none
  | chars => some chars

/-- An offset: `Z`, or a sign (a hyphen, a plus or the minus sign U+2212), the hours below 24, a
colon and the minutes below 60. -/
def offset? : List Char → Option (List Char)
  | [] => none
  | c :: rest =>
    if c = 'Z' || c = 'z' then some rest
    else if c = '+' || c = '-' || c = '\u2212' then do
      let (hours, rest) ← fixedNumber? 2 rest
      let rest ← expect? ':' rest
      let (minutes, rest) ← fixedNumber? 2 rest
      if hours < 24 && minutes < 60 then some rest else none
    else none

/-- The characters are a timestamp. A second may be a leap second in any minute. -/
def isTimestamp (chars : List Char) : Bool :=
  (do
    let (year, chars) ← fixedNumber? 4 chars
    let chars ← expect? '-' chars
    let (month, chars) ← fixedNumber? 2 chars
    let chars ← expect? '-' chars
    let (day, chars) ← fixedNumber? 2 chars
    let chars ←
      match chars with
      | c :: rest => if c = 'T' || c = 't' || c = ' ' then some rest else none
      | [] => none
    let (hour, chars) ← fixedNumber? 2 chars
    let chars ← expect? ':' chars
    let (minute, chars) ← fixedNumber? 2 chars
    let chars ← expect? ':' chars
    let (second, chars) ← fixedNumber? 2 chars
    let chars ← fraction? chars
    let chars ← offset? chars
    return chars.isEmpty && isDay year month day && hour < 24 && minute < 60 && second ≤ 60
    : Option Bool).getD false

/-- The text is a timestamp or a plain date. -/
def looksLikeDate (text : String) : Bool :=
  isTimestamp text.toList || isPlainDate text.toList

end SampleShapes.Calendar
