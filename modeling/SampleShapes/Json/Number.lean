/-
**Number literals.**

A literal is an optional minus sign, a whole part without leading zeros, an optional fraction and
an optional exponent. It is refused when its value lies beyond the finite binary64 range, as found
from the digits that a 64-bit significand can hold: the significand and the power of ten are each
rounded to 53 bits, and their product is compared with the point above which a product rounds to
infinity.
-/

namespace SampleShapes.Json

/-- The parts of a number literal. -/
structure NumberLiteral where
  /-- It starts with a minus sign. -/
  negative : Bool
  /-- The digits before the point. -/
  whole : List Char
  /-- The digits after the point, if there is one. -/
  fraction : Option (List Char)
  /-- The mark of the exponent with its sign, and whether that sign is a minus; then its digits. -/
  exponent : Option (List Char × Bool × List Char)

namespace NumberLiteral

/-- The literal as it was written. -/
def text (literal : NumberLiteral) : String :=
  String.ofList <|
    (if literal.negative then ['-'] else []) ++ literal.whole
    ++ (match literal.fraction with
      | some digits => '.' :: digits
      | none => [])
    ++ (match literal.exponent with
      | some (mark, _, digits) => mark ++ digits
      | none => [])

/-! ### Range -/

/-- The value of a decimal digit. -/
def digitValue (c : Char) : Nat := c.toNat - '0'.toNat

/-- Append digits to `significand` as long as it fits in 64 bits; the digits left over follow. -/
def fill (significand : Nat) : List Char → Nat × List Char
  | [] => (significand, [])
  | c :: rest =>
    let next := significand * 10 + digitValue c
    if next < 0x10000000000000000 then fill next rest else (significand, c :: rest)

/-- Round to the nearest number with 53 significant bits, a half to the even neighbour. -/
def round53 (n : Nat) : Nat :=
  let excess := n.log2 + 1 - 53
  if excess = 0 then n
  else
    let unit := Nat.pow 2 excess
    let quotient := n / unit
    let rest := n % unit
    let half := Nat.pow 2 (excess - 1)
    let up := half < rest || (rest == half && quotient % 2 == 1)
    (if up then quotient + 1 else quotient) * unit

/-- Products from here on round to infinity. -/
def infinityBound : Nat := Nat.pow 2 1024 - Nat.pow 2 970

/-- `significand · 10 ^ power` lies beyond the finite range. -/
def overflows (significand : Nat) (power : Int) : Bool :=
  significand != 0 &&
    (power > 308 ||
      (0 ≤ power && infinityBound ≤ round53 significand * round53 (Nat.pow 10 power.toNat)))

/-- The number has a finite value. -/
def isFinite (literal : NumberLiteral) : Bool :=
  let (whole, dropped) := fill 0 literal.whole
  let fraction := literal.fraction.getD []
  let (significand, ignored) := fill whole fraction
  let shift : Int := dropped.length - (fraction.length - ignored.length : Nat)
  let power : Int :=
    match literal.exponent with
    | none => 0
    | some (_, negative, digits) =>
      let size := digits.foldl (fun sum c => sum * 10 + digitValue c) 0
      if negative then -size else size
  !overflows significand (shift + power)

/-! ### Reading -/

/-- Split off one exponent, if `chars` starts with its mark; `none` if no digit follows the mark. -/
def exponent? (chars : List Char) :
    Option (Option (List Char × Bool × List Char) × List Char) :=
  let read (mark : List Char) (negative : Bool) (rest : List Char) :=
    match rest.takeWhile Char.isDigit with
    | [] => none
    | digits => some (some (mark, negative, digits), rest.dropWhile Char.isDigit)
  match chars with
  | 'e' :: '-' :: rest => read ['e', '-'] true rest
  | 'E' :: '-' :: rest => read ['E', '-'] true rest
  | 'e' :: '+' :: rest => read ['e', '+'] false rest
  | 'E' :: '+' :: rest => read ['E', '+'] false rest
  | 'e' :: rest => read ['e'] false rest
  | 'E' :: rest => read ['E'] false rest
  | _ => some (none, chars)

/-- Split off one fraction, if `chars` starts with a point; `none` if no digit follows the point. -/
def fraction? : List Char → Option (Option (List Char) × List Char)
  | '.' :: rest =>
    match rest.takeWhile Char.isDigit with
    | [] => none
    | digits => some (some digits, rest.dropWhile Char.isDigit)
  | chars => some (none, chars)

/-- Split off the whole part: one zero, or digits that start with another one. -/
def whole? (chars : List Char) : Option (List Char × List Char) :=
  match chars.takeWhile Char.isDigit with
  | [] => none
  | '0' :: _ :: _ => none
  | digits => some (digits, chars.dropWhile Char.isDigit)

/-- Split a number literal off the front of `chars`. -/
def read? (chars : List Char) : Option (NumberLiteral × List Char) := do
  let (negative, chars) :=
    match chars with
    | '-' :: rest => (true, rest)
    | _ => (false, chars)
  let (whole, chars) ← whole? chars
  let (fraction, chars) ← fraction? chars
  let (exponent, chars) ← exponent? chars
  return (⟨negative, whole, fraction, exponent⟩, chars)

end NumberLiteral

end SampleShapes.Json
