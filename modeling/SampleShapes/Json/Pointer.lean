/-
**JSON pointers.**

A pointer is empty, or a slash before each of its segments; in a segment `~1` stands for a slash
and `~0` for a tilde. A segment selects the member of that key, or the element at that index: a
decimal number without sign or leading zeros.
-/

import SampleShapes.Json.Basic

namespace SampleShapes.Json

/-- The index that a segment writes. -/
def pointerIndex? (segment : String) : Option Nat :=
  match segment.toList with
  | [] => none
  | ['0'] => some 0
  | '0' :: _ => none
  | digits =>
    if digits.all Char.isDigit then
      some (digits.foldl (fun sum c => sum * 10 + (c.toNat - '0'.toNat)) 0)
    else none

/-- What one segment selects. -/
def select? (segment : String) : Json → Option Json
  | object members => members.lookup segment
  | array elements => (pointerIndex? segment).bind (elements[·]?)
  | _ => none

/-- The part of a value that a pointer selects. -/
def pointer? (pointer : String) (value : Json) : Option Json :=
  match pointer.splitOn "/" with
  | "" :: segments =>
    segments.foldlM
      (fun value segment => select? ((segment.replace "~1" "/").replace "~0" "~") value) value
  | _ => none

end SampleShapes.Json
