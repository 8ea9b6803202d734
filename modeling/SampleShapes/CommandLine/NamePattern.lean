/-
**Patterns of names.**

In a pattern `*` stands for any characters, `?` for one, `[…]` for one of a set and `[!…]` for one
outside of it; everything else stands for itself.

A name is matched piece by piece, and what is kept between two pieces are the rests of the name that
the pieces so far can leave. All of them are ends of the longest one, so that a star leaves the ends
of that one, and a match takes no more steps than pieces times characters.

* `matchPieces_iff`: the pieces match a name exactly if the name can be cut up among them.
-/

namespace SampleShapes.CommandLine.Glob

/-! ### Patterns -/

/-- A piece of a pattern. -/
inductive Piece where
  /-- The character itself. -/
  | char (c : Char)
  /-- Any character. -/
  | any
  /-- Any characters. -/
  | many
  /-- A character within one of the ranges, or, if `inside` is false, within none. -/
  | set (inside : Bool) (ranges : List (Char × Char))
  deriving DecidableEq, Repr

/-- The ranges that a set lists; a single character is a range of one. -/
def ranges : List Char → List (Char × Char)
  | first :: '-' :: last :: rest => (first, last) :: ranges rest
  | c :: rest => (c, c) :: ranges rest
  | [] => []

/-- Split a set off the front of `chars`, which stand behind an opening bracket. It lists one
character or more, of which the first may be a closing bracket. -/
def set? (chars : List Char) : Option (Piece × List Char) :=
  let (inside, listed) :=
    match chars with
    | '!' :: rest => (false, rest)
    | _ => (true, chars)
  match listed with
  | [] => none
  | first :: rest =>
    match rest.dropWhile (· ≠ ']') with
    | _ :: behind => some (.set inside (ranges (first :: rest.takeWhile (· ≠ ']'))), behind)
    | [] => none

/-- The pieces of a pattern; `none` for two stars in a row, or a bracket that is not closed. `fuel`
need not exceed the number of characters. -/
def pieces? : Nat → List Char → Option (List Piece)
  | _, [] => some []
  | 0, _ => none
  | _ + 1, '*' :: '*' :: _ => none
  | fuel + 1, '*' :: rest => (pieces? fuel rest).map (.many :: ·)
  | fuel + 1, '?' :: rest => (pieces? fuel rest).map (.any :: ·)
  | fuel + 1, '[' :: rest => do
    let (piece, rest) ← set? rest
    return piece :: (← pieces? fuel rest)
  | fuel + 1, c :: rest => (pieces? fuel rest).map (.char c :: ·)

/-- The character that a piece stands for, if it stands for itself. -/
def Piece.char? : Piece → Option Char
  | char c => some c
  | _ => none

/-- Whether a character lies in a range. -/
def inRange (c : Char) (range : Char × Char) : Bool := range.1 ≤ c && c ≤ range.2

/-- Whether a piece stands for a character. -/
def Piece.takes (c : Char) : Piece → Bool
  | char expected => c = expected
  | any => true
  | many => true
  | set inside ranges => ranges.any (inRange c) = inside

/-! ### Matching -/

/-- The ends of a name: the whole name first and the empty one last. -/
def ends : List Char → List (List Char)
  | [] => [[]]
  | c :: chars => (c :: chars) :: ends chars

/-- What is left of a name behind its first character, if the piece stands for that one. -/
def Piece.behind? (piece : Piece) : List Char → Option (List Char)
  | [] => none
  | c :: chars => if piece.takes c then some chars else none

/-- The rests that a piece leaves of `rests`, of which the first is the longest. -/
def Piece.leave (piece : Piece) (rests : List (List Char)) : List (List Char) :=
  if piece = many then (rests.head?.map ends).getD [] else rests.filterMap piece.behind?

/-- Match a name against pieces. -/
def matchPieces (pieces : List Piece) (name : List Char) : Bool :=
  (pieces.foldl (fun rests piece => piece.leave rests) [name]).any List.isEmpty

/-- The name can be cut up among the pieces: each has the characters that it stands for, and nothing
is left. -/
def Matches : List Piece → List Char → Prop
  | [], name => name = []
  | piece :: pieces, name =>
    if piece = .many then ∃ rest, rest <:+ name ∧ Matches pieces rest
    else ∃ rest, piece.behind? name = some rest ∧ Matches pieces rest

theorem mem_ends {name rest : List Char} : rest ∈ ends name ↔ rest <:+ name := by
  induction name with
  | nil => simp [ends]
  | cons c chars step => simp [ends, step, List.suffix_cons_iff]

/-- Each rest is an end of every rest before it. -/
def Nested (rests : List (List Char)) : Prop :=
  rests.Pairwise fun longer shorter => shorter <:+ longer

theorem nested_ends (name : List Char) : Nested (ends name) := by
  induction name with
  | nil => simp [ends, Nested]
  | cons c chars step =>
    refine List.pairwise_cons.mpr ⟨fun rest member => ?_, step⟩
    exact (mem_ends.mp member).trans (List.suffix_cons c chars)

/-- An end of a name leaves an end of what the name leaves. -/
theorem Piece.behind?_suffix {piece : Piece} {longer shorter first second : List Char}
    (nested : shorter <:+ longer) (one : piece.behind? longer = some first)
    (other : piece.behind? shorter = some second) : second <:+ first := by
  cases longer with
  | nil => simp [behind?] at one
  | cons c chars =>
    cases shorter with
    | nil => simp [behind?] at other
    | cons d letters =>
      obtain ⟨-, rfl⟩ : piece.takes c = true ∧ chars = first := by simpa [behind?] using one
      obtain ⟨-, rfl⟩ : piece.takes d = true ∧ letters = second := by simpa [behind?] using other
      rcases List.suffix_cons_iff.mp nested with same | inside
      · cases same
        exact List.suffix_rfl
      · exact (List.suffix_cons d letters).trans inside

theorem Piece.nested_leave {piece : Piece} {rests : List (List Char)} (nested : Nested rests) :
    Nested (piece.leave rests) := by
  unfold leave
  split
  · cases rests with
    | nil => simp [Nested]
    | cons longest shorter => simpa using nested_ends longest
  · refine List.pairwise_filterMap.mpr (nested.imp ?_)
    intro longer shorter inside first one second other
    exact behind?_suffix inside one other

/-- What a piece leaves of some rest. -/
theorem Piece.exists_mem_leave {piece : Piece} {pieces : List Piece} {rests : List (List Char)}
    (nested : Nested rests) :
    (∃ rest ∈ piece.leave rests, Matches pieces rest) ↔
      ∃ rest ∈ rests, Matches (piece :: pieces) rest := by
  by_cases star : piece = many
  · cases rests with
    | nil => simp [leave, star]
    | cons longest shorter =>
      have inside := (List.pairwise_cons.mp nested).1
      simp only [leave, star, Matches, if_true, List.head?_cons, Option.map_some,
        Option.getD_some, mem_ends]
      constructor
      · rintro ⟨rest, suffix, found⟩
        exact ⟨longest, by simp, rest, suffix, found⟩
      · rintro ⟨left, member, rest, suffix, found⟩
        refine ⟨rest, suffix.trans ?_, found⟩
        rcases List.mem_cons.mp member with rfl | later
        · exact List.suffix_rfl
        · exact inside left later
  · simp only [leave, star, Matches, if_false, List.mem_filterMap]
    constructor
    · rintro ⟨rest, ⟨left, member, behind⟩, found⟩
      exact ⟨left, member, rest, behind, found⟩
    · rintro ⟨left, member, rest, behind, found⟩
      exact ⟨rest, ⟨left, member, behind⟩, found⟩

/-- Some rest is cut up among the pieces exactly if they leave an empty one. -/
theorem any_foldl_leave {pieces : List Piece} {rests : List (List Char)} (nested : Nested rests) :
    (pieces.foldl (fun rests piece => piece.leave rests) rests).any List.isEmpty = true ↔
      ∃ rest ∈ rests, Matches pieces rest := by
  induction pieces generalizing rests with
  | nil => simp [Matches]
  | cons piece pieces step =>
    exact (step (Piece.nested_leave nested)).trans (Piece.exists_mem_leave nested)

/-- **A match.** The pieces match a name exactly if the name can be cut up among them. -/
theorem matchPieces_iff {pieces : List Piece} {name : List Char} :
    matchPieces pieces name = true ↔ Matches pieces name := by
  unfold matchPieces
  rw [any_foldl_leave (List.pairwise_singleton _ name)]
  simp

end SampleShapes.CommandLine.Glob
