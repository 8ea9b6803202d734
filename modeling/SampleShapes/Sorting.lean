/-
**Sorting by insertion.**

A list is sorted by inserting its entries one by one, the last one first. Entries of which each may
stand before the other keep their order.
-/

namespace SampleShapes.Sorting

variable {α : Type}

/-- Insert an entry in front of the first one that it may stand before. -/
def insert (before : α → α → Bool) (entry : α) : List α → List α
  | [] => [entry]
  | other :: rest =>
    if before entry other then entry :: other :: rest else other :: insert before entry rest

/-- Sort a list, where `before` says that its first argument may stand before its second. -/
def sort (before : α → α → Bool) (entries : List α) : List α :=
  entries.foldr (insert before) []

end SampleShapes.Sorting
