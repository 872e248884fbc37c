/-!
Sorting by insertion. Elements that compare equal keep their order.
-/

namespace TagSync

variable {α : Type}

/-- Puts an element in front of the first one that it may come before. -/
def insertSorted (le : α → α → Bool) (a : α) : List α → List α
  | [] => [a]
  | b :: rest => if le a b then a :: b :: rest else b :: insertSorted le a rest

def sort (le : α → α → Bool) (l : List α) : List α := l.foldr (insertSorted le) []

/-- A list sorted by a text. -/
def sortBy (name : α → String) (l : List α) : List α :=
  sort (fun a b => decide (name a ≤ name b)) l

theorem perm_insertSorted (le : α → α → Bool) (a : α) (l : List α) :
    (insertSorted le a l).Perm (a :: l) := by
  induction l with
  | nil => exact .refl _
  | cons b rest ih =>
    simp only [insertSorted]
    split
    · exact .refl _
    · exact (ih.cons b).trans (.swap a b rest)

theorem perm_sort (le : α → α → Bool) (l : List α) : (sort le l).Perm l := by
  induction l with
  | nil => exact .refl _
  | cons a rest ih => exact (perm_insertSorted le a _).trans (ih.cons a)

@[simp] theorem length_sort (le : α → α → Bool) (l : List α) : (sort le l).length = l.length :=
  (perm_sort le l).length_eq

@[simp] theorem mem_sort {le : α → α → Bool} {a : α} {l : List α} : a ∈ sort le l ↔ a ∈ l :=
  (perm_sort le l).mem_iff

end TagSync
