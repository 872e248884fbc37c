import Mathlib.Data.List.Sort
import Mathlib.Tactic.Common
import TagSync.Sort

/-!
Sorted lists are in order.
-/

namespace TagSync

section

variable {α : Type} {le : α → α → Bool}

lemma insertSorted_eq (a : α) (l : List α) :
    insertSorted le a l = l.orderedInsert (fun a b => le a b = true) a := by
  induction l with
  | nil => rfl
  | cons b rest ih => rw [insertSorted, List.orderedInsert_cons, ih]

lemma sort_eq_insertionSort (l : List α) :
    sort le l = l.insertionSort fun a b => le a b = true := by
  induction l with
  | nil => rfl
  | cons a rest ih =>
    rw [sort, List.foldr_cons, insertSorted_eq, List.insertionSort_cons, ← ih, sort]

/-- A sorted list is in order. -/
lemma pairwise_sort (total : ∀ a b, le a b = true ∨ le b a = true)
    (trans : ∀ a b c, le a b = true → le b c = true → le a c = true) (l : List α) :
    (sort le l).Pairwise fun a b => le a b = true := by
  have : Std.Total fun a b => le a b = true := ⟨total⟩
  have : IsTrans α fun a b => le a b = true := ⟨trans⟩
  rw [sort_eq_insertionSort]
  exact List.pairwise_insertionSort _ l

end

/-- By names of their own, elements are sorted strictly. -/
lemma pairwise_sortBy {α : Type} {name : α → String} {l : List α} (unique : (l.map name).Nodup) :
    (sortBy name l).Pairwise fun a b => name a < name b := by
  have hsorted : (sortBy name l).Pairwise fun a b => decide (name a ≤ name b) = true :=
    @pairwise_sort α (fun a b => decide (name a ≤ name b))
      (fun a b => by simpa only [decide_eq_true_eq] using String.le_total (name a) (name b))
      (fun a b c hab hbc => decide_eq_true
        (String.le_trans (of_decide_eq_true hab) (of_decide_eq_true hbc))) l
  have hnodup : ((sortBy name l).map name).Nodup := ((perm_sort _ l).map name).nodup_iff.mpr unique
  rw [List.Nodup, List.pairwise_map] at hnodup
  refine List.Pairwise.imp₂ (fun a b hle hne => ?_) hsorted hnodup
  by_contra hlt
  exact hne (String.le_antisymm (of_decide_eq_true hle) (String.not_lt.mp hlt))

end TagSync
