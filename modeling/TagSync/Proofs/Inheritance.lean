import Mathlib.Tactic.Common
import TagSync.Hub.Inheritance

/-!
The chain of a tag: the tag itself, then the tags above it, none of which is the tag again.
-/

namespace TagSync.Tables

variable {t t' : Tables} {id : TagId} {row : TagRow}

/-- The tags that a tag inherits from, without the tag itself. -/
def ancestors (t : Tables) (id : TagId) : List TagRow :=
  (t.walk (t.parents id) [id]).filterMap t.tag?

lemma id_of_tag? (h : t.tag? id = some row) : row.id = id := by
  simpa using List.find?_some h

lemma mem_of_tag? (h : t.tag? id = some row) : row ∈ t.tags := List.mem_of_find?_eq_some h

lemma walk_singleton (t : Tables) (id : TagId) :
    t.walk [id] [] = id :: t.walk (t.parents id) [id] := by
  rw [walk]
  simp

lemma not_mem_seen_of_mem_walk {todo seen : List TagId} {x : TagId}
    (h : x ∈ t.walk todo seen) : x ∉ seen := by
  fun_induction t.walk todo seen with
  | case1 => cases h
  | case2 seen id todo hs ih => exact ih h
  | case3 seen id todo hs ih =>
      rcases List.mem_cons.mp h with rfl | h
      · exact hs
      · exact fun hx => ih h (.tail _ hx)

/-- Whatever the walk reaches was to be visited, or is somebody's parent. -/
lemma mem_todo_or_parent_of_mem_walk {todo seen : List TagId} {x : TagId}
    (h : x ∈ t.walk todo seen) : x ∈ todo ∨ ∃ r ∈ t.inheritance, r.parent = x := by
  fun_induction t.walk todo seen with
  | case1 => cases h
  | case2 seen id todo hs ih => exact (ih h).imp_left (.tail _)
  | case3 seen id todo hs ih =>
      rcases List.mem_cons.mp h with rfl | h
      · exact .inl (.head _)
      · rcases ih h with hx | hx
        · rcases List.mem_append.mp hx with hx | hx
          · obtain ⟨r, hr, rfl⟩ := List.mem_map.mp hx
            exact .inr ⟨r, (List.mem_filter.mp (mem_sort.mp hr)).1, rfl⟩
          · exact .inl (.tail _ hx)
        · exact .inr hx

lemma parents_congr (h : t'.inheritance = t.inheritance) : t'.parents = t.parents := by
  funext id
  rw [parents, parents, h]

lemma walk_congr (h : t'.inheritance = t.inheritance) (todo seen : List TagId) :
    t'.walk todo seen = t.walk todo seen := by
  fun_induction t.walk todo seen with
  | case1 => rw [walk]
  | case2 seen id todo hs ih => rw [walk, dif_pos hs, ih]
  | case3 seen id todo hs ih => rw [walk, dif_neg hs, parents_congr h, ih]

/-! ### The chain -/

lemma chain_eq (h : t.tag? id = some row) : t.chain id = row :: t.ancestors id := by
  rw [chain, walk_singleton, List.filterMap_cons_some h, ancestors]

lemma id_ne_of_mem_ancestors {a : TagRow} (h : a ∈ t.ancestors id) : a.id ≠ id := by
  obtain ⟨x, hx, ha⟩ := List.mem_filterMap.mp h
  rw [id_of_tag? ha]
  simpa using not_mem_seen_of_mem_walk hx

lemma id_mem_walk_of_mem_chain {a : TagRow} (h : a ∈ t.chain id) : a.id ∈ t.walk [id] [] := by
  obtain ⟨x, hx, ha⟩ := List.mem_filterMap.mp h
  rwa [id_of_tag? ha]

lemma chain_ne {d : TagId} (h : d ∉ t.walk [id] []) : ∀ a ∈ t.chain id, a.id ≠ d := by
  rintro a ha rfl
  exact h (id_mem_walk_of_mem_chain ha)

lemma mem_sources_of_tag? (h : t.tag? id = some row) (inherited : Bool) :
    row ∈ t.sources id inherited := by
  cases inherited
  · simp [sources, h]
  · simp [sources, chain_eq h]

lemma sources_subset_chain (t : Tables) (id : TagId) (inherited : Bool) :
    t.sources id inherited ⊆ t.chain id := by
  cases inherited with
  | true => exact fun _ h => h
  | false =>
      intro a ha
      simp only [sources, Bool.false_eq_true, if_false, Option.mem_toList] at ha
      rw [chain_eq ha]
      exact .head _

end TagSync.Tables
