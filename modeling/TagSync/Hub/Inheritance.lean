import TagSync.Hub.Tables
import TagSync.Sort

/-!
The tags a tag inherits from.

The walk visits a tag before its parents and takes the parents by priority, equal ones by
number. A tag that was visited before is passed over, so the walk ends on circles, too.
-/

namespace TagSync

/-- Whether a row comes before another one of the same tag, or beside it. -/
def InheritanceRow.le (a b : InheritanceRow) : Bool :=
  a.priority < b.priority || (a.priority = b.priority && a.parent ≤ b.parent)

namespace Tables

/-- The parents of a tag in the order of the walk. -/
def parents (t : Tables) (id : TagId) : List TagId :=
  (sort InheritanceRow.le (t.inheritance.filter (·.tag = id))).map InheritanceRow.parent

/-- The inheritance rows of tags that were not visited yet. -/
def unvisited (t : Tables) (seen : List TagId) : List InheritanceRow :=
  t.inheritance.filter fun r => !seen.contains r.tag

theorem length_parents_add_unvisited (t : Tables) {id : TagId} {seen : List TagId}
    (h : id ∉ seen) :
    (t.parents id).length + (t.unvisited (id :: seen)).length = (t.unvisited seen).length := by
  simp only [parents, unvisited, List.length_map, length_sort]
  induction t.inheritance with
  | nil => rfl
  | cons r rest ih =>
    by_cases hr : r.tag = id
    · have hn : r.tag ∉ seen := by rw [hr]; exact h
      simp_all
      omega
    · by_cases hs : r.tag ∈ seen <;> simp_all
      omega

/-- The tags that are reached from those in `todo`, in the order of the walk, without those in
`seen`. -/
def walk (t : Tables) (todo seen : List TagId) : List TagId :=
  match todo with
  | [] => []
  | id :: todo =>
    if _new : id ∈ seen then walk t todo seen
    else id :: walk t (t.parents id ++ todo) (id :: seen)
termination_by todo.length + (t.unvisited seen).length
decreasing_by
  · simp
  · have := t.length_parents_add_unvisited _new
    simp only [List.length_append, List.length_cons]
    omega

/-- A tag and all tags it inherits from, the tag itself first; nothing if there is no such
tag. -/
def chain (t : Tables) (id : TagId) : List TagRow := (t.walk [id] []).filterMap t.tag?

/-- The tags whose records a listing takes: the tag alone, or with its ancestors. -/
def sources (t : Tables) (id : TagId) (inherited : Bool) : List TagRow :=
  if inherited then t.chain id else (t.tag? id).toList

end Tables

end TagSync
