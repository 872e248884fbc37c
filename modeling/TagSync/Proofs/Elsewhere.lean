import Mathlib.Data.List.Basic
import TagSync.Proofs.Views

/-!
What tags see that do not inherit from a changed one.

Their listings stay as they are: those at an old event, and those at any two events after the
last change of what they list.
-/

namespace TagSync

/-! ### Moments -/

/-- Two points of history between which nothing happened that is stamped with an event up to
`n`: one and the same, or both at `n` or later. -/
def SameMoment (n : EventId) (m m' : Option EventId) : Prop :=
  m = m' ∨ (∀ i, m = some i → n ≤ i) ∧ ∀ i, m' = some i → n ≤ i

namespace History

variable {α : Type} {own q : α → Bool} {n n' : EventId} {h h' : History α}

lemma StampedTo.active_eq_now (hs : h.StampedTo n) {m : Option EventId}
    (hm : ∀ i, m = some i → n ≤ i) : h.active m = h.active none := by
  rcases m with _ | i
  · rfl
  · exact hs.active_eq (hm i rfl)

/-- The records of others count at the same moment as before. -/
lemma Edited.filter_active (e : h.Edited own n' h') (hs : h.StampedTo n)
    (hq : ∀ a, q a → own a = false) {m m' : Option EventId} (hm : SameMoment n m m') :
    (h'.active m').filter q = (h.active m).filter q := by
  rw [History.filter_active, History.filter_active, e.rowsOf_eq hq]
  rcases hm with rfl | ⟨hm, hm'⟩
  · rfl
  · have hrows : (h.rowsOf q).StampedTo n := fun r hr => hs r (List.mem_filter.mp hr).1
    rw [hrows.active_eq_now hm, hrows.active_eq_now hm']

end History

namespace Tables

variable {c : Clock} {d id : TagId} {t t' : Tables} {n : EventId} {m m' : Option EventId}
  {tags : List TagRow}

namespace Confined

variable (e : Confined c d t t') (hw : t.WrittenTo n) (hm : SameMoment n m m')

include e

/-! ### The chain -/

lemma chain_eq (h : d ∉ t.walk [id] []) : t'.chain id = t.chain id := by
  rw [chain, chain, walk_congr e.inheritance]
  refine List.filterMap_congr fun x hx => e.tag? ?_
  rintro rfl
  exact h hx

lemma ancestors_eq : t'.ancestors d = t.ancestors d := by
  rw [ancestors, ancestors, walk_congr e.inheritance, parents_congr e.inheritance]
  refine List.filterMap_congr fun x hx => e.tag? ?_
  rintro rfl
  exact not_mem_seen_of_mem_walk hx (.head _)

lemma sources_eq (h : d ∉ t.walk [id] []) (inherited : Bool) :
    t'.sources id inherited = t.sources id inherited := by
  have hid : id ≠ d := by
    rintro rfl
    exact h (by rw [walk_singleton]; exact .head _)
  cases inherited
  · simp only [sources, Bool.false_eq_true, if_false, e.tag? hid]
  · exact e.chain_eq h

/-! ### Records of other tags -/

include hw hm

lemma packagesOn_eq {a : TagRow} (ha : a.id ≠ d) : t'.packagesOn m' a = t.packagesOn m a := by
  rw [packagesOn, packagesOn, e.packages.filter_active hw.packages ?_ hm]
  simp_all

lemma taggingsOn_eq {a : TagRow} (ha : a.id ≠ d) : t'.taggingsOn m' a = t.taggingsOn m a := by
  have hbuild : t'.build? = t.build? := by
    funext x
    rw [build?, build?, e.builds]
  rw [taggingsOn, taggingsOn, hbuild, e.taggings.filter_active hw.taggings ?_ hm]
  simp_all

lemma groupsOn_eq {a : TagRow} (ha : a.id ≠ d) : t'.groupsOn m' a = t.groupsOn m a := by
  rw [groupsOn, groupsOn, e.groups.filter_active hw.groups ?_ hm]
  simp_all

lemma membersOn_eq {a : TagRow} (ha : a.id ≠ d) (group : String) :
    t'.membersOn m' group a = t.membersOn m group a := by
  rw [membersOn, membersOn, e.members.filter_active hw.members ?_ hm]
  intro r hr
  simp_all

/-! ### Views over other tags -/

variable (htags : ∀ a ∈ tags, a.id ≠ d)

include htags

lemma packageView_eq : t'.packageView m' tags = t.packageView m tags := by
  rw [packageView, packageView,
    List.flatMap_congr fun a ha => e.packagesOn_eq hw hm (htags a ha)]

lemma memberView_eq (group : String) :
    t'.memberView m' tags group = t.memberView m tags group := by
  rw [memberView, memberView,
    List.flatMap_congr fun a ha => e.membersOn_eq hw hm (htags a ha) group]

lemma groupView_eq : t'.groupView m' tags = t.groupView m tags := by
  have hmembers : t'.withMembers m' tags = t.withMembers m tags := by
    funext g
    have := e.memberView_eq hw hm htags g.name
    rw [memberView, memberView] at this
    rw [withMembers, withMembers, this]
  rw [groupView, groupView, hmembers,
    List.flatMap_congr fun a ha => e.groupsOn_eq hw hm (htags a ha)]

end Confined

/-! ### What lies above the changed tag -/

/-- **Nothing above a tag changes** when only the tag itself is changed. -/
theorem Confined.above_eq (e : Confined c d t t') (ht : t.Sound) : t'.above d = t.above d := by
  have hw := ht.writtenTo
  have hm : SameMoment t.events.length none none := .inl rfl
  have htags : ∀ a ∈ t.ancestors d, a.id ≠ d := fun a => id_ne_of_mem_ancestors
  funext s
  cases s with
  | package name => rw [above, above, e.ancestors_eq, e.packageView_eq hw hm htags]
  | build n => rfl
  | group name => rw [above, above, e.ancestors_eq, e.groupView_eq hw hm htags]
  | member group package =>
    rw [above, above, e.ancestors_eq, e.memberView_eq hw hm htags]

/-! ### Listings of other tags -/

section Listings

variable (e : Confined c d t t') (hw : t.WrittenTo n) (hm : SameMoment n m m')
  (hid : d ∉ t.walk [id] [])

include e hw hm hid

lemma Confined.listPackages_eq (inherited : Bool) :
    t'.listPackages id inherited m' = t.listPackages id inherited m := by
  rw [listPackages, listPackages, e.sources_eq hid]
  rw [e.packageView_eq hw hm fun a ha =>
    chain_ne hid a (sources_subset_chain t id inherited ha)]

lemma Confined.listGroups_eq : t'.listGroups id m' = t.listGroups id m := by
  rw [listGroups, listGroups, e.chain_eq hid, e.groupView_eq hw hm (chain_ne hid)]

lemma Confined.shownTaggings_eq (inherited : Bool) :
    t'.shownTaggings id inherited m' = t.shownTaggings id inherited m := by
  have htaggings : (t'.sources id inherited).flatMap (t'.taggingsOn m') =
      (t.sources id inherited).flatMap (t.taggingsOn m) := by
    rw [e.sources_eq hid]
    exact List.flatMap_congr fun a ha => e.taggingsOn_eq hw hm
      (chain_ne hid a (sources_subset_chain t id inherited ha))
  rw [shownTaggings, shownTaggings, e.chain_eq hid, htaggings,
    e.packageView_eq hw hm (chain_ne hid)]

end Listings

end Tables

end TagSync
