import TagSync.Build
import TagSync.Hub.Inheritance
import TagSync.Proofs.Clock
import TagSync.Proofs.History

/-!
What holds of the tables of a hub at all times.

Numbers are given out in turn, builds have names that can be read back, parents exist, and no
record bears a stamp of an event to come.
-/

namespace TagSync

/-! ### Numbers given out in turn -/

/-- The numbers of the rows of a table: 1, 2, 3, and so on. -/
def Numbered (ids : List Int) : Prop :=
  ids = (List.range ids.length).map fun i : Nat => (i : Int) + 1

namespace Numbered

variable {ids : List Int}

lemma nil : Numbered [] := rfl

lemma append (h : Numbered ids) : Numbered (ids ++ [(ids.length : Int) + 1]) := by
  unfold Numbered at h ⊢
  rw [List.length_append, List.length_singleton, List.range_succ, List.map_append, ← h]
  rfl

lemma nodup (h : Numbered ids) : ids.Nodup := by
  rw [h]
  rw [List.Nodup, List.pairwise_map]
  exact List.nodup_range.imp fun hne e => hne (by omega)

lemma mem_iff (h : Numbered ids) {x : Int} : x ∈ ids ↔ 1 ≤ x ∧ x ≤ ids.length := by
  rw [h]
  simp only [List.mem_map, List.mem_range, List.length_map, List.length_range]
  constructor
  · rintro ⟨i, hi, rfl⟩
    omega
  · rintro ⟨h1, h2⟩
    exact ⟨(x - 1).toNat, by omega, by omega⟩

lemma of_append {l l' : List Int} (h : Numbered (l ++ l')) : Numbered l := by
  unfold Numbered at h ⊢
  rw [List.length_append, List.range_add, List.map_append] at h
  exact List.append_inj_left h (by simp)

/-- Numbers that are given out later are larger. -/
lemma lt_of_mem_append {l l' : List Int} (h : Numbered (l ++ l')) {x : Int} (hx : x ∈ l') :
    (l.length : Int) < x := by
  by_contra hle
  have hpos := (h.mem_iff.mp (List.mem_append_right l hx)).1
  have hmem : x ∈ l := h.of_append.mem_iff.mpr ⟨hpos, Int.not_lt.mp hle⟩
  exact (List.nodup_append.mp h.nodup).2.2 x hmem x hx rfl

end Numbered

/-- Where no two rows have the same key, looking a row's key up finds the row. -/
lemma find?_key {α κ : Type} [DecidableEq κ] {key : α → κ} {l : List α} (h : (l.map key).Nodup)
    {a : α} (ha : a ∈ l) : l.find? (fun b => key b = key a) = some a := by
  induction l with
  | nil => cases ha
  | cons b rest ih =>
    rw [List.map_cons, List.nodup_cons] at h
    rcases List.mem_cons.mp ha with rfl | ha
    · simp
    · have : key b ≠ key a := fun e => h.1 (List.mem_map.mpr ⟨a, ha, e.symm⟩)
      rw [List.find?_cons_of_neg (by simpa using this), ih h.2 ha]

/-- Where no two rows have the same key and part, those of one key have parts of their own. -/
lemma nodup_map_filter {α κ μ : Type} [DecidableEq κ] {key : α → κ} {part : α → μ} {l : List α}
    (h : (l.map fun a => (key a, part a)).Nodup) (k : κ) :
    ((l.filter (key · = k)).map part).Nodup := by
  rw [List.Nodup, List.pairwise_map] at h ⊢
  refine (h.filter _).imp_of_mem fun {a b} ha hb hne heq => hne ?_
  have ha := of_decide_eq_true (List.mem_filter.mp ha).2
  have hb := of_decide_eq_true (List.mem_filter.mp hb).2
  rw [ha, hb, heq]

namespace Tables

/-- No content bears a stamp of an event after `n`. -/
structure WrittenTo (t : Tables) (n : EventId) : Prop where
  packages : t.packages.StampedTo n
  taggings : t.taggings.StampedTo n
  groups : t.groups.StampedTo n
  members : t.members.StampedTo n

/-- **What holds of all tables of a hub.** -/
structure Sound (t : Tables) : Prop where
  eventIds : Numbered (t.events.map EventInfo.id)
  tagIds : Numbered (t.tags.map TagRow.id)
  buildIds : Numbered (t.builds.map BuildRow.id)
  /-- Inheritance rows are about tags that exist. -/
  heirs : ∀ r ∈ t.inheritance, r.tag ≤ t.tags.length ∧ r.parent ≤ t.tags.length
  nvrs : (t.builds.map BuildRow.nvr).Nodup
  readable : ∀ b ∈ t.builds, Nvr.parse? b.nvr.display = some b.nvr
  states : ∀ b ∈ t.builds, ∃ s, BuildState.parse b.state = .ok s
  packages : t.packages.StampedTo t.events.length
  taggings : t.taggings.StampedTo t.events.length
  groups : t.groups.StampedTo t.events.length
  members : t.members.StampedTo t.events.length

namespace Sound

variable {t : Tables}

lemma empty : Tables.empty.Sound where
  eventIds := .nil
  tagIds := .nil
  buildIds := .nil
  heirs := fun _ h => nomatch h
  nvrs := .nil
  readable := fun _ h => nomatch h
  states := fun _ h => nomatch h
  packages := .nil
  taggings := .nil
  groups := .nil
  members := .nil

variable (ht : t.Sound)

include ht

lemma writtenTo : t.WrittenTo t.events.length := ⟨ht.packages, ht.taggings, ht.groups, ht.members⟩

lemma tag?_self {row : TagRow} (h : row ∈ t.tags) : t.tag? row.id = some row :=
  find?_key ht.tagIds.nodup h

lemma build?_self {b : BuildRow} (h : b ∈ t.builds) : t.build? b.id = some b :=
  find?_key ht.buildIds.nodup h

lemma buildNamed?_self {b : BuildRow} (h : b ∈ t.builds) : t.buildNamed? b.nvr = some b :=
  find?_key ht.nvrs h

lemma tag_le {row : TagRow} (h : row ∈ t.tags) : row.id ≤ t.tags.length := by
  have := (ht.tagIds.mem_iff.mp (List.mem_map_of_mem h)).2
  simpa using this

/-- The last event has the largest number. -/
lemma id_getLast? {e : EventInfo} (h : t.events.getLast? = some e) :
    e.id = t.events.length := by
  have hids := ht.eventIds
  obtain ⟨before, hsplit⟩ := List.getLast?_eq_some_iff.mp h
  rw [hsplit] at hids ⊢
  unfold Numbered at hids
  simp only [List.map_append, List.map_cons, List.map_nil, List.length_append, List.length_map,
    List.length_singleton, List.range_succ] at hids ⊢
  have := (List.append_inj_right hids (by simp))
  simpa using this

/-- Events that are added have larger numbers. -/
lemma lt_id_of_mem_new {l new : List EventInfo} (h : t.events = l ++ new) {e : EventInfo}
    (he : e ∈ new) : (l.length : Int) < e.id := by
  have hids := ht.eventIds
  rw [h, List.map_append] at hids
  simpa using hids.lt_of_mem_append (List.mem_map_of_mem he)

/-- A new tag has a number of its own. -/
lemma tag?_new : t.tag? (t.tags.length + 1) = none := by
  rw [tag?, List.find?_eq_none]
  intro row hrow
  simpa using Int.ne_of_lt (Int.lt_add_one_iff.mpr (ht.tag_le hrow))

/-- A tag to come has no parents yet. -/
lemma parents_new : t.parents (t.tags.length + 1) = [] := by
  rw [parents, List.map_eq_nil_iff, ← List.length_eq_zero_iff, length_sort,
    List.length_eq_zero_iff, List.filter_eq_nil_iff]
  intro r hr
  simpa using Int.ne_of_lt (Int.lt_add_one_of_le (ht.heirs r hr).1)

end Sound

end Tables

end TagSync
