import TagSync.Proofs.Filling
import TagSync.Proofs.Reachable
import TagSync.Proofs.Tags

/-!
What is stored is about what exists.

Every tag was made at an event of the hub, and every record, revoked or not, belongs to a tag and
a build that have been made.
-/

namespace TagSync

/-! ### All records of a history -/

/-- A property of all records, whether they count or not. -/
def History.All {α : Type} (p : α → Prop) (h : History α) : Prop := ∀ r ∈ h, p r.record

namespace History.All

variable {α : Type} {p q : α → Prop} {h : History α}

lemma nil : History.All p [] := fun _ hr => nomatch hr

lemma imp (hp : h.All p) (hpq : ∀ a, p a → q a) : h.All q := fun r hr => hpq _ (hp r hr)

lemma add (hp : h.All p) (event : EventId) {a : α} (ha : p a) : (h.add event a).All p := by
  intro r hr
  rcases List.mem_append.mp hr with hr | hr
  · exact hp r hr
  · rw [List.mem_singleton.mp hr]
    exact ha

lemma revoke (hp : h.All p) (event : EventId) (b : α → Bool) : (h.revoke event b).All p := by
  intro r hr
  obtain ⟨r₀, hr₀, rfl⟩ := List.mem_map.mp hr
  rw [record_ite_revoke]
  exact hp r₀ hr₀

lemma replace (hp : h.All p) (event : EventId) (b : α → Bool) {a : α} (ha : p a) :
    (h.replace event b a).All p := (hp.revoke event b).add event ha

lemma of_mem_active (hp : h.All p) {m : Option EventId} {a : α} (ha : a ∈ h.active m) : p a := by
  obtain ⟨r, hr, rfl⟩ := List.mem_map.mp ha
  exact hp r (List.mem_filter.mp hr).1

/-- No record is about a tag that is yet to be made. -/
lemma filter_active_eq_nil {tag : α → TagId} {n d : TagId} (hp : h.All fun a => tag a ≤ n)
    (hd : n < d) (m : Option EventId) : (h.active m).filter (fun a => tag a = d) = [] := by
  refine List.filter_eq_nil_iff.mpr fun a ha => ?_
  simpa using Int.ne_of_lt (Int.lt_of_le_of_lt (hp.of_mem_active ha) hd)

end History.All

namespace Tables

/-! ### Tables -/

/-- **Every tag and every record is about events, tags and builds that exist.** -/
structure Grounded (t : Tables) : Prop where
  tags : ∀ row ∈ t.tags, row.created ≤ t.events.length
  packages : t.packages.All fun r : PackageRow => r.tag ≤ t.tags.length
  taggings : t.taggings.All fun r : TaggingRow => r.tag ≤ t.tags.length ∧ r.build ≤ t.builds.length
  groups : t.groups.All fun r : GroupRow => r.tag ≤ t.tags.length
  members : t.members.All fun r : MemberRow => r.tag ≤ t.tags.length

variable {c : Clock} {t t' : Tables} {event : EventId}

namespace Grounded

lemma empty : Tables.empty.Grounded where
  tags := fun _ h => nomatch h
  packages := .nil
  taggings := .nil
  groups := .nil
  members := .nil

lemma newEvent (h : t.Grounded) (c : Clock) : (t.newEvent c).1.Grounded :=
  { h with
    tags := fun row hrow => Int.le_trans (h.tags row hrow) (Confined.newEvent c 0 t).length_le }

lemma addTag (h : t.Grounded) (name : String) (config : TagConfig)
    (he : event ≤ t.events.length) : (t.addTag name config event).1.Grounded := by
  have hlength : (t.tags.length : Int) ≤ (t.addTag name config event).1.tags.length := by
    simp only [Tables.addTag, List.length_append, List.length_singleton]
    omega
  refine ⟨fun row hrow => ?_, h.packages.imp fun r hr => Int.le_trans hr hlength,
    h.taggings.imp fun r hr => ⟨Int.le_trans hr.1 hlength, hr.2⟩,
    h.groups.imp fun r hr => Int.le_trans hr hlength,
    h.members.imp fun r hr => Int.le_trans hr hlength⟩
  rcases List.mem_append.mp hrow with hrow | hrow
  · exact h.tags row hrow
  · rw [List.mem_singleton.mp hrow]
    exact he

lemma setConfig (h : t.Grounded) (id : TagId) (config : TagConfig) :
    (t.setConfig id config).Grounded := by
  have hlength : (t.setConfig id config).tags.length = t.tags.length := List.length_map ..
  refine ⟨fun row hrow => ?_, ?_, ?_, ?_, ?_⟩
  · obtain ⟨row₀, hrow₀, rfl⟩ := List.mem_map.mp hrow
    split <;> exact h.tags row₀ hrow₀
  all_goals rw [hlength]
  exacts [h.packages, h.taggings, h.groups, h.members]

lemma carriedOut (h : t.Grounded) {tag : TagInfo} {flags : CallFlags} {o : Operation}
    (hids : Numbered (t.builds.map BuildRow.id)) (there : tag.id ≤ t.tags.length)
    (ho : CarriedOut t tag flags event o t') : t'.Grounded := by
  cases ho with
  | addPackage => exact { h with packages := h.packages.replace _ _ there }
  | blockPackage => exact { h with packages := h.packages.replace _ _ there }
  | addGroup => exact { h with groups := h.groups.replace _ _ there }
  | @removeGroup group =>
    exact { h with
      groups := h.groups.revoke event fun x => x.tag = tag.id && x.group = group
      members := h.members.revoke event fun x => x.tag = tag.id && x.group = group }
  | blockGroup => exact { h with groups := h.groups.replace _ _ there }
  | addGroupPackage => exact { h with members := h.members.replace _ _ there }
  | @removeGroupPackage group package =>
    exact { h with
      members := h.members.revoke event
        fun x => x.tag = tag.id && x.group = group && x.package = package }
  | blockGroupPackage => exact { h with members := h.members.replace _ _ there }
  | tagBuild parsed found =>
    have hbuilt := (hids.mem_iff.mp (List.mem_map_of_mem (List.mem_of_find?_eq_some found))).2
    rw [List.length_map] at hbuilt
    unfold notifyIf
    split <;> exact { h with taggings := h.taggings.add _ ⟨there, hbuilt⟩ }
  | @untagBuild nvr n b parsed found tagged =>
    unfold notifyIf
    split <;> exact { h with
      taggings := h.taggings.revoke event fun x => x.tag = tag.id && x.build = b.id }

lemma write {n : Nat} (h : t.Grounded) (he : event ≤ t.events.length)
    (hw : Write n event t t') : t'.Grounded := by
  cases hw with
  | users => exact { h with }
  | build nvr state owner =>
    refine { h with taggings := h.taggings.imp fun r hr => ⟨hr.1, Int.le_trans hr.2 ?_⟩ }
    simp only [addBuild, List.length_append, List.length_singleton]
    omega
  | tag name config => exact h.addTag name config he
  | parent => exact { h with }
  | package r _ there => exact { h with packages := h.packages.add _ there }
  | tagging r _ there built => exact { h with taggings := h.taggings.add _ ⟨there, built⟩ }
  | group r _ there => exact { h with groups := h.groups.add _ there }
  | member r _ there => exact { h with members := h.members.add _ there }

end Grounded

lemma Write.events {n : Nat} (h : Write n event t t') : t'.events = t.events := by
  cases h <;> rfl

lemma Grounded.writes {n : Nat} (h : t.Grounded) (he : event ≤ t.events.length)
    (hw : Writes n event t t') : t'.Grounded := by
  have hboth : t'.Grounded ∧ t'.events = t.events := by
    induction hw with
    | refl => exact ⟨h, rfl⟩
    | tail _ hw ih => exact ⟨ih.1.write (by rwa [ih.2]) hw, hw.events.trans ih.2⟩
  exact hboth.1

/-- **Steps keep tables grounded.** -/
theorem Step.grounded (h : Step c t t') (hs : t.Sound) (ht : t.Grounded) : t'.Grounded := by
  have hevent := ht.newEvent c
  cases h with
  | call found accepted =>
    obtain ⟨row, hrow, -⟩ := hs.tag?_of_getTag found
    have there := hs.tag_le (mem_of_tag? hrow)
    rw [id_of_tag? hrow] at there
    exact hevent.carriedOut hs.buildIds there (call_eq_ok accepted)
  | createTag config new => exact hevent.addTag _ config (by simp [newEvent])
  | editTag config found => exact (ht.setConfig _ config).newEvent c
  | newRepo found => exact { hevent with }
  | importSeed checked imported =>
    exact hevent.writes (by simp [newEvent])
      (writes_importSeed ((Confined.newEvent c 0 t).sound hs) checked imported)

end Tables

/-- **The tables of a hub are grounded.** -/
theorem Hub.Reachable.grounded {h : Hub} (hr : h.Reachable) : h.tables.Grounded := by
  have hboth := hr.holds (P := fun t : Tables => t.Sound ∧ t.Grounded) ⟨.empty, .empty⟩
    fun t t' ht hstep => ⟨hstep.sound ht.1, hstep.grounded ht.1 ht.2⟩
  exact hboth.1.2

end TagSync
