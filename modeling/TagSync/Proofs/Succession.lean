import TagSync.Proofs.Filling
import TagSync.Proofs.Reachable

/-!
Records that succeed each other.

The tables of packages, groups and members have no unique keys. That no two rows of one key count
at the same event is due to the writes: a call revokes the old row at the event at which it makes
the new one, and every call has an event of its own. So of two rows of one key the first one has
ended by the time the second one begins.
-/

namespace TagSync

variable {α κ : Type}

namespace Versioned

variable {r : Versioned α} {event x : EventId}

lemma created_revoke (event : EventId) (r : Versioned α) :
    (r.revoke event).created = r.created := by
  unfold revoke
  split <;> rfl

/-- A row that was revoked before stays as it is. -/
lemma revoked_revoke_of_some (h : r.revoked = some x) : (r.revoke event).revoked = some x := by
  simp [revoke, h]

end Versioned

namespace History

variable {key : α → κ} {h : History α} {n event : EventId}

/-- What becomes of a row of a history when those of a kind are revoked. -/
lemma mem_revoke {event : EventId} {p : α → Bool} {r : Versioned α} (hr : r ∈ h.revoke event p) :
    r ∈ h ∧ (p r.record = true → r.revoked.isSome) ∨
      ∃ q ∈ h, q.revoked = none ∧ r = { q with revoked := some event } := by
  obtain ⟨q, hq, rfl⟩ := List.mem_map.mp hr
  by_cases hp : p q.record = true
  · rw [if_pos hp]
    rcases hx : q.revoked with _ | x
    · exact .inr ⟨q, hq, hx, by simp [Versioned.revoke, hx]⟩
    · have hsame : q.revoke event = q := by simp [Versioned.revoke, hx]
      rw [hsame]
      exact .inl ⟨hq, fun _ => by rw [hx]; rfl⟩
  · rw [if_neg hp]
    exact .inl ⟨hq, fun hp' => absurd hp' hp⟩

/-- Adds records, one after the other. -/
def addAll (h : History α) (event : EventId) (l : List α) : History α :=
  h ++ l.map fun a => ⟨a, event, none⟩

@[simp] lemma addAll_nil (h : History α) (event : EventId) : h.addAll event [] = h :=
  List.append_nil h

lemma addAll_addAll (h : History α) (event : EventId) (l l' : List α) :
    (h.addAll event l).addAll event l' = h.addAll event (l ++ l') := by
  rw [addAll, addAll, addAll, List.map_append, List.append_assoc]

lemma foldl_add {β : Type} (f : β → α) (l : List β) (h : History α) :
    l.foldl (fun h b => h.add event (f b)) h = h.addAll event (l.map f) := by
  induction l generalizing h with
  | nil => exact (h.addAll_nil event).symm
  | cons b rest ih => exact (ih _).trans (h.addAll_addAll event [f b] (rest.map f))

/-! ### One row after the other -/

/-- Of two rows of one key, the one made first was revoked by the time the other one was made. -/
def Successive (key : α → κ) (h : History α) : Prop :=
  h.Pairwise fun r s => key r.record = key s.record → ∃ x, r.revoked = some x ∧ x ≤ s.created

namespace Successive

lemma nil : Successive key ([] : History α) := List.Pairwise.nil

/-- **At most one row of a key counts**, at every event and now. -/
theorem nodup_active (hs : h.Successive key) (event : Option EventId) :
    ((h.active event).map key).Nodup := by
  rw [List.Nodup, active, List.pairwise_map, List.pairwise_map]
  refine (hs.filter _).imp_of_mem fun {r s} hr hs' hends heq => ?_
  obtain ⟨x, hx, hle⟩ := hends heq
  have hractive := (List.mem_filter.mp hr).2
  have hsactive := (List.mem_filter.mp hs').2
  rcases event with _ | e
  · simp [hx] at hractive
  · have hrlater : e < x := by
      simp only [Versioned.isActive, hx, Bool.and_eq_true, Option.all_some,
        decide_eq_true_eq] at hractive
      exact hractive.2
    have hsbegun : s.created ≤ e := by
      simp only [Versioned.isActive, Bool.and_eq_true, decide_eq_true_eq] at hsactive
      exact hsactive.1
    exact absurd hrlater (Int.not_lt.mpr (Int.le_trans hle hsbegun))

/-- Rows of a key can be added once all rows of the key have ended. -/
lemma add (hs : h.Successive key) {a : α}
    (hended : ∀ r ∈ h, key r.record = key a → ∃ x, r.revoked = some x ∧ x ≤ event) :
    (h.add event a).Successive key := by
  refine List.pairwise_append.mpr ⟨hs, List.pairwise_singleton _ _, fun r hr s hs' => ?_⟩
  rw [List.mem_singleton.mp hs']
  exact hended r hr

/-- Ending more rows does no harm. -/
lemma revoke (hs : h.Successive key) (event : EventId) (p : α → Bool) :
    (h.revoke event p).Successive key := by
  have hkept : ∀ r : Versioned α, let r' := if p r.record then r.revoke event else r
      r'.record = r.record ∧ r'.created = r.created ∧
        ∀ x, r.revoked = some x → r'.revoked = some x := by
    intro r
    dsimp only
    split
    · exact ⟨record_revoke event r, r.created_revoke event,
        fun x => Versioned.revoked_revoke_of_some⟩
    · exact ⟨rfl, rfl, fun _ hx => hx⟩
  refine List.pairwise_map.mpr (hs.imp fun {r s} hends heq => ?_)
  obtain ⟨hrecord, -, hrevoked⟩ := hkept r
  obtain ⟨hrecord', hcreated', -⟩ := hkept s
  rw [hrecord, hrecord'] at heq
  obtain ⟨x, hx, hle⟩ := hends heq
  exact ⟨x, hrevoked x hx, by rwa [hcreated']⟩

/-- A record that takes the place of all others of its key succeeds them. -/
lemma replace (hs : h.Successive key) (hstamped : h.StampedTo n) (hn : n ≤ event)
    {p : α → Bool} {a : α} (hp : ∀ b, key b = key a → p b) :
    (h.replace event p a).Successive key := by
  refine (hs.revoke event p).add fun r hr heq => ?_
  rcases mem_revoke hr with ⟨hold, hended⟩ | ⟨q, -, -, rfl⟩
  · obtain ⟨x, hx⟩ := Option.isSome_iff_exists.mp (hended (hp _ heq))
    exact ⟨x, hx, Int.le_trans ((hstamped r hold).2 x hx) hn⟩
  · exact ⟨event, rfl, Int.le_refl event⟩

/-- New rows with keys of their own make no difference. -/
lemma addAll (hs : h.Successive key) (event : EventId) {l : List α} (hl : (l.map key).Nodup)
    (hapart : ∀ r ∈ h, ∀ a ∈ l, key r.record ≠ key a) : (h.addAll event l).Successive key := by
  refine List.pairwise_append.mpr ⟨hs, ?_, fun r hr s hs' heq => ?_⟩
  · rw [List.Nodup, List.pairwise_map] at hl
    exact List.pairwise_map.mpr (hl.imp fun hne heq => absurd heq hne)
  · obtain ⟨a, ha, rfl⟩ := List.mem_map.mp hs'
    exact absurd heq (hapart r hr a ha)

end Successive

/-! ### Beginnings and ends -/

/-- No row begins before the first event, and none ends before it has begun. -/
def Dated (h : History α) : Prop :=
  ∀ r ∈ h, 1 ≤ r.created ∧ ∀ x, r.revoked = some x → r.created < x

namespace Dated

lemma nil : Dated ([] : History α) := fun _ hr => nomatch hr

lemma add (hd : h.Dated) (hpos : 1 ≤ event) (a : α) : (h.add event a).Dated := by
  intro r hr
  rcases List.mem_append.mp hr with hr | hr
  · exact hd r hr
  · rw [List.mem_singleton.mp hr]
    exact ⟨hpos, nofun⟩

/-- What is revoked at a new event was made before it. -/
lemma revoke (hd : h.Dated) (hstamped : h.StampedTo n) (hn : n < event) (p : α → Bool) :
    (h.revoke event p).Dated := by
  intro r hr
  rcases mem_revoke hr with ⟨hold, -⟩ | ⟨q, hq, -, rfl⟩
  · exact hd r hold
  · refine ⟨(hd q hq).1, fun x hx => ?_⟩
    cases hx
    exact Int.lt_of_le_of_lt (hstamped q hq).1 hn

lemma replace (hd : h.Dated) (hstamped : h.StampedTo n) (hn : n < event) (hpos : 1 ≤ event)
    (p : α → Bool) (a : α) : (h.replace event p a).Dated :=
  (hd.revoke hstamped hn p).add hpos a

end Dated

end History

namespace Tables

/-- In the three tables that a tag has one row for every name in, rows of one key succeed each
other. -/
structure Successive (t : Tables) : Prop where
  packages : t.packages.Successive fun r => (r.tag, r.package)
  groups : t.groups.Successive fun r => (r.tag, r.group)
  members : t.members.Successive fun r => (r.tag, r.group, r.package)

/-- All content begins with an event, and ends after it if it has ended. -/
structure Dated (t : Tables) : Prop where
  packages : t.packages.Dated
  taggings : t.taggings.Dated
  groups : t.groups.Dated
  members : t.members.Dated

variable {c : Clock} {t t' : Tables} {n event : EventId} {tag : TagInfo} {flags : CallFlags}
  {o : Operation}

/-! ### Calls -/

lemma CarriedOut.successive (ho : CarriedOut t tag flags event o t') (hs : t.Successive)
    (hw : t.WrittenTo n) (hn : n ≤ event) : t'.Successive := by
  cases ho with
  | addPackage =>
    exact { hs with packages := hs.packages.replace hw.packages hn fun r hr => by simp_all }
  | blockPackage =>
    exact { hs with packages := hs.packages.replace hw.packages hn fun r hr => by simp_all }
  | addGroup => exact { hs with groups := hs.groups.replace hw.groups hn fun r hr => by simp_all }
  | @removeGroup group =>
    exact { hs with
      groups := hs.groups.revoke event fun x => x.tag = tag.id && x.group = group
      members := hs.members.revoke event fun x => x.tag = tag.id && x.group = group }
  | blockGroup =>
    exact { hs with groups := hs.groups.replace hw.groups hn fun r hr => by simp_all }
  | addGroupPackage =>
    exact { hs with members := hs.members.replace hw.members hn fun r hr => by simp_all }
  | @removeGroupPackage group package =>
    exact { hs with
      members := hs.members.revoke event
        fun x => x.tag = tag.id && x.group = group && x.package = package }
  | blockGroupPackage =>
    exact { hs with members := hs.members.replace hw.members hn fun r hr => by simp_all }
  | tagBuild =>
    unfold notifyIf
    split <;> exact { hs with }
  | untagBuild =>
    unfold notifyIf
    split <;> exact { hs with }

lemma CarriedOut.dated (ho : CarriedOut t tag flags event o t') (hd : t.Dated)
    (hw : t.WrittenTo n) (hn : n < event) (hpos : 1 ≤ event) : t'.Dated := by
  cases ho with
  | addPackage => exact { hd with packages := hd.packages.replace hw.packages hn hpos _ _ }
  | blockPackage => exact { hd with packages := hd.packages.replace hw.packages hn hpos _ _ }
  | addGroup => exact { hd with groups := hd.groups.replace hw.groups hn hpos _ _ }
  | @removeGroup group =>
    exact { hd with
      groups := hd.groups.revoke hw.groups hn fun x => x.tag = tag.id && x.group = group
      members := hd.members.revoke hw.members hn fun x => x.tag = tag.id && x.group = group }
  | blockGroup => exact { hd with groups := hd.groups.replace hw.groups hn hpos _ _ }
  | addGroupPackage => exact { hd with members := hd.members.replace hw.members hn hpos _ _ }
  | @removeGroupPackage group package =>
    exact { hd with
      members := hd.members.revoke hw.members hn
        fun x => x.tag = tag.id && x.group = group && x.package = package }
  | blockGroupPackage => exact { hd with members := hd.members.replace hw.members hn hpos _ _ }
  | tagBuild =>
    unfold notifyIf
    split <;> exact { hd with taggings := hd.taggings.add hpos _ }
  | @untagBuild nvr v b =>
    unfold notifyIf
    split <;> exact { hd with
      taggings := hd.taggings.revoke hw.taggings hn fun x => x.tag = tag.id && x.build = b.id }

/-! ### Imports -/

lemma Dated.write {k : Nat} (hd : t.Dated) (hpos : 1 ≤ event) (hw : Write k event t t') :
    t'.Dated := by
  cases hw with
  | package r => exact { hd with packages := hd.packages.add hpos r }
  | tagging r => exact { hd with taggings := hd.taggings.add hpos r }
  | group r => exact { hd with groups := hd.groups.add hpos r }
  | member r => exact { hd with members := hd.members.add hpos r }
  | users => exact { hd with }
  | build => exact { hd with }
  | tag => exact { hd with }
  | parent => exact { hd with }

lemma Dated.writes {k : Nat} (hd : t.Dated) (hpos : 1 ≤ event) (hw : Writes k event t t') :
    t'.Dated := by
  induction hw with
  | refl => exact hd
  | tail _ hw ih => exact ih.write hpos hw

/-- **Steps keep tables dated.** -/
theorem Step.dated (hstep : Step c t t') (hs : t.Sound) (hd : t.Dated) : t'.Dated := by
  have hpos : 1 ≤ (t.newEvent c).2 := Int.le_add_of_nonneg_left (Int.natCast_nonneg _)
  have hlt : (t.events.length : Int) < (t.newEvent c).2 := Int.lt_add_one_of_le (Int.le_refl _)
  have hw : (t.newEvent c).1.WrittenTo t.events.length :=
    ⟨hs.packages, hs.taggings, hs.groups, hs.members⟩
  have hevent : (t.newEvent c).1.Dated := { hd with }
  cases hstep with
  | call found accepted => exact (call_eq_ok accepted).dated hevent hw hlt hpos
  | createTag config new => exact { hevent with }
  | editTag config found => exact { hd with }
  | newRepo found => exact { hevent with }
  | importSeed checked imported =>
    have hsound := (Confined.newEvent c 0 t).sound hs
    exact hevent.writes hpos (writes_importSeed hsound checked imported)

end Tables

end TagSync
