import TagSync.Proofs.Grounded

/-!
What comes later leaves the past as it is.

New rows bear the stamps of new events, parents are only given to tags that are new, and a record
is revoked at an event after all that have been; so what counted at an event goes on to count
there.
-/

namespace TagSync

/-! ### One history -/

/-- What counts at the events up to `n` is the same in both histories. -/
def History.Keeps {α : Type} (n : EventId) (h h' : History α) : Prop :=
  ∀ m ≤ n, h'.active (some m) = h.active (some m)

lemma Versioned.isActive_revoke {α : Type} {m event : EventId} (hm : m < event)
    (r : Versioned α) : (r.revoke event).isActive (some m) = r.isActive (some m) := by
  unfold revoke
  split
  · rename_i hnow
    rw [isActive_none, Option.isNone_iff_eq_none] at hnow
    simp [isActive, hnow, hm]
  · rfl

namespace History.Keeps

variable {α : Type} {n event : EventId} {h h' : History α}

lemma refl (n : EventId) (h : History α) : h.Keeps n h := fun _ _ => Eq.refl _

lemma add (e : h.Keeps n h') (he : n < event) (a : α) : h.Keeps n (h'.add event a) := by
  intro m hm
  have hlater : ¬ event ≤ m := Int.not_le.mpr (Int.lt_of_le_of_lt hm he)
  rw [← e m hm]
  simp [active, History.add, Versioned.isActive, hlater]

lemma revoke (e : h.Keeps n h') (he : n < event) (p : α → Bool) :
    h.Keeps n (h'.revoke event p) := by
  intro m hm
  have hactive : ∀ r : Versioned α,
      (if p r.record then r.revoke event else r).isActive (some m) = r.isActive (some m) := by
    intro r
    split
    · exact Versioned.isActive_revoke (Int.lt_of_le_of_lt hm he) r
    · rfl
  rw [← e m hm]
  simp only [active, History.revoke, List.filter_map, List.map_map, Function.comp_def, hactive,
    record_ite_revoke]

lemma replace (e : h.Keeps n h') (he : n < event) (p : α → Bool) (a : α) :
    h.Keeps n (h'.replace event p a) := (e.revoke he p).add he a

end History.Keeps

/-! ### Tags -/

/-- Tags that are made after the event `n` may be added; of the old ones only the settings may be
others, as `f` says. -/
structure TagRow.Grown (f : TagRow → TagRow) (n : EventId) (l l' : List TagRow) : Prop where
  same : ∀ row, (f row).id = row.id ∧ (f row).name = row.name ∧ (f row).created = row.created
  rows : ∃ new, l' = l.map f ++ new ∧ ∀ row ∈ new, n < row.created

namespace TagRow.Grown

variable {f : TagRow → TagRow} {n : EventId} {l l' : List TagRow}

lemma refl (n : EventId) (l : List TagRow) : Grown (fun row => row) n l l where
  same := fun _ => ⟨rfl, rfl, rfl⟩
  rows := ⟨[], by simp, nofun⟩

lemma length_le (h : Grown f n l l') : l.length ≤ l'.length := by
  obtain ⟨new, rfl, -⟩ := h.rows
  simp

lemma add (h : Grown f n l l') {row : TagRow} (hrow : n < row.created) :
    Grown f n l (l' ++ [row]) := by
  obtain ⟨new, rfl, hnew⟩ := h.rows
  refine ⟨h.same, new ++ [row], List.append_assoc .., fun row' hrow' => ?_⟩
  rcases List.mem_append.mp hrow' with hrow' | hrow'
  · exact hnew row' hrow'
  · rwa [List.mem_singleton.mp hrow']

lemma map (h : Grown f n l l') {g : TagRow → TagRow}
    (hg : ∀ row, (g row).id = row.id ∧ (g row).name = row.name ∧ (g row).created = row.created) :
    Grown (g ∘ f) n l (l'.map g) := by
  obtain ⟨new, rfl, hnew⟩ := h.rows
  refine ⟨fun row => ?_, new.map g, by simp, fun row hrow => ?_⟩
  · obtain ⟨hid, hname, hcreated⟩ := hg (f row)
    obtain ⟨hid', hname', hcreated'⟩ := h.same row
    exact ⟨hid.trans hid', hname.trans hname', hcreated.trans hcreated'⟩
  · obtain ⟨row₀, hrow₀, rfl⟩ := List.mem_map.mp hrow
    rw [(hg row₀).2.2]
    exact hnew row₀ hrow₀

end TagRow.Grown

namespace Tables

/-! ### All tables -/

/-- **What comes later leaves the past as it is.** -/
structure Onward (t t' : Tables) : Prop where
  events : (t.events.length : Int) ≤ t'.events.length
  tags : ∃ f, TagRow.Grown f t.events.length t.tags t'.tags
  /-- Parents are only given to new tags. -/
  heirs : ∃ new, t'.inheritance = t.inheritance ++ new ∧
    ∀ r ∈ new, (t.tags.length : Int) < r.tag
  builds : ∃ new, t'.builds = t.builds ++ new
  packages : t.packages.Keeps t.events.length t'.packages
  taggings : t.taggings.Keeps t.events.length t'.taggings
  groups : t.groups.Keeps t.events.length t'.groups
  members : t.members.Keeps t.events.length t'.members

variable {c : Clock} {t t₁ t₂ : Tables} {event : EventId}

namespace Onward

lemma refl (t : Tables) : Onward t t where
  events := Int.le_refl _
  tags := ⟨_, .refl _ _⟩
  heirs := ⟨[], (List.append_nil _).symm, nofun⟩
  builds := ⟨[], (List.append_nil _).symm⟩
  packages := .refl _ _
  taggings := .refl _ _
  groups := .refl _ _
  members := .refl _ _

variable (h : Onward t t₁)

include h

lemma length_tags : t.tags.length ≤ t₁.tags.length := by
  obtain ⟨f, hf⟩ := h.tags
  exact hf.length_le

lemma newEvent (c : Clock) : Onward t (t₁.newEvent c).1 :=
  { h with events := Int.le_trans h.events (Confined.newEvent c 0 t₁).length_le }

lemma lt_newEvent (c : Clock) : (t.events.length : Int) < (t₁.newEvent c).2 :=
  Int.lt_add_one_of_le h.events

lemma setConfig (id : TagId) (config : TagConfig) : Onward t (t₁.setConfig id config) := by
  obtain ⟨f, hf⟩ := h.tags
  exact { h with tags := ⟨_, hf.map fun row => by split <;> exact ⟨rfl, rfl, rfl⟩⟩ }

lemma addBuild (nvr : Nvr) (state owner : String) : Onward t (t₁.addBuild nvr state owner) := by
  obtain ⟨new, hnew⟩ := h.builds
  refine { h with builds := ⟨new ++ [⟨t₁.builds.length + 1, nvr, state, owner⟩], ?_⟩ }
  rw [Tables.addBuild, hnew, List.append_assoc]

lemma addParent {r : InheritanceRow} (hr : (t.tags.length : Int) < r.tag) :
    Onward t { t₁ with inheritance := t₁.inheritance ++ [r] } := by
  obtain ⟨new, hheirs, hnew⟩ := h.heirs
  refine { h with heirs := ⟨new ++ [r], ?_, fun r' hr' => ?_⟩ }
  · rw [hheirs, List.append_assoc]
  · rcases List.mem_append.mp hr' with hr' | hr'
    · exact hnew r' hr'
    · rwa [List.mem_singleton.mp hr']

variable (he : (t.events.length : Int) < event)

include he

lemma addTag (name : String) (config : TagConfig) :
    Onward t (t₁.addTag name config event).1 := by
  obtain ⟨f, hf⟩ := h.tags
  exact { h with tags := ⟨f, hf.add he⟩ }

lemma carriedOut {tag : TagInfo} {flags : CallFlags} {o : Operation}
    (ho : CarriedOut t₁ tag flags event o t₂) : Onward t t₂ := by
  cases ho with
  | addPackage => exact { h with packages := h.packages.replace he _ _ }
  | blockPackage => exact { h with packages := h.packages.replace he _ _ }
  | addGroup => exact { h with groups := h.groups.replace he _ _ }
  | @removeGroup group =>
    exact { h with
      groups := h.groups.revoke he fun x => x.tag = tag.id && x.group = group
      members := h.members.revoke he fun x => x.tag = tag.id && x.group = group }
  | blockGroup => exact { h with groups := h.groups.replace he _ _ }
  | addGroupPackage => exact { h with members := h.members.replace he _ _ }
  | @removeGroupPackage group package =>
    exact { h with
      members := h.members.revoke he
        fun x => x.tag = tag.id && x.group = group && x.package = package }
  | blockGroupPackage => exact { h with members := h.members.replace he _ _ }
  | tagBuild =>
    unfold notifyIf
    split <;> exact { h with taggings := h.taggings.add he _ }
  | @untagBuild nvr n b parsed found tagged =>
    unfold notifyIf
    split <;> exact { h with
      taggings := h.taggings.revoke he fun x => x.tag = tag.id && x.build = b.id }

lemma write {n : Nat} (hn : t.tags.length ≤ n) (hw : Write n event t₁ t₂) : Onward t t₂ := by
  cases hw with
  | users => exact { h with }
  | build nvr state owner => exact h.addBuild nvr state owner
  | tag name config => exact h.addTag he name config
  | parent r new => exact h.addParent (by omega)
  | package r => exact { h with packages := h.packages.add he r }
  | tagging r => exact { h with taggings := h.taggings.add he r }
  | group r => exact { h with groups := h.groups.add he r }
  | member r => exact { h with members := h.members.add he r }

lemma writes {n : Nat} (hn : t.tags.length ≤ n) (hw : Writes n event t₁ t₂) : Onward t t₂ := by
  induction hw with
  | refl => exact h
  | tail _ hw ih => exact ih.write he hn hw

omit he

/-- **Every step leads onward.** -/
theorem step (hs : t₁.Sound) (hstep : Step c t₁ t₂) : Onward t t₂ := by
  have hevent := h.newEvent c
  have hlt := h.lt_newEvent c
  cases hstep with
  | call found accepted => exact hevent.carriedOut hlt (call_eq_ok accepted)
  | createTag config new => exact hevent.addTag hlt _ config
  | editTag config found => exact (h.setConfig _ config).newEvent c
  | newRepo found => exact { hevent with }
  | importSeed checked imported =>
    exact hevent.writes hlt h.length_tags
      (writes_importSeed ((Confined.newEvent c 0 t₁).sound hs) checked imported)

end Onward

end Tables

end TagSync
