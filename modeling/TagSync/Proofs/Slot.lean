import TagSync.Proofs.Confined

/-!
The places where a tag may hold records of its own.

In every place the newest state counts: there is no record, or there is one that blocks or does
not block. A build that is tagged counts as a record that does not block.
-/

namespace TagSync

/-- A place where a tag may hold a record of its own. -/
inductive Slot where
  | package (name : String)
  | build (nvr : Nvr)
  | group (name : String)
  | member (group package : String)
  deriving DecidableEq, Repr

/-- What an operation leaves in a place, if it writes there at all: no record, or one that blocks
or not. -/
def Operation.write? : Operation → Slot → Option (Option Bool)
  | .addPackage package _ blocked _, s => if s = .package package then some (some blocked) else none
  | .blockPackage package, s => if s = .package package then some (some true) else none
  | .addGroup group, s => if s = .group group then some (some false) else none
  | .removeGroup group, .group g => if g = group then some none else none
  | .removeGroup group, .member g _ => if g = group then some none else none
  | .removeGroup _, _ => none
  | .blockGroup group, s => if s = .group group then some (some true) else none
  | .addGroupPackage group package, s =>
    if s = .member group package then some (some false) else none
  | .removeGroupPackage group package, s =>
    if s = .member group package then some none else none
  | .blockGroupPackage group package, s =>
    if s = .member group package then some (some true) else none
  | .tagBuild nvr, .build n => if Nvr.parse? nvr = some n then some (some false) else none
  | .tagBuild _, _ => none
  | .untagBuild nvr, .build n => if Nvr.parse? nvr = some n then some none else none
  | .untagBuild _, _ => none

/-- The record by which an operation lists a package on a tag, whatever the tag sees. -/
def Operation.lists? (d : TagId) : Operation → String → Option PackageRow
  | .addPackage package owner blocked extraArches, name =>
    if name = package then some ⟨d, package, owner, blocked, extraArches⟩ else none
  | _, _ => none

namespace Tables

variable {t : Tables} {d : TagId} {event : EventId}

/-- Whether a build is tagged into a tag itself, by its name. -/
def holdsBuild (t : Tables) (d : TagId) (n : Nvr) : Bool :=
  (t.buildNamed? n).any fun b => t.isTagged d b.id

/-- What a tag holds itself in a place: whether its record there blocks. -/
def own (t : Tables) (d : TagId) : Slot → Option Bool
  | .package name =>
    (t.packages.current fun r => r.tag = d && r.package = name).map PackageRow.blocked
  | .build n => if t.holdsBuild d n then some false else none
  | .group name => (t.groups.current fun r => r.tag = d && r.group = name).map GroupRow.blocked
  | .member group package =>
    (t.members.current fun r => r.tag = d && r.group = group && r.package = package).map
      MemberRow.blocked

/-- The record of a package that a tag holds itself. -/
def packageRow? (t : Tables) (d : TagId) (name : String) : Option PackageRow :=
  t.packages.current fun r => r.tag = d && r.package = name

lemma own_package (t : Tables) (d : TagId) (name : String) :
    t.own d (.package name) = (t.packageRow? d name).map PackageRow.blocked := rfl

/-! ### After a write -/

lemma packageRow?_setPackage (t : Tables) (event : EventId) (r : PackageRow) (name : String) :
    (t.setPackage event r).packageRow? r.tag name =
      if name = r.package then some r else t.packageRow? r.tag name := by
  simp only [packageRow?, setPackage]
  split
  · rename_i h
    rw [h, History.current_replace_self (by simp)]
  · rename_i h
    rw [History.current_congr (History.rowsOf_replace ?_ (by simp [Ne.symm h]))]
    intro x hx
    simp only [Bool.and_eq_true, decide_eq_true_eq] at hx
    simp [hx, h]

lemma own_setPackage (t : Tables) (event : EventId) (r : PackageRow) (s : Slot) :
    (t.setPackage event r).own r.tag s =
      if s = .package r.package then some r.blocked else t.own r.tag s := by
  cases s with
  | package name =>
    simp only [own_package, packageRow?_setPackage, Slot.package.injEq]
    split <;> rfl
  | _ => rw [if_neg nofun]; rfl

lemma own_setGroup (t : Tables) (event : EventId) (r : GroupRow) (s : Slot) :
    (t.setGroup event r).own r.tag s =
      if s = .group r.group then some r.blocked else t.own r.tag s := by
  cases s with
  | group name =>
    simp only [own, setGroup, Slot.group.injEq]
    split
    · rename_i h
      rw [h, History.current_replace_self (by simp), Option.map_some]
    · rename_i h
      rw [History.current_congr (History.rowsOf_replace ?_ (by simp [Ne.symm h]))]
      intro x hx
      simp only [Bool.and_eq_true, decide_eq_true_eq] at hx
      simp [hx, h]
  | _ => rw [if_neg nofun]; rfl

lemma own_setMembers_replace (t : Tables) (event : EventId) (r : MemberRow) (s : Slot) :
    ({ t with
      members := t.members.replace event
        (fun x => x.tag = r.tag && x.group = r.group && x.package = r.package) r }).own r.tag s =
      if s = .member r.group r.package then some r.blocked else t.own r.tag s := by
  cases s with
  | member group package =>
    simp only [own, Slot.member.injEq]
    split
    · rename_i h
      rw [h.1, h.2, History.current_replace_self (by simp), Option.map_some]
    · rename_i h
      rw [History.current_congr (History.rowsOf_replace ?_ ?_)]
      · intro x hx
        simp only [Bool.and_eq_true, decide_eq_true_eq] at hx
        simpa [hx] using h
      · rw [Bool.eq_false_iff]
        intro hx
        simp only [Bool.and_eq_true, decide_eq_true_eq] at hx
        exact h ⟨hx.1.2.symm, hx.2.symm⟩
  | _ => rw [if_neg nofun]; rfl

lemma own_setMembers_revoke (t : Tables) (event : EventId) (d : TagId) (group package : String)
    (s : Slot) :
    ({ t with
      members := t.members.revoke event
        fun x => x.tag = d && x.group = group && x.package = package }).own d s =
      if s = .member group package then none else t.own d s := by
  cases s with
  | member g p =>
    simp only [own, Slot.member.injEq]
    split
    · rename_i h
      rw [h.1, h.2, History.current_revoke_eq_none fun _ hx => hx, Option.map_none]
    · rename_i h
      rw [History.current_congr (History.rowsOf_revoke ?_)]
      intro x hx
      simp only [Bool.and_eq_true, decide_eq_true_eq] at hx
      simpa [hx] using h
  | _ => rw [if_neg nofun]; rfl

/-- Taking a group away takes its members away, too. -/
lemma own_removeGroup (t : Tables) (event : EventId) (d : TagId) (group : String) (s : Slot) :
    ({ t with
      groups := t.groups.revoke event fun x => x.tag = d && x.group = group
      members := t.members.revoke event fun x => x.tag = d && x.group = group }).own d s =
      ((Operation.removeGroup group).write? s).getD (t.own d s) := by
  cases s with
  | group g =>
    simp only [own, Operation.write?]
    split
    · rename_i h
      rw [h, History.current_revoke_eq_none fun _ hx => hx]
      rfl
    · rename_i h
      rw [History.current_congr (History.rowsOf_revoke ?_), Option.getD_none]
      intro x hx
      simp only [Bool.and_eq_true, decide_eq_true_eq] at hx
      simp [hx, h]
  | member g p =>
    simp only [own, Operation.write?]
    split
    · rename_i h
      rw [h, History.current_revoke_eq_none fun x hx => by simp_all]
      rfl
    · rename_i h
      rw [History.current_congr (History.rowsOf_revoke ?_), Option.getD_none]
      intro x hx
      simp only [Bool.and_eq_true, decide_eq_true_eq] at hx
      simp [hx, h]
  | _ => rfl

/-! ### Builds -/

lemma isTagged_add (t : Tables) (event : EventId) (d : TagId) (b x : Int) :
    ({ t with taggings := t.taggings.add event ⟨d, b⟩ }).isTagged d x =
      (decide (b = x) || t.isTagged d x) := by
  simp [isTagged, History.hasActive, History.active_add, Bool.or_comm]

lemma isTagged_revoke (t : Tables) (event : EventId) (d : TagId) (b x : Int) :
    ({ t with
      taggings := t.taggings.revoke event fun r => r.tag = d && r.build = b }).isTagged d x =
      (!decide (b = x) && t.isTagged d x) := by
  rw [Bool.eq_iff_iff]
  simp only [isTagged, History.hasActive, History.active_revoke, List.any_filter, List.any_eq_true,
    Bool.and_eq_true, Bool.not_eq_true', decide_eq_true_eq, Bool.and_eq_false_iff,
    decide_eq_false_iff_not]
  constructor
  · rintro ⟨r, hr, hne, htag, rfl⟩
    exact ⟨fun e => hne.elim (absurd htag) (absurd e.symm), r, hr, htag, rfl⟩
  · rintro ⟨hne, r, hr, htag, rfl⟩
    exact ⟨r, hr, .inr (Ne.symm hne), htag, rfl⟩

/-- On sound tables two names never mean the same build. -/
lemma Sound.id_ne (ht : t.Sound) {n n' : Nvr} {b b' : BuildRow} (h : t.buildNamed? n = some b)
    (h' : t.buildNamed? n' = some b') (hne : n ≠ n') : b.id ≠ b'.id := by
  have hn : b.nvr = n := by simpa using List.find?_some h
  have hn' : b'.nvr = n' := by simpa using List.find?_some h'
  intro hid
  have hb := ht.build?_self (List.mem_of_find?_eq_some h)
  rw [hid, ht.build?_self (List.mem_of_find?_eq_some h')] at hb
  exact hne (by rw [← hn, ← hn', Option.some.inj hb])

lemma own_add_tagging (ht : t.Sound) {n : Nvr} {b : BuildRow} (hb : t.buildNamed? n = some b)
    (event : EventId) (d : TagId) (s : Slot) :
    ({ t with taggings := t.taggings.add event ⟨d, b.id⟩ }).own d s =
      if s = .build n then some false else t.own d s := by
  cases s with
  | build n' =>
    simp only [own, Slot.build.injEq]
    have hholds : ({ t with taggings := t.taggings.add event ⟨d, b.id⟩ }).holdsBuild d n' =
        (decide (n' = n) || t.holdsBuild d n') := by
      have hsame : ({ t with taggings := t.taggings.add event ⟨d, b.id⟩ }).buildNamed? n' =
        t.buildNamed? n' := rfl
      unfold holdsBuild
      rw [hsame]
      by_cases hn : n' = n
      · subst hn
        simp [hb, isTagged_add]
      · rcases hb' : t.buildNamed? n' with _ | b'
        · simp [hn]
        · have := ht.id_ne hb hb' (Ne.symm hn)
          simp [hn, isTagged_add, this]
    rw [hholds]
    by_cases hn : n' = n <;> simp [hn]
  | _ => rw [if_neg nofun]; rfl

lemma own_revoke_tagging (ht : t.Sound) {n : Nvr} {b : BuildRow} (hb : t.buildNamed? n = some b)
    (event : EventId) (d : TagId) (s : Slot) :
    ({ t with
      taggings := t.taggings.revoke event fun r => r.tag = d && r.build = b.id }).own d s =
      if s = .build n then none else t.own d s := by
  cases s with
  | build n' =>
    simp only [own, Slot.build.injEq]
    let revoked : Tables :=
      { t with taggings := t.taggings.revoke event fun r => r.tag = d && r.build = b.id }
    have hholds : revoked.holdsBuild d n' = (!decide (n' = n) && t.holdsBuild d n') := by
      have hsame : revoked.buildNamed? n' = t.buildNamed? n' := rfl
      unfold holdsBuild
      rw [hsame]
      by_cases hn : n' = n
      · subst hn
        simp [revoked, hb, isTagged_revoke]
      · rcases hb' : t.buildNamed? n' with _ | b'
        · simp
        · have := ht.id_ne hb hb' (Ne.symm hn)
          simp [revoked, hn, isTagged_revoke, this]
    rw [hholds]
    by_cases hn : n' = n <;> simp [hn]
  | _ => rw [if_neg nofun]; rfl

@[simp] lemma own_notifyIf (t : Tables) (flags : CallFlags) (n : Notice) :
    (t.notifyIf flags n).own = t.own := by
  unfold notifyIf
  split <;> rfl

lemma tags_notifyIf (t : Tables) (flags : CallFlags) (n : Notice) :
    (t.notifyIf flags n).tags = t.tags := by
  unfold notifyIf
  split <;> rfl

lemma builds_notifyIf (t : Tables) (flags : CallFlags) (n : Notice) :
    (t.notifyIf flags n).builds = t.builds := by
  unfold notifyIf
  split <;> rfl

lemma taggings_notifyIf (t : Tables) (flags : CallFlags) (n : Notice) :
    (t.notifyIf flags n).taggings = t.taggings := by
  unfold notifyIf
  split <;> rfl

lemma packageRow?_notifyIf (t : Tables) (flags : CallFlags) (n : Notice) :
    (t.notifyIf flags n).packageRow? = t.packageRow? := by
  unfold notifyIf
  split <;> rfl

@[simp] lemma own_newEvent (t : Tables) (c : Clock) : (t.newEvent c).1.own = t.own := rfl

@[simp] lemma own_setConfig (t : Tables) (id : TagId) (config : TagConfig) :
    (t.setConfig id config).own = t.own := rfl

end Tables

end TagSync
