import TagSync.Proofs.Due

/-!
Calls carried out on a snapshot.

A reference for what a hub makes of calls, told by the snapshots of their destination alone, and
what can be seen in every place afterwards.
-/

namespace TagSync

namespace Snapshot

/-- The snapshot of a destination after a call, as the hub is expected to carry it out. There is
none if the call is about something that is not there, or removes what belongs to another tag. -/
def perform? (dest src : Snapshot) : Operation → Option Snapshot
  | .addPackage package owner blocked extraArches =>
    let e : PackageEntry :=
      { name := package, owner, blocked, extraArches
        sourceTagId := dest.tag.id, sourceTagName := dest.tag.name }
    some { dest with packages := dest.packages.insert package (e.stamp dest.tag.id) }
  | .blockPackage package => do
    let e ← dest.packages.find? package
    let e := { e with blocked := true, sourceTagId := dest.tag.id }
    return { dest with packages := dest.packages.insert package (e.stamp dest.tag.id) }
  | .tagBuild nvr => do
    let b ← src.builds.find? nvr
    let b := { b with sourceTagId := dest.tag.id, sourceTagName := dest.tag.name }
    return { dest with builds := dest.builds.insert nvr (b.stamp dest.tag.id) }
  | .untagBuild nvr => do
    let b ← dest.builds.find? nvr
    guard b.ownership.isDirect
    return { dest with builds := dest.builds.erase nvr }
  | .addGroup group =>
    let g : GroupEntry := { name := group, sourceTagId := dest.tag.id }
    some { dest with groups := dest.groups.insert group (g.stamp dest.tag.id) }
  | .removeGroup group => do
    let g ← dest.groups.find? group
    guard g.ownership.isDirect
    return { dest with groups := dest.groups.erase group }
  | .blockGroup group => do
    guard (dest.groups.contains group)
    let g : GroupEntry := { name := group, blocked := true, sourceTagId := dest.tag.id }
    return { dest with groups := dest.groups.insert group (g.stamp dest.tag.id) }
  | .addGroupPackage group package => do
    let g ← Diff.activeGroup? dest group
    let m : GroupMember := { sourceTagId := dest.tag.id }
    let g := { g with members := g.members.insert package (m.stamp dest.tag.id) }
    return { dest with groups := dest.groups.insert group g }
  | .removeGroupPackage group package => do
    let g ← dest.groups.find? group
    let m ← g.members.find? package
    guard m.ownership.isDirect
    let g := { g with members := g.members.erase package }
    return { dest with groups := dest.groups.insert group g }
  | .blockGroupPackage group package => do
    let g ← dest.groups.find? group
    guard (g.members.contains package)
    let m : GroupMember := { blocked := true, sourceTagId := dest.tag.id }
    let g := { g with members := g.members.insert package (m.stamp dest.tag.id) }
    return { dest with groups := dest.groups.insert group g }

/-- The snapshot of a destination after some calls, one after the other. -/
def performEach? (dest src : Snapshot) (operations : List Operation) : Option Snapshot :=
  operations.foldlM (fun s op => s.perform? src op) dest

end Snapshot

/-! ### What can be seen afterwards -/

/-- What a call leaves in its place. -/
def Operation.leaves : Operation → Option Sight
  | .addPackage _ _ blocked _ => some ⟨blocked, .direct⟩
  | .blockPackage _ => some ⟨true, .direct⟩
  | .tagBuild _ | .addGroup _ | .addGroupPackage .. => some ⟨false, .direct⟩
  | .untagBuild _ | .removeGroup _ | .blockGroup _ | .removeGroupPackage ..
  | .blockGroupPackage .. => none

/-- A group encloses its members. -/
def Place.encloses : Place → Place → Bool
  | .group g, .member g' _ => g = g'
  | _, _ => false

namespace Snapshot

variable {src dest after : Snapshot} {op : Operation}

lemma sight?_of_packages {packages : Keyed PackageEntry} {name : String} {e? : Option PackageEntry}
    (h : ∀ k, packages.find? k = if name = k then e? else dest.packages.find? k) (p : Place) :
    sight? { dest with packages } p = if p = .package name then
      e?.map fun e => ⟨e.blocked, e.ownership⟩ else dest.sight? p := by
  rcases p with k | nvr | group | ⟨group, package⟩
  · simp only [sight?, h, Place.package.injEq, eq_comm (a := k)]
    split <;> rfl
  · rfl
  · rfl
  · rfl

lemma sight?_of_builds {builds : Keyed BuildEntry} {nvr : String} {b? : Option BuildEntry}
    (h : ∀ k, builds.find? k = if nvr = k then b? else dest.builds.find? k) (p : Place) :
    sight? { dest with builds } p = if p = .build nvr then
      b?.map fun b => ⟨false, b.ownership⟩ else dest.sight? p := by
  rcases p with name | k | group | ⟨group, package⟩
  · rfl
  · simp only [sight?, h, Place.build.injEq, eq_comm (a := k)]
    split <;> rfl
  · rfl
  · rfl

lemma sight?_of_groups {groups : Keyed GroupEntry} {name : String} {g? : Option GroupEntry}
    (h : ∀ k, groups.find? k = if name = k then g? else dest.groups.find? k)
    (hempty : ∀ g ∈ g?, g.members = .empty) (p : Place) :
    sight? { dest with groups } p = if p = .group name then
      (g?.filter fun g => !g.blocked).map fun g => ⟨false, g.ownership⟩
      else if Place.encloses (.group name) p then none else dest.sight? p := by
  rcases p with k | k | k | ⟨k, package⟩
  · rfl
  · rfl
  · simp only [sight?, Diff.activeGroup?, h, Place.group.injEq, eq_comm (a := k)]
    split <;> rfl
  · simp only [sight?, Diff.activeGroup?, h, Place.encloses, decide_eq_true_eq]
    split
    · rcases g? with _ | g
      · rfl
      · simp [Option.filter_some, GroupEntry.sight?, hempty g rfl]
    · rfl

lemma sight?_of_members {group package : String} {g : GroupEntry} {members : Keyed GroupMember}
    {m? : Option GroupMember} (hg : dest.groups.find? group = some g)
    (h : ∀ k, members.find? k = if package = k then m? else g.members.find? k) (p : Place) :
    sight? { dest with groups := dest.groups.insert group { g with members } } p =
      if p = .member group package then (Diff.activeGroup? dest group).bind fun _ =>
        (m?.filter fun m => !m.blocked).map fun m => ⟨false, m.ownership⟩
      else dest.sight? p := by
  have hbefore : Diff.activeGroup? dest group = if g.blocked then none else some g := by
    rw [Diff.activeGroup?, hg]
    rcases hb : g.blocked <;> simp [Option.filter_some, hb]
  have hafter : ∀ k, Diff.activeGroup?
      { dest with groups := dest.groups.insert group { g with members } } k = if group = k then
        if g.blocked then none else some { g with members } else Diff.activeGroup? dest k := by
    intro k
    rw [Diff.activeGroup?, Keyed.find?_insert]
    split
    · rcases g.blocked <;> simp [Option.filter_some]
    · rfl
  rcases p with k | k | k | ⟨k, l⟩
  · rfl
  · rfl
  · by_cases hk : group = k
    · subst hk
      simp only [sight?, hafter, hbefore, if_true]
      split <;> rfl
    · simp [sight?, hafter, hk]
  · by_cases hk : group = k
    · subst hk
      simp only [sight?, hafter, hbefore, if_true]
      rcases hb : g.blocked
      · by_cases hl : package = l <;> simp [GroupEntry.sight?, h, hl, eq_comm (a := l)]
      · simp
    · simp [sight?, hafter, hk, Ne.symm hk]

lemma exists_of_sight?_group {name : String} {s : Sight} (h : dest.sight? (.group name) = some s) :
    ∃ g, dest.groups.find? name = some g ∧ g.ownership = s.ownership := by
  obtain ⟨g, hg, rfl⟩ := Option.map_eq_some_iff.mp h
  exact ⟨g, (Option.filter_eq_some_iff.mp hg).1, rfl⟩

lemma exists_of_sight?_member {group package : String} {s : Sight}
    (h : dest.sight? (.member group package) = some s) :
    ∃ g m, dest.groups.find? group = some g ∧ g.members.find? package = some m ∧
      m.ownership = s.ownership := by
  obtain ⟨g, hg, h⟩ := Option.bind_eq_some_iff.mp h
  obtain ⟨m, hm, rfl⟩ := Option.map_eq_some_iff.mp h
  exact ⟨g, m, (Option.filter_eq_some_iff.mp hg).1, (Option.filter_eq_some_iff.mp hm).1, rfl⟩

/-- A call changes what is seen in its place, and takes what it encloses out of sight. -/
lemma sight?_perform? (h : dest.perform? src op = some after) (p : Place) :
    after.sight? p = if p = op.place then op.leaves
      else if op.place.encloses p then none else dest.sight? p := by
  have hid : Ownership.classify dest.tag.id dest.tag.id = .direct := if_pos rfl
  cases op with
  | addPackage package owner blocked arches =>
    obtain rfl := Option.some.inj h
    rw [sight?_of_packages (fun k => Keyed.find?_insert ..)]
    simp [PackageEntry.stamp, hid, Operation.place, Operation.leaves, Place.encloses]
  | blockPackage package =>
    obtain ⟨e, -, h⟩ := Option.bind_eq_some_iff.mp h
    obtain rfl := Option.some.inj h
    rw [sight?_of_packages (fun k => Keyed.find?_insert ..)]
    simp [PackageEntry.stamp, hid, Operation.place, Operation.leaves, Place.encloses]
  | tagBuild nvr =>
    obtain ⟨b, -, h⟩ := Option.bind_eq_some_iff.mp h
    obtain rfl := Option.some.inj h
    rw [sight?_of_builds (fun k => Keyed.find?_insert ..)]
    simp [BuildEntry.stamp, hid, Operation.place, Operation.leaves, Place.encloses]
  | untagBuild nvr =>
    obtain ⟨b, -, h⟩ := Option.bind_eq_some_iff.mp h
    obtain ⟨-, -, h⟩ := Option.bind_eq_some_iff.mp h
    obtain rfl := Option.some.inj h
    rw [sight?_of_builds (fun k => Keyed.find?_erase ..)]
    simp [Operation.place, Operation.leaves, Place.encloses]
  | addGroup group =>
    obtain rfl := Option.some.inj h
    rw [sight?_of_groups (fun k => Keyed.find?_insert ..) (by rintro g ⟨⟩; rfl)]
    simp only [GroupEntry.stamp, hid]
    rfl
  | removeGroup group =>
    obtain ⟨g, -, h⟩ := Option.bind_eq_some_iff.mp h
    obtain ⟨-, -, h⟩ := Option.bind_eq_some_iff.mp h
    obtain rfl := Option.some.inj h
    rw [sight?_of_groups (fun k => Keyed.find?_erase ..) (by simp)]
    rfl
  | blockGroup group =>
    obtain ⟨-, -, h⟩ := Option.bind_eq_some_iff.mp h
    obtain rfl := Option.some.inj h
    rw [sight?_of_groups (fun k => Keyed.find?_insert ..) (by rintro g ⟨⟩; rfl)]
    rfl
  | addGroupPackage group package =>
    obtain ⟨g, hg, h⟩ := Option.bind_eq_some_iff.mp h
    obtain rfl := Option.some.inj h
    rw [sight?_of_members (Option.filter_eq_some_iff.mp hg).1 (fun k => Keyed.find?_insert ..)]
    simp [hg, Option.filter_some, GroupMember.stamp, hid, Operation.place, Operation.leaves,
      Place.encloses]
  | removeGroupPackage group package =>
    obtain ⟨g, hg, h⟩ := Option.bind_eq_some_iff.mp h
    obtain ⟨m, -, h⟩ := Option.bind_eq_some_iff.mp h
    obtain ⟨-, -, h⟩ := Option.bind_eq_some_iff.mp h
    obtain rfl := Option.some.inj h
    rw [sight?_of_members hg (fun k => Keyed.find?_erase ..)]
    simp [Operation.place, Operation.leaves, Place.encloses]
  | blockGroupPackage group package =>
    obtain ⟨g, hg, h⟩ := Option.bind_eq_some_iff.mp h
    obtain ⟨-, -, h⟩ := Option.bind_eq_some_iff.mp h
    obtain rfl := Option.some.inj h
    rw [sight?_of_members hg (fun k => Keyed.find?_insert ..)]
    simp [Option.filter_some, GroupMember.stamp, Operation.place, Operation.leaves, Place.encloses]

lemma Named.perform? (hsrc : src.Named) (hdest : dest.Named)
    (h : dest.perform? src op = some after) : after.Named := by
  cases op with
  | addPackage package owner blocked arches =>
    obtain rfl := Option.some.inj h
    exact ⟨hdest.packages.insert rfl, hdest.builds, hdest.groups⟩
  | blockPackage package =>
    obtain ⟨e, he, h⟩ := Option.bind_eq_some_iff.mp h
    obtain rfl := Option.some.inj h
    exact ⟨hdest.packages.insert (hdest.packages package e he), hdest.builds, hdest.groups⟩
  | tagBuild nvr =>
    obtain ⟨b, hb, h⟩ := Option.bind_eq_some_iff.mp h
    obtain rfl := Option.some.inj h
    exact ⟨hdest.packages, hdest.builds.insert (hsrc.builds nvr b hb), hdest.groups⟩
  | untagBuild nvr =>
    obtain ⟨b, -, h⟩ := Option.bind_eq_some_iff.mp h
    obtain ⟨-, -, h⟩ := Option.bind_eq_some_iff.mp h
    obtain rfl := Option.some.inj h
    exact ⟨hdest.packages, hdest.builds.erase nvr, hdest.groups⟩
  | addGroup group =>
    obtain rfl := Option.some.inj h
    exact ⟨hdest.packages, hdest.builds, hdest.groups.insert rfl⟩
  | removeGroup group =>
    obtain ⟨g, -, h⟩ := Option.bind_eq_some_iff.mp h
    obtain ⟨-, -, h⟩ := Option.bind_eq_some_iff.mp h
    obtain rfl := Option.some.inj h
    exact ⟨hdest.packages, hdest.builds, hdest.groups.erase group⟩
  | blockGroup group =>
    obtain ⟨-, -, h⟩ := Option.bind_eq_some_iff.mp h
    obtain rfl := Option.some.inj h
    exact ⟨hdest.packages, hdest.builds, hdest.groups.insert rfl⟩
  | addGroupPackage group package =>
    obtain ⟨g, hg, h⟩ := Option.bind_eq_some_iff.mp h
    obtain rfl := Option.some.inj h
    have hname := Diff.activeGroup?_name hdest.groups hg
    exact ⟨hdest.packages, hdest.builds, hdest.groups.insert hname⟩
  | removeGroupPackage group package =>
    obtain ⟨g, hg, h⟩ := Option.bind_eq_some_iff.mp h
    obtain ⟨m, -, h⟩ := Option.bind_eq_some_iff.mp h
    obtain ⟨-, -, h⟩ := Option.bind_eq_some_iff.mp h
    obtain rfl := Option.some.inj h
    exact ⟨hdest.packages, hdest.builds, hdest.groups.insert (hdest.groups group g hg)⟩
  | blockGroupPackage group package =>
    obtain ⟨g, hg, h⟩ := Option.bind_eq_some_iff.mp h
    obtain ⟨-, -, h⟩ := Option.bind_eq_some_iff.mp h
    obtain rfl := Option.some.inj h
    exact ⟨hdest.packages, hdest.builds, hdest.groups.insert (hdest.groups group g hg)⟩

end Snapshot

end TagSync
