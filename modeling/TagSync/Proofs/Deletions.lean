import TagSync.Proofs.Retries

/-!
What deletion adds to a plan.

A comparison asks in four places whether it may delete, and each time the answer decides about
calls of one kind. So a plan that does not delete is the plan that does with these calls left
out, and what it suppresses nevertheless are groups and members that the destination inherits.
-/

namespace TagSync

/-- A call of one of the kinds that are planned only where deletion is asked for. -/
def Operation.isDeletion : Operation → Bool
  | .blockPackage _ | .untagBuild _ | .removeGroup _ | .removeGroupPackage .. => true
  | .addPackage .. | .addGroup _ | .blockGroup _ | .addGroupPackage .. | .blockGroupPackage ..
  | .tagBuild _ => false

/-- Calls without the deletions among them. -/
def Operation.spare (calls : List Operation) : List Operation :=
  calls.filter fun op => !op.isDeletion

/-- A plan without its deletions: all other calls stay, in their order, and the settings. -/
def Plan.spare (p : Plan) : Plan :=
  { p with
    packages := Operation.spare p.packages
    builds := Operation.spare p.builds
    groups := Operation.spare p.groups }

namespace Operation

lemma spare_append (l l' : List Operation) : spare (l ++ l') = spare l ++ spare l' :=
  List.filter_append ..

lemma spare_flatMap {α : Type} (l : List α) (f : α → List Operation) :
    spare (l.flatMap f) = l.flatMap fun a => spare (f a) :=
  List.filter_flatMap

/-- Calls of a kind that is no deletion all stay. -/
lemma spare_map {α : Type} {f : α → Operation} (hf : ∀ a, (f a).isDeletion = false)
    (l : List α) : spare (l.map f) = l.map f := by
  refine List.filter_eq_self.mpr fun op hop => ?_
  obtain ⟨a, -, rfl⟩ := List.mem_map.mp hop
  rw [hf a, Bool.not_false]

/-- Calls of a kind that is a deletion all go. -/
lemma spare_map_deletions {α : Type} {f : α → Operation} (hf : ∀ a, (f a).isDeletion = true)
    (l : List α) : spare (l.map f) = [] := by
  refine List.filter_eq_nil_iff.mpr fun op hop => ?_
  obtain ⟨a, -, rfl⟩ := List.mem_map.mp hop
  rw [hf a, Bool.not_true]
  exact Bool.false_ne_true

end Operation

namespace Diff

variable (src dest : Snapshot) (latestOnly : Bool)

/-- Comparisons that may delete. -/
def deleting (latestOnly : Bool) : DiffOptions := { delete := true, latestOnly }

/-- Comparisons that may not. -/
def sparing (latestOnly : Bool) : DiffOptions := { delete := false, latestOnly }

/-! ### Packages and builds -/

lemma packages_sparing :
    packages src dest (sparing latestOnly) =
      Operation.spare (packages src dest (deleting latestOnly)) := by
  have hblocks : Operation.spare (packageBlocks src dest) = [] :=
    Operation.spare_map_deletions (fun _ => rfl) _
  have hadditions : Operation.spare (packageAdditions src dest) = packageAdditions src dest :=
    Operation.spare_map (fun _ => rfl) _
  simp only [packages, sparing, deleting, Bool.false_eq_true, if_false, if_true,
    Operation.spare_append, hblocks, hadditions]

lemma builds_sparing :
    builds src dest (sparing latestOnly) =
      Operation.spare (builds src dest (deleting latestOnly)) := by
  have huntag : ∀ l : List BuildEntry, Operation.spare (l.map (.untagBuild ·.nvr)) = [] :=
    Operation.spare_map_deletions fun _ => rfl
  have htag : ∀ l : List BuildEntry,
      Operation.spare (l.map (.tagBuild ·.nvr)) = l.map (.tagBuild ·.nvr) :=
    Operation.spare_map fun _ => rfl
  simp only [builds, Operation.spare_append, huntag, htag]
  rfl

/-! ### Groups -/

lemma suppressGroup_sparing (g : GroupEntry) :
    suppressGroup (sparing latestOnly) g =
      Operation.spare (suppressGroup (deleting latestOnly) g) := by
  unfold suppressGroup
  cases g.ownership <;> rfl

lemma suppressMember_sparing (group : String) (p : String × GroupMember) :
    suppressMember (sparing latestOnly) group p =
      Operation.spare (suppressMember (deleting latestOnly) group p) := by
  unfold suppressMember
  cases p.2.ownership <;> rfl

lemma groupSuppressions_sparing :
    groupSuppressions src dest (sparing latestOnly) =
      Operation.spare (groupSuppressions src dest (deleting latestOnly)) := by
  rw [groupSuppressions, groupSuppressions, Operation.spare_flatMap]
  exact List.flatMap_congr fun g _ => suppressGroup_sparing latestOnly g

lemma members_sparing (s d : GroupEntry) :
    members s d (sparing latestOnly) = Operation.spare (members s d (deleting latestOnly)) := by
  rw [members, members, Operation.spare_append, Operation.spare_flatMap,
    Operation.spare_map fun _ => rfl]
  exact congrArg (· ++ _) (List.flatMap_congr fun p _ => suppressMember_sparing latestOnly d.name p)

lemma sharedGroups_sparing :
    sharedGroups src dest (sparing latestOnly) =
      Operation.spare (sharedGroups src dest (deleting latestOnly)) := by
  rw [sharedGroups, sharedGroups, Operation.spare_flatMap]
  refine List.flatMap_congr fun g _ => ?_
  rcases activeGroup? dest g.name with _ | existing
  · rfl
  · exact members_sparing latestOnly g existing

/-- New groups come whole. -/
lemma spare_createdGroups : Operation.spare (createdGroups src dest) = createdGroups src dest := by
  rw [createdGroups, Operation.spare_flatMap]
  refine List.flatMap_congr fun g _ => ?_
  exact List.filter_cons_of_pos rfl |>.trans
    (congrArg _ (Operation.spare_map (fun _ => rfl) g.activeMembers))

lemma groups_sparing :
    groups src dest (sparing latestOnly) =
      Operation.spare (groups src dest (deleting latestOnly)) := by
  rw [groups, groups, Operation.spare_append, Operation.spare_append, spare_createdGroups,
    groupSuppressions_sparing, sharedGroups_sparing]

/-- The choice to delete decides about deletions and about nothing else. -/
lemma plan_sparing (selection : ClassSelection) :
    plan src dest selection (sparing latestOnly) =
      (plan src dest selection (deleting latestOnly)).spare := by
  simp only [plan, Plan.spare, packages_sparing, builds_sparing, groups_sparing, Plan.mk.injEq,
    and_true]
  refine ⟨?_, ?_, ?_⟩ <;> split <;> rfl

end Diff

/-! ### What is suppressed all the same -/

namespace Snapshot

/-- A group that counts, and is stored on another tag. -/
def InheritsGroup (s : Snapshot) (group : String) : Prop :=
  ∃ g, s.groups.find? group = some g ∧ g.blocked = false ∧ g.ownership = .inherited ∧
    g.sourceTagId ≠ s.tag.id

/-- A member that counts in a group that counts, and is stored on another tag, wherever the
group is stored. -/
def InheritsMember (s : Snapshot) (group package : String) : Prop :=
  ∃ g m, s.groups.find? group = some g ∧ g.blocked = false ∧
    g.members.find? package = some m ∧ m.blocked = false ∧ m.ownership = .inherited ∧
    m.sourceTagId ≠ s.tag.id

lemma stamp_stamp (d : TagId) (g : GroupEntry) : (g.stamp d).stamp d = g.stamp d := by
  have hmembers : ((g.members.map (GroupMember.stamp d)).map (GroupMember.stamp d)) =
      g.members.map (GroupMember.stamp d) := by
    refine Keyed.ext_find? fun key => ?_
    rw [Keyed.find?_map, Keyed.find?_map, Option.map_map]
    rfl
  simp only [GroupEntry.stamp, hmembers]

/-- A snapshot classifies all its groups and members by the tags they are stored on. -/
lemma Built.stamp_eq {s : Snapshot} (h : s.Built) {name : String} {g : GroupEntry}
    (hg : s.groups.find? name = some g) : g.stamp s.tag.id = g := by
  induction h generalizing g with
  | ofTag tag => cases hg
  | atEvent event _ ih => exact ih hg
  | withPackages l _ ih => exact ih hg
  | withBuilds l _ ih => exact ih hg
  | @withGroups s l _ ih =>
    have hfind := (Keyed.find?_foldl_insertNew GroupEntry.name (GroupEntry.stamp s.tag.id) l
      s.groups name).symm.trans hg
    rcases hs : s.groups.find? name with _ | g'
    · rw [hs, Option.none_or] at hfind
      obtain ⟨e, -, rfl⟩ := Option.map_eq_some_iff.mp hfind
      exact stamp_stamp s.tag.id e
    · rw [hs, Option.some_or] at hfind
      cases hfind
      exact ih hs

/-- What is not direct for a tag is stored on another one. -/
lemma inherited_of_not_direct {o : Ownership} {source d : TagId}
    (classified : Ownership.classify source d = o) (h : o.isDirect = false) :
    o = .inherited ∧ source ≠ d := by
  subst classified
  unfold Ownership.classify at h ⊢
  split at h
  · cases h
  · rename_i hne
    exact ⟨if_neg hne, hne⟩

variable {s : Snapshot} {group package : String} {g : GroupEntry} {m : GroupMember}

lemma Built.inheritsGroup (h : s.Built) (hg : Diff.activeGroup? s group = some g)
    (hother : g.ownership.isDirect = false) : s.InheritsGroup group := by
  obtain ⟨hfind, hactive⟩ := Option.filter_eq_some_iff.mp hg
  have hstamp := congrArg GroupEntry.ownership (h.stamp_eq hfind)
  exact ⟨g, hfind, by simpa using hactive, inherited_of_not_direct hstamp hother⟩

lemma Built.inheritsMember (h : s.Built) (hg : Diff.activeGroup? s group = some g)
    (hm : g.members.find? package = some m) (hblocked : m.blocked = false)
    (hother : m.ownership.isDirect = false) : s.InheritsMember group package := by
  obtain ⟨hfind, hactive⟩ := Option.filter_eq_some_iff.mp hg
  have hstamp : g.members.map (GroupMember.stamp s.tag.id) = g.members :=
    congrArg GroupEntry.members (h.stamp_eq hfind)
  have hmember : GroupMember.stamp s.tag.id m = m := by
    rw [← hstamp, Keyed.find?_map] at hm
    obtain ⟨m', -, rfl⟩ := Option.map_eq_some_iff.mp hm
    rfl
  exact ⟨g, m, hfind, by simpa using hactive, hm, hblocked,
    inherited_of_not_direct (congrArg GroupMember.ownership hmember) hother⟩

end Snapshot

namespace Diff

variable {src dest : Snapshot} {selection : ClassSelection} {latestOnly : Bool} {op : Operation}

/-- A plan that may not delete suppresses only what the destination inherits. -/
lemma inherits_of_mem_sparing (hsrc : src.Built) (hdest : dest.Built)
    (h : op ∈ (plan src dest selection (sparing latestOnly)).operations) :
    op.action = .add ∨ (∃ group, op = .blockGroup group ∧ dest.InheritsGroup group) ∨
      ∃ group package, op = .blockGroupPackage group package ∧
        dest.InheritsMember group package := by
  simp only [plan, Plan.operations, List.mem_append, List.mem_ite_nil_right] at h
  rcases h with (⟨-, h⟩ | ⟨-, h⟩) | ⟨-, h⟩
  · rcases (mem_packages hsrc.named.packages hdest.named.packages).mp h with
      ⟨_, -, hdelete, -⟩ | ⟨_, _, rfl, -⟩
    · cases hdelete
    · exact .inl rfl
  · rcases mem_builds.mp h with ⟨_, -, -, hdelete, -⟩ | ⟨_, -, rfl, -⟩
    · cases hdelete
    · exact .inl rfl
  · rcases (mem_groups hsrc.named.groups hdest.named.groups).mp h with
      ⟨group, g, -, hg, h⟩ | ⟨group, s, g, -, hg, h⟩ | ⟨_, _, -, -, h⟩
    · rcases mem_suppressGroup.mp h with ⟨rfl, hother⟩ | ⟨-, -, hdelete⟩
      · rw [activeGroup?_name hdest.named.groups hg]
        exact .inr (.inl ⟨group, rfl, hdest.inheritsGroup hg hother⟩)
      · cases hdelete
    · rcases mem_members.mp h with ⟨package, m, hm, hblocked, -, h⟩ | ⟨_, -, -, rfl⟩
      · rcases mem_suppressMember.mp h with ⟨rfl, hother⟩ | ⟨-, -, hdelete⟩
        · rw [activeGroup?_name hdest.named.groups hg]
          exact .inr (.inr ⟨group, package, rfl, hdest.inheritsMember hg hm hblocked hother⟩)
        · cases hdelete
      · exact .inl rfl
    · rcases mem_createGroup.mp h with rfl | ⟨_, -, rfl⟩ <;> exact .inl rfl

/-- **Without deletion a plan is the same but for the deletions**: every class has the calls of
the plan that deletes, in their order, without package blocks, untaggings and removals of groups
and members, and the settings do not depend on it. So nothing is removed, and blocks fall only
on groups and members that the destination inherits. -/
theorem plan_without_deletion (hsrc : src.Built) (hdest : dest.Built) (selection : ClassSelection)
    (latestOnly : Bool) :
    plan src dest selection { delete := false, latestOnly } =
        (plan src dest selection { delete := true, latestOnly }).spare ∧
      ∀ op ∈ (plan src dest selection { delete := false, latestOnly }).operations,
        op.action ≠ .remove ∧
          (op.action = .block →
            (∃ group, op = .blockGroup group ∧ dest.InheritsGroup group) ∨
              ∃ group package, op = .blockGroupPackage group package ∧
                dest.InheritsMember group package) := by
  refine ⟨plan_sparing src dest latestOnly selection, fun op hop => ?_⟩
  rcases inherits_of_mem_sparing hsrc hdest hop with hadd | hblock
  · rw [hadd]
    exact ⟨by decide, nofun⟩
  · refine ⟨?_, fun _ => hblock⟩
    rcases hblock with ⟨_, rfl, -⟩ | ⟨_, _, rfl, -⟩ <;> exact nofun

/-- The destination has something of each kind to delete, and blocks a group and a member
without. -/
theorem plan_without_deletion_mixed :
    mixedSource.Built ∧ mixedDest.Built ∧
      (plan mixedSource mixedDest .all { delete := false, latestOnly := true }).operations =
        [.addPackage "a" "u" false none, .tagBuild "a-2-1", .blockGroup "above",
          .blockGroupPackage "shared" "above", .addGroupPackage "shared" "a", .addGroup "new",
          .addGroupPackage "new" "a"] ∧
      plan mixedSource mixedDest .all { delete := false, latestOnly := true } =
        (plan mixedSource mixedDest .all { delete := true, latestOnly := true }).spare ∧
      mixedDest.InheritsMember "shared" "above" := by
  have hsrc : mixedSource.Built := .withGroups _ (.withBuilds _ (.withPackages _ (.ofTag _)))
  have hdest : mixedDest.Built := .withGroups _ (.withBuilds _ (.withPackages _ (.ofTag _)))
  obtain ⟨hspare, hkinds⟩ := plan_without_deletion hsrc hdest .all true
  refine ⟨hsrc, hdest, by decide +kernel, hspare, ?_⟩
  have hmem : Operation.blockGroupPackage "shared" "above" ∈
      (plan mixedSource mixedDest .all { delete := false, latestOnly := true }).operations := by
    decide +kernel
  rcases (hkinds _ hmem).2 rfl with ⟨_, he, -⟩ | ⟨_, _, he, hinherits⟩
  · cases he
  · cases he
    exact hinherits

end Diff

end TagSync
