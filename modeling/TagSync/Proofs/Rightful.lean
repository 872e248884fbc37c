import TagSync.Proofs.Order
import TagSync.Proofs.Snapshots

/-!
What plans take away, and what they block.

A snapshot classifies every entry as it comes in, by the tag that the entry is stored on and
whatever the entry says of itself; of the entries of one name the first one stays. So a plan
takes away only what is stored on the destination itself, and blocks only groups and members that
are not.
-/

namespace TagSync

namespace Snapshot

/-- Some entries of one class, as they are handed to a snapshot. -/
inductive Portion where
  | packages (l : List PackageEntry)
  | builds (l : List BuildEntry)
  | groups (l : List GroupEntry)

namespace Portion

def buildEntries : Portion → List BuildEntry
  | .builds l => l
  | .packages _ | .groups _ => []

def groupEntries : Portion → List GroupEntry
  | .groups l => l
  | .packages _ | .builds _ => []

end Portion

/-- The snapshot with some more entries. -/
def take (s : Snapshot) : Portion → Snapshot
  | .packages l => s.withPackages l
  | .builds l => s.withBuilds l
  | .groups l => s.withGroups l

/-- The snapshot of a tag that takes portions in, one after the other. -/
def ofPortions (tag : TagInfo) (given : List Portion) : Snapshot := given.foldl take (.ofTag tag)

/-- The build that was given first under a name. -/
def firstBuild? (given : List Portion) (nvr : String) : Option BuildEntry :=
  (given.flatMap Portion.buildEntries).find? (·.nvr == nvr)

/-- The group that was given first under a name. -/
def firstGroup? (given : List Portion) (name : String) : Option GroupEntry :=
  (given.flatMap Portion.groupEntries).find? (·.name == name)

/-! ### What a snapshot keeps of what it is given -/

variable {s : Snapshot} {tag : TagInfo} {given : List Portion}

@[simp] lemma take_tag (s : Snapshot) (p : Portion) : (s.take p).tag = s.tag := by
  cases p <;> rfl

lemma find?_build_take (s : Snapshot) (p : Portion) (nvr : String) :
    (s.take p).builds.find? nvr =
      (s.builds.find? nvr).or ((p.buildEntries.find? (·.nvr == nvr)).map (.stamp s.tag.id)) := by
  cases p with
  | builds l => exact Keyed.find?_foldl_insertNew BuildEntry.nvr (.stamp s.tag.id) l s.builds nvr
  | packages l => exact Option.or_none.symm
  | groups l => exact Option.or_none.symm

lemma find?_group_take (s : Snapshot) (p : Portion) (name : String) :
    (s.take p).groups.find? name =
      (s.groups.find? name).or ((p.groupEntries.find? (·.name == name)).map (.stamp s.tag.id)) := by
  cases p with
  | groups l => exact Keyed.find?_foldl_insertNew GroupEntry.name (.stamp s.tag.id) l s.groups name
  | packages l => exact Option.or_none.symm
  | builds l => exact Option.or_none.symm

/-- What is found once all portions are taken in, when it is known for one portion. -/
lemma find_foldl_take {α : Type} (find : Snapshot → Option α) (stamp : TagId → α → α)
    {entries : Portion → List α} {q : α → Bool}
    (htake : ∀ s p, find (s.take p) = (find s).or (((entries p).find? q).map (stamp s.tag.id)))
    (s : Snapshot) (given : List Portion) :
    find (given.foldl take s) =
      (find s).or (((given.flatMap entries).find? q).map (stamp s.tag.id)) := by
  induction given generalizing s with
  | nil => exact Option.or_none.symm
  | cons p rest ih =>
    rw [List.foldl_cons, ih, htake, take_tag, Option.or_assoc, ← Option.map_or,
      List.flatMap_cons, List.find?_append]

/-- **A snapshot keeps the first build of every name**, classified anew. -/
theorem find?_build_ofPortions (tag : TagInfo) (given : List Portion) (nvr : String) :
    (ofPortions tag given).builds.find? nvr = (firstBuild? given nvr).map (.stamp tag.id) :=
  (find_foldl_take (fun s => s.builds.find? nvr) BuildEntry.stamp
    (fun s p => find?_build_take s p nvr) (.ofTag tag) given).trans Option.none_or

/-- **A snapshot keeps the first group of every name**, classified anew with each of its
members. -/
theorem find?_group_ofPortions (tag : TagInfo) (given : List Portion) (name : String) :
    (ofPortions tag given).groups.find? name = (firstGroup? given name).map (.stamp tag.id) :=
  (find_foldl_take (fun s => s.groups.find? name) GroupEntry.stamp
    (fun s p => find?_group_take s p name) (.ofTag tag) given).trans Option.none_or

lemma builds_ofPortions_named : (ofPortions tag given).builds.NamedBy BuildEntry.nvr := by
  intro nvr b hb
  rw [find?_build_ofPortions] at hb
  obtain ⟨first, hfirst, rfl⟩ := Option.map_eq_some_iff.mp hb
  have hname : first.nvr = nvr := by simpa using List.find?_some hfirst
  exact hname

lemma groups_ofPortions_named : (ofPortions tag given).groups.NamedBy GroupEntry.name := by
  intro name g hg
  rw [find?_group_ofPortions] at hg
  obtain ⟨first, hfirst, rfl⟩ := Option.map_eq_some_iff.mp hg
  have hname : first.name = name := by simpa using List.find?_some hfirst
  exact hname

/-- A build of the snapshot that is direct is stored on the tag, whatever it said of itself. -/
lemma firstBuild?_of_direct {b : BuildEntry} (h : b ∈ (ofPortions tag given).builds.values)
    (hdirect : b.ownership.isDirect) :
    ∃ first, firstBuild? given b.nvr = some first ∧ first.sourceTagId = tag.id := by
  rw [builds_ofPortions_named.mem_values, find?_build_ofPortions] at h
  obtain ⟨first, hfirst, rfl⟩ := Option.map_eq_some_iff.mp h
  rw [BuildEntry.stamp, Tables.isDirect_classify, decide_eq_true_eq] at hdirect
  exact ⟨first, hfirst, hdirect⟩

/-- An active group of the snapshot is the first one that was given under its name. -/
lemma firstGroup?_of_activeGroup? {name : String} {g : GroupEntry}
    (h : Diff.activeGroup? (ofPortions tag given) name = some g) :
    ∃ first, firstGroup? given name = some first ∧ first.blocked = false ∧
      g = first.stamp tag.id ∧ g.name = name ∧
      (ofPortions tag given).groups.find? name = some (first.stamp tag.id) := by
  have hname := Diff.activeGroup?_name groups_ofPortions_named h
  obtain ⟨hfind, hactive⟩ := Option.filter_eq_some_iff.mp h
  obtain ⟨first, hfirst, rfl⟩ := Option.map_eq_some_iff.mp
    ((find?_group_ofPortions tag given name).symm.trans hfind)
  exact ⟨first, hfirst, by simpa [GroupEntry.stamp] using hactive, rfl, hname, hfind⟩

end Snapshot

/-! ### What is planned against it -/

/-- What a removal or a block rests on, given the portions that the snapshot of the tag was put
together from. What is removed lies in the snapshot, and the first entry given under its name is
stored on the tag; what is blocked is a group or a member that is stored elsewhere, and not
blocked. Of a member its own tag counts, and not that of its group. -/
def Operation.Rightful (tag : TagInfo) (given : List Snapshot.Portion) : Operation → Prop
  | .untagBuild nvr =>
    ∃ b, Snapshot.firstBuild? given nvr = some b ∧ b.sourceTagId = tag.id ∧
      (Snapshot.ofPortions tag given).builds.find? nvr = some (b.stamp tag.id)
  | .removeGroup group =>
    ∃ g, Snapshot.firstGroup? given group = some g ∧ g.sourceTagId = tag.id ∧
      (Snapshot.ofPortions tag given).groups.find? group = some (g.stamp tag.id)
  | .blockGroup group =>
    ∃ g, Snapshot.firstGroup? given group = some g ∧ g.sourceTagId ≠ tag.id ∧
      g.blocked = false ∧
      (Snapshot.ofPortions tag given).groups.find? group = some (g.stamp tag.id)
  | .removeGroupPackage group package =>
    ∃ g m, Snapshot.firstGroup? given group = some g ∧ g.members.find? package = some m ∧
      m.sourceTagId = tag.id ∧
      (Snapshot.ofPortions tag given).groups.find? group = some (g.stamp tag.id)
  | .blockGroupPackage group package =>
    ∃ g m, Snapshot.firstGroup? given group = some g ∧ g.members.find? package = some m ∧
      m.sourceTagId ≠ tag.id ∧ m.blocked = false ∧ g.blocked = false ∧
      (Snapshot.ofPortions tag given).groups.find? group = some (g.stamp tag.id)
  | .addPackage .. | .blockPackage _ | .addGroup _ | .addGroupPackage .. | .tagBuild _ => True

namespace Diff

open Snapshot

variable {src : Snapshot} {tag : TagInfo} {given : List Portion} {o : DiffOptions}
  {op : Operation}

lemma rightful_of_mem_packages {dest : Snapshot} (h : op ∈ packages src dest o) :
    op.Rightful tag given := by
  have hclass := entityClass_of_mem_packages h
  cases op with
  | addPackage => trivial
  | blockPackage => trivial
  | _ => cases hclass

lemma rightful_of_mem_builds (h : op ∈ builds src (ofPortions tag given) o) :
    op.Rightful tag given := by
  rcases mem_builds.mp h with ⟨b, hb, rfl, -, hdirect, -⟩ | ⟨w, -, rfl, -⟩
  · obtain ⟨first, hfirst, hsource⟩ := firstBuild?_of_direct hb hdirect
    refine ⟨first, hfirst, hsource, ?_⟩
    rw [find?_build_ofPortions, hfirst, Option.map_some]
  · trivial

/-- How a group of the snapshot is suppressed. -/
lemma rightful_of_mem_suppressGroup {name : String} {g : GroupEntry}
    (hg : activeGroup? (ofPortions tag given) name = some g) (h : op ∈ suppressGroup o g) :
    op.Rightful tag given := by
  obtain ⟨first, hfirst, hactive, hstamp, hname, hfind⟩ := firstGroup?_of_activeGroup? hg
  have howner : g.ownership.isDirect = decide (first.sourceTagId = tag.id) := by
    rw [hstamp, GroupEntry.stamp, Tables.isDirect_classify]
  rw [mem_suppressGroup, howner, hname] at h
  rcases h with ⟨rfl, hother⟩ | ⟨rfl, hsame, -⟩
  · exact ⟨first, hfirst, of_decide_eq_false hother, hactive, hfind⟩
  · exact ⟨first, hfirst, of_decide_eq_true hsame, hfind⟩

/-- How a member of a group of the snapshot is suppressed. -/
lemma rightful_of_mem_members {name : String} {s g : GroupEntry}
    (hg : activeGroup? (ofPortions tag given) name = some g) (h : op ∈ members s g o) :
    op.Rightful tag given := by
  obtain ⟨first, hfirst, hactive, hstamp, hname, hfind⟩ := firstGroup?_of_activeGroup? hg
  rcases mem_members.mp h with ⟨package, m, hm, hblocked, -, hop⟩ | ⟨package, -, -, rfl⟩
  · rw [hstamp, GroupEntry.stamp, Keyed.find?_map] at hm
    obtain ⟨m₀, hm₀, rfl⟩ := Option.map_eq_some_iff.mp hm
    have howner : (GroupMember.stamp tag.id m₀).ownership.isDirect =
        decide (m₀.sourceTagId = tag.id) := Tables.isDirect_classify
    rw [mem_suppressMember, howner, hname] at hop
    rcases hop with ⟨rfl, hother⟩ | ⟨rfl, hsame, -⟩
    · exact ⟨first, m₀, hfirst, hm₀, of_decide_eq_false hother, hblocked, hactive, hfind⟩
    · exact ⟨first, m₀, hfirst, hm₀, of_decide_eq_true hsame, hfind⟩
  · trivial

/-- No source is too odd: groups of the source may lie under other names than their own. -/
lemma rightful_of_mem_groups (h : op ∈ groups src (ofPortions tag given) o) :
    op.Rightful tag given := by
  simp only [groups, groupSuppressions, sharedGroups, createdGroups, List.mem_append,
    List.mem_flatMap, List.mem_filter, mem_activeGroups groups_ofPortions_named] at h
  rcases h with (⟨g, ⟨hg, -⟩, hop⟩ | ⟨s, -, hop⟩) | ⟨s, -, hop⟩
  · exact rightful_of_mem_suppressGroup hg hop
  · split at hop
    · rename_i g hg
      exact rightful_of_mem_members hg hop
    · cases hop
  · rcases mem_createGroup.mp hop with rfl | ⟨package, -, rfl⟩ <;> trivial

/-- **A plan removes only what is stored on the destination, and blocks only what is not**,
whatever the source shows and whatever the snapshot of the destination was put together from. -/
theorem rightful_of_mem_plan (src : Snapshot) (tag : TagInfo) (given : List Portion)
    (selection : ClassSelection) (o : DiffOptions)
    (h : op ∈ (plan src (ofPortions tag given) selection o).operations) :
    op.Rightful tag given := by
  simp only [plan, Plan.operations, List.mem_append, List.mem_ite_nil_right] at h
  rcases h with (⟨-, h⟩ | ⟨-, h⟩) | ⟨-, h⟩
  · exact rightful_of_mem_packages h
  · exact rightful_of_mem_builds h
  · exact rightful_of_mem_groups h

/-- Portions for tag 7: the group `build` is inherited from tag 1 with a member of the tag itself
that pretends to be inherited, and comes again as a group of tag 7. -/
def mixedPortions : List Portion :=
  [.groups [{ name := "build", sourceTagId := 1, ownership := .direct
              members := .ofList [("bash", { sourceTagId := 7, ownership := .inherited }),
                ("make", { sourceTagId := 1, ownership := .direct })] }],
    .builds [],
    .groups [{ name := "build", sourceTagId := 7, ownership := .direct }]]

/-- The source sees the group, and neither of its members. -/
def memberlessSource : Snapshot :=
  (Snapshot.ofTag ⟨2, "s", {}⟩).withGroups [{ name := "build", sourceTagId := 2 }]

theorem rightful_of_mixedPortions :
    Operation.Rightful ⟨7, "d", {}⟩ mixedPortions (.removeGroupPackage "build" "bash") ∧
      Operation.Rightful ⟨7, "d", {}⟩ mixedPortions (.blockGroupPackage "build" "make") :=
  ⟨rightful_of_mem_plan memberlessSource _ _ .all {} (by decide +kernel),
    rightful_of_mem_plan memberlessSource _ _ .all {} (by decide +kernel)⟩

end Diff

end TagSync
