import Mathlib.Tactic.Common
import TagSync.Plan.Diff
import TagSync.Proofs.Keyed

/-!
Which calls a plan holds.
-/

namespace TagSync

lemma Plan.isEmpty_iff {p : Plan} : p.isEmpty = true ↔ p.operations = [] ∧ p.config = none := by
  simp [isEmpty, operationCount, operations, List.append_eq_nil_iff, Nat.add_eq_zero_iff, and_assoc]

namespace Diff

variable {src dest : Snapshot} {o : DiffOptions} {op : Operation}

/-! ### Packages -/

lemma mem_packages (hsrc : src.packages.NamedBy PackageEntry.name)
    (hdest : dest.packages.NamedBy PackageEntry.name) :
    op ∈ packages src dest o ↔
      (∃ name, op = .blockPackage name ∧ o.delete ∧ src.packages.find? name = none ∧
        (dest.packages.find? name).map PackageEntry.blocked = some false) ∨
      ∃ name e, op = .addPackage name e.owner e.blocked e.extraArches ∧
        src.packages.find? name = some e ∧ dest.packages.find? name = none := by
  have hblock : op ∈ packageBlocks src dest ↔
      ∃ name, op = .blockPackage name ∧ src.packages.find? name = none ∧
        (dest.packages.find? name).map PackageEntry.blocked = some false := by
    simp only [packageBlocks, List.mem_map, List.mem_filter, hdest.mem_values, Bool.and_eq_true,
      Bool.not_eq_true', Keyed.contains_eq_isSome, Option.isSome_eq_false_iff,
      Option.isNone_iff_eq_none]
    constructor
    · rintro ⟨e, ⟨he, hblocked, hnone⟩, rfl⟩
      exact ⟨e.name, rfl, hnone, by rw [he, Option.map_some, hblocked]⟩
    · rintro ⟨name, rfl, hnone, hmap⟩
      obtain ⟨e, he, hblocked⟩ := Option.map_eq_some_iff.mp hmap
      obtain rfl := hdest name e he
      exact ⟨e, ⟨he, hblocked, hnone⟩, rfl⟩
  have hadd : op ∈ packageAdditions src dest ↔
      ∃ name e, op = .addPackage name e.owner e.blocked e.extraArches ∧
        src.packages.find? name = some e ∧ dest.packages.find? name = none := by
    simp only [packageAdditions, List.mem_map, List.mem_filter, hsrc.mem_values,
      Bool.not_eq_true', Keyed.contains_eq_isSome, Option.isSome_eq_false_iff,
      Option.isNone_iff_eq_none]
    constructor
    · rintro ⟨e, ⟨he, hnone⟩, rfl⟩
      exact ⟨e.name, e, rfl, he, hnone⟩
    · rintro ⟨name, e, rfl, he, hnone⟩
      obtain rfl := hsrc name e he
      exact ⟨e, ⟨he, hnone⟩, rfl⟩
  rw [packages, List.mem_append, hadd]
  rcases o.delete with _ | _
  · simp
  · simp [hblock]

/-! ### Builds -/

lemma mem_builds :
    op ∈ builds src dest o ↔
      (∃ b ∈ dest.builds.values, op = .untagBuild b.nvr ∧ o.delete ∧ b.ownership.isDirect ∧
        ∀ w ∈ wantedBuilds src o, w.nvr ≠ b.nvr) ∨
      ∃ w ∈ wantedBuilds src o, op = .tagBuild w.nvr ∧ dest.builds.contains w.nvr = false := by
  have huntag : ∀ b, b ∈ unwantedBuilds (wantedBuilds src o) dest ↔
      b ∈ dest.builds.values ∧ b.ownership.isDirect ∧
        ∀ w ∈ wantedBuilds src o, w.nvr ≠ b.nvr := by
    intro b
    simp [unwantedBuilds]
  have hmissing : ∀ w, w ∈ missingBuilds (wantedBuilds src o) dest ↔
      w ∈ wantedBuilds src o ∧ dest.builds.contains w.nvr = false := by
    intro w
    simp [missingBuilds]
  simp only [builds, sortBuilds, List.mem_append, List.mem_map, mem_sort, hmissing]
  refine or_congr ?_ ⟨?_, ?_⟩
  · rcases o.delete with _ | _
    · simp
    · simp only [if_true, huntag]
      constructor
      · rintro ⟨b, ⟨hb, hdirect, hw⟩, rfl⟩
        exact ⟨b, hb, rfl, trivial, hdirect, hw⟩
      · rintro ⟨b, hb, rfl, -, hdirect, hw⟩
        exact ⟨b, ⟨hb, hdirect, hw⟩, rfl⟩
  · rintro ⟨w, ⟨hw, hnone⟩, rfl⟩
    exact ⟨w, hw, rfl, hnone⟩
  · rintro ⟨w, hw, rfl, hnone⟩
    exact ⟨w, ⟨hw, hnone⟩, rfl⟩

/-! ### Groups -/

/-- Whether a member of a package is in a group, and not blocked. -/
lemma hasActive_iff {g : GroupEntry} {package : String} :
    g.hasActive package ↔ (g.members.find? package).map GroupMember.blocked = some false := by
  rw [GroupEntry.hasActive]
  rcases g.members.find? package with _ | m
  · simp
  · simp

lemma mem_activeMembers {g : GroupEntry} {p : String × GroupMember} :
    p ∈ g.activeMembers ↔ g.members.find? p.1 = some p.2 ∧ p.2.blocked = false := by
  rw [GroupEntry.activeMembers, List.mem_filter, Keyed.find?_eq_some_iff]
  simp

lemma mem_activeGroups {s : Snapshot} (hs : s.groups.NamedBy GroupEntry.name) {g : GroupEntry} :
    g ∈ activeGroups s ↔ activeGroup? s g.name = some g := by
  rw [activeGroups, List.mem_filter, hs.mem_values, activeGroup?, Option.filter_eq_some_iff]

lemma activeGroup?_name {s : Snapshot} (hs : s.groups.NamedBy GroupEntry.name) {name : String}
    {g : GroupEntry} (h : activeGroup? s name = some g) : g.name = name :=
  hs name g (Option.filter_eq_some_iff.mp h).1

lemma mem_suppressGroup {g : GroupEntry} :
    op ∈ suppressGroup o g ↔
      op = .blockGroup g.name ∧ g.ownership.isDirect = false ∨
      op = .removeGroup g.name ∧ g.ownership.isDirect ∧ o.delete := by
  unfold suppressGroup
  rcases g.ownership with _ | _ <;> rcases o.delete with _ | _ <;> simp [Ownership.isDirect]

lemma mem_suppressMember {group : String} {p : String × GroupMember} :
    op ∈ suppressMember o group p ↔
      op = .blockGroupPackage group p.1 ∧ p.2.ownership.isDirect = false ∨
      op = .removeGroupPackage group p.1 ∧ p.2.ownership.isDirect ∧ o.delete := by
  unfold suppressMember
  rcases p.2.ownership with _ | _ <;> rcases o.delete with _ | _ <;> simp [Ownership.isDirect]

/-- The changes inside a group that both sides see. -/
lemma mem_members {s d : GroupEntry} :
    op ∈ members s d o ↔
      (∃ package m, d.members.find? package = some m ∧ m.blocked = false ∧
        s.hasActive package = false ∧ op ∈ suppressMember o d.name (package, m)) ∨
      ∃ package, s.hasActive package ∧ d.hasActive package = false ∧
        op = .addGroupPackage s.name package := by
  simp only [members, List.mem_append, List.mem_flatMap, List.mem_filter, List.mem_map,
    mem_activeMembers, Bool.not_eq_true']
  refine or_congr ⟨?_, ?_⟩ ⟨?_, ?_⟩
  · rintro ⟨p, ⟨⟨hfind, hblocked⟩, hs⟩, hop⟩
    exact ⟨p.1, p.2, hfind, hblocked, hs, hop⟩
  · rintro ⟨package, m, hfind, hblocked, hs, hop⟩
    exact ⟨(package, m), ⟨⟨hfind, hblocked⟩, hs⟩, hop⟩
  · rintro ⟨p, ⟨⟨hfind, hblocked⟩, hd⟩, rfl⟩
    exact ⟨p.1, hasActive_iff.mpr (by rw [hfind, Option.map_some, hblocked]), hd, rfl⟩
  · rintro ⟨package, hs, hd, rfl⟩
    obtain ⟨m, hfind, hblocked⟩ := Option.map_eq_some_iff.mp (hasActive_iff.mp hs)
    exact ⟨(package, m), ⟨⟨hfind, hblocked⟩, hd⟩, rfl⟩

lemma mem_createGroup {g : GroupEntry} :
    op ∈ createGroup g ↔
      op = .addGroup g.name ∨ ∃ package, g.hasActive package ∧
        op = .addGroupPackage g.name package := by
  simp only [createGroup, List.mem_cons, List.mem_map, mem_activeMembers]
  refine or_congr .rfl ⟨?_, ?_⟩
  · rintro ⟨p, ⟨hfind, hblocked⟩, rfl⟩
    exact ⟨p.1, hasActive_iff.mpr (by rw [hfind, Option.map_some, hblocked]), rfl⟩
  · rintro ⟨package, hs, rfl⟩
    obtain ⟨m, hfind, hblocked⟩ := Option.map_eq_some_iff.mp (hasActive_iff.mp hs)
    exact ⟨(package, m), ⟨hfind, hblocked⟩, rfl⟩

lemma mem_groups (hsrc : src.groups.NamedBy GroupEntry.name)
    (hdest : dest.groups.NamedBy GroupEntry.name) :
    op ∈ groups src dest o ↔
      (∃ name g, activeGroup? src name = none ∧ activeGroup? dest name = some g ∧
        op ∈ suppressGroup o g) ∨
      (∃ name s g, activeGroup? src name = some s ∧ activeGroup? dest name = some g ∧
        op ∈ members s g o) ∨
      ∃ name s, activeGroup? src name = some s ∧ activeGroup? dest name = none ∧
        op ∈ createGroup s := by
  simp only [groups, groupSuppressions, sharedGroups, createdGroups, List.mem_append,
    List.mem_flatMap, List.mem_filter, mem_activeGroups hsrc, mem_activeGroups hdest,
    Option.isNone_iff_eq_none, or_assoc]
  refine or_congr ⟨?_, ?_⟩ (or_congr ⟨?_, ?_⟩ ⟨?_, ?_⟩)
  · rintro ⟨g, ⟨hg, hs⟩, hop⟩
    exact ⟨g.name, g, hs, hg, hop⟩
  · rintro ⟨name, g, hs, hg, hop⟩
    obtain rfl := activeGroup?_name hdest hg
    exact ⟨g, ⟨hg, hs⟩, hop⟩
  · rintro ⟨s, hs, hop⟩
    split at hop
    · rename_i g hg
      exact ⟨s.name, s, g, hs, hg, hop⟩
    · cases hop
  · rintro ⟨name, s, g, hs, hg, hop⟩
    obtain rfl := activeGroup?_name hsrc hs
    exact ⟨s, hs, by rw [hg]; exact hop⟩
  · rintro ⟨s, ⟨hs, hg⟩, hop⟩
    exact ⟨s.name, s, hs, hg, hop⟩
  · rintro ⟨name, s, hs, hg, hop⟩
    obtain rfl := activeGroup?_name hsrc hs
    exact ⟨s, ⟨hs, hg⟩, hop⟩

/-! ### Classes -/

lemma entityClass_of_mem_packages (h : op ∈ packages src dest o) : op.entityClass = .packages := by
  simp only [packages, packageBlocks, packageAdditions, List.mem_append, List.mem_map,
    List.mem_ite_nil_right] at h
  rcases h with ⟨-, e, -, rfl⟩ | ⟨e, -, rfl⟩ <;> rfl

lemma entityClass_of_mem_groups (h : op ∈ groups src dest o) : op.entityClass = .groups := by
  simp only [groups, groupSuppressions, sharedGroups, createdGroups, List.mem_append,
    List.mem_flatMap] at h
  rcases h with (⟨g, -, h⟩ | ⟨g, -, h⟩) | ⟨g, -, h⟩
  · rcases mem_suppressGroup.mp h with ⟨rfl, -⟩ | ⟨rfl, -⟩ <;> rfl
  · split at h
    · rcases mem_members.mp h with ⟨package, m, -, -, -, h⟩ | ⟨package, -, -, rfl⟩
      · rcases mem_suppressMember.mp h with ⟨rfl, -⟩ | ⟨rfl, -⟩ <;> rfl
      · rfl
    · cases h
  · rcases mem_createGroup.mp h with rfl | ⟨package, -, rfl⟩ <;> rfl

end Diff

end TagSync
