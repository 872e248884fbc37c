import TagSync.Proofs.Retries
import TagSync.Proofs.Sorted

/-!
The layout of a plan.

Within a class the calls come in phases, and within a phase by ascending names: blocks before
additions, untaggings before taggings, suppressed groups before shared ones before new ones.
Every place is the subject of one call at most, and the members of a group are changed only
where the destination has the group, or gets it earlier in the same plan.
-/

namespace TagSync.Diff

/-- Suppressions in ascending order: what bears a name is blocked or removed, once. -/
def Suppressions (block remove : String → Operation) (calls : List Operation)
    (names : List String) : Prop :=
  names.Pairwise (· < ·) ∧
    List.Forall₂ (fun call name => call = block name ∨ call = remove name) calls names

/-- The changes inside a group: members suppressed in ascending order, then members added in
ascending order. -/
def MemberChanges (group : String) (calls : List Operation) : Prop :=
  ∃ (suppressions : List Operation) (suppressed added : List String),
    calls = suppressions ++ added.map (.addGroupPackage group) ∧
    Suppressions (.blockGroupPackage group) (.removeGroupPackage group) suppressions suppressed ∧
    added.Pairwise (· < ·)

/-- How the calls of a plan are laid out. -/
structure LaidOut (src dest : Snapshot) (selection : ClassSelection) (p : Plan) : Prop where
  /-- Blocks by name, then additions by name. -/
  packages : ∃ (blocked : List String) (added : List PackageEntry),
    p.packages = blocked.map .blockPackage ++
      added.map (fun e => .addPackage e.name e.owner e.blocked e.extraArches) ∧
    blocked.Pairwise (· < ·) ∧ added.Pairwise fun a b => a.name < b.name
  /-- Builds of the destination that are untagged, then builds of the source that are tagged,
  by package, version, release and name. -/
  builds : ∃ untagged tagged : List BuildEntry,
    p.builds = untagged.map (.untagBuild ·.nvr) ++ tagged.map (.tagBuild ·.nvr) ∧
    untagged ⊆ dest.builds.values ∧ tagged ⊆ src.builds.values ∧
    untagged.Pairwise (fun a b => a.compareListed b = .lt) ∧
    tagged.Pairwise fun a b => a.compareListed b = .lt
  /-- Groups that are suppressed, then the changes inside each group of both sides, then each
  group of the source alone with all its members after it. -/
  groups : ∃ (suppressions : List Operation) (suppressed shared created : List String)
      (changes : String → List Operation) (added : String → List String),
    p.groups = suppressions ++ shared.flatMap changes ++
      created.flatMap (fun group =>
        .addGroup group :: (added group).map (.addGroupPackage group)) ∧
    Suppressions .blockGroup .removeGroup suppressions suppressed ∧
    (shared.Pairwise (· < ·) ∧ ∀ group, group ∈ shared ↔ selection.groups = true ∧
      (activeGroup? src group).isSome ∧ (activeGroup? dest group).isSome) ∧
    (∀ group ∈ shared, MemberChanges group (changes group)) ∧
    (created.Pairwise (· < ·) ∧ ∀ group, group ∈ created ↔ selection.groups = true ∧
      (activeGroup? src group).isSome ∧ activeGroup? dest group = none) ∧
    ∀ group ∈ created, (added group).Pairwise (· < ·) ∧
      ∀ package, package ∈ added group ↔ (activeGroup? src group).any (·.hasActive package)
  /-- No place is the subject of two calls. -/
  subjects : (p.operations.map Operation.place).Nodup
  /-- Nothing is changed inside a group that the plan suppresses. -/
  unsuppressed : ∀ op ∈ p.operations, ∀ group package, op.place = .member group package →
    .blockGroup group ∉ p.operations ∧ .removeGroup group ∉ p.operations
  /-- Members are changed where the destination has the group or has just got it. -/
  grounded : ∀ earlier op later, p.operations = earlier ++ op :: later →
    ∀ group package, op.place = .member group package →
      (activeGroup? dest group).isSome ∨ .addGroup group ∈ earlier

variable {src dest : Snapshot} {o : DiffOptions} {selection : ClassSelection}

/-! ### Packages -/

lemma packages_laidOut (hsrc : src.packages.NamedBy PackageEntry.name)
    (hdest : dest.packages.NamedBy PackageEntry.name) :
    ∃ (blocked : List String) (added : List PackageEntry),
      packages src dest o = blocked.map .blockPackage ++
        added.map (fun e => .addPackage e.name e.owner e.blocked e.extraArches) ∧
      blocked.Pairwise (· < ·) ∧ added.Pairwise fun a b => a.name < b.name := by
  have hadded := hsrc.pairwise_values.filter fun e => !dest.packages.contains e.name
  have hblocked := hdest.pairwise_values.filter fun e =>
    !e.blocked && !src.packages.contains e.name
  rw [packages, packageBlocks, packageAdditions]
  rcases o.delete with _ | _
  · exact ⟨[], _, rfl, .nil, hadded⟩
  · refine ⟨_, _, ?_, List.pairwise_map.mpr hblocked, hadded⟩
    rw [if_pos rfl, List.map_map]
    rfl

/-! ### Builds -/

lemma isLE_compareListed_total (a b : BuildEntry) :
    (a.compareListed b).isLE = true ∨ (b.compareListed a).isLE = true := by
  have hswap : b.compareListed a = (a.compareListed b).swap := Std.OrientedCmp.eq_swap
  rw [hswap]
  cases a.compareListed b <;> simp

/-- Builds of different names are sorted strictly. -/
lemma pairwise_compareListed {l : List BuildEntry} (hl : (l.map BuildEntry.nvr).Nodup) :
    (sortBuilds l).Pairwise fun a b => a.compareListed b = .lt := by
  have hsorted : (sortBuilds l).Pairwise fun a b => (a.compareListed b).isLE = true :=
    pairwise_sort isLE_compareListed_total (fun _ _ _ => Std.TransCmp.isLE_trans) l
  have hnodup : ((sortBuilds l).map BuildEntry.nvr).Nodup :=
    ((perm_sort _ l).map BuildEntry.nvr).nodup_iff.mpr hl
  rw [List.Nodup, List.pairwise_map] at hnodup
  refine List.Pairwise.imp₂ (fun a b hle hne => ?_) hsorted hnodup
  rcases hcmp : a.compareListed b with _ | _ | _
  · rfl
  · exact absurd (BuildEntry.nvr_eq_of_compareStrict (Ordering.then_eq_eq.mp hcmp).2) hne
  · rw [hcmp] at hle
    cases hle

lemma builds_laidOut (hsrc : src.builds.NamedBy BuildEntry.nvr)
    (hdest : dest.builds.NamedBy BuildEntry.nvr) :
    ∃ untagged tagged : List BuildEntry,
      builds src dest o = untagged.map (.untagBuild ·.nvr) ++ tagged.map (.tagBuild ·.nvr) ∧
      untagged ⊆ dest.builds.values ∧ tagged ⊆ src.builds.values ∧
      untagged.Pairwise (fun a b => a.compareListed b = .lt) ∧
      tagged.Pairwise fun a b => a.compareListed b = .lt := by
  have htagged := (nodup_wantedBuilds (o := o) hsrc).sublist
    (List.filter_sublist.map _ : ((missingBuilds (wantedBuilds src o) dest).map _).Sublist _)
  refine ⟨_, _, rfl, fun b hb => ?_, fun b hb => ?_, pairwise_compareListed ?_,
    pairwise_compareListed htagged⟩
  · obtain ⟨-, hb⟩ := List.mem_ite_nil_right.mp (mem_sort.mp hb)
    exact (List.mem_filter.mp hb).1
  · exact mem_of_mem_wantedBuilds (List.mem_filter.mp (mem_sort.mp hb)).1
  · split
    · exact hdest.nodup_values.sublist (List.filter_sublist.map _)
    · exact List.nodup_nil

/-! ### Groups -/

/-- Where each element is suppressed or left alone, the suppressions come by name. -/
lemma suppressions_flatMap {α : Type} {name : α → String} {block remove : String → Operation}
    {f : α → List Operation} {l : List α} (hl : l.Pairwise fun a b => name a < name b)
    (hf : ∀ a, f a = [block (name a)] ∨ f a = [remove (name a)] ∨ f a = []) :
    Suppressions block remove (l.flatMap f) ((l.filter fun a => !(f a).isEmpty).map name) := by
  refine ⟨List.pairwise_map.mpr (hl.filter _), ?_⟩
  clear hl
  induction l with
  | nil => exact .nil
  | cons a rest ih =>
    rw [List.flatMap_cons]
    rcases hf a with ha | ha | ha
    · rw [ha, List.filter_cons_of_pos (by simp [ha])]
      exact .cons (.inl rfl) ih
    · rw [ha, List.filter_cons_of_pos (by simp [ha])]
      exact .cons (.inr rfl) ih
    · rw [ha, List.filter_cons_of_neg (by simp [ha])]
      exact ih

lemma suppressGroup_cases (g : GroupEntry) :
    suppressGroup o g = [.blockGroup g.name] ∨ suppressGroup o g = [.removeGroup g.name] ∨
      suppressGroup o g = [] := by
  unfold suppressGroup
  rcases g.ownership with _ | _ <;> rcases o.delete with _ | _ <;> simp

lemma suppressMember_cases (group : String) (p : String × GroupMember) :
    suppressMember o group p = [.blockGroupPackage group p.1] ∨
      suppressMember o group p = [.removeGroupPackage group p.1] ∨
      suppressMember o group p = [] := by
  unfold suppressMember
  rcases p.2.ownership with _ | _ <;> rcases o.delete with _ | _ <;> simp

lemma ascending_activeGroups {s : Snapshot} (hs : s.groups.NamedBy GroupEntry.name) :
    (activeGroups s).Pairwise fun a b => a.name < b.name :=
  hs.pairwise_values.filter _

lemma ascending_activeMembers (g : GroupEntry) :
    g.activeMembers.Pairwise fun a b => a.1 < b.1 :=
  g.members.ascending.filter _

/-- What is planned inside a group of both sides. -/
lemma memberChanges_members {s d : GroupEntry} (hname : d.name = s.name) :
    MemberChanges s.name (members s d o) := by
  have hsuppressed := (ascending_activeMembers d).filter fun p => !s.hasActive p.1
  have hadded := (ascending_activeMembers s).filter fun p => !d.hasActive p.1
  refine ⟨_, _, _, ?_, suppressions_flatMap hsuppressed (suppressMember_cases (o := o) s.name),
    List.pairwise_map.mpr hadded⟩
  rw [members, hname, List.map_map]
  rfl

/-- The changes inside a group, if both sides have it. -/
def changesInside (src dest : Snapshot) (o : DiffOptions) (group : String) : List Operation :=
  match activeGroup? src group, activeGroup? dest group with
  | some s, some d => members s d o
  | _, _ => []

/-- The names of the members that a group of a snapshot shows. -/
def shownMembers (s : Snapshot) (group : String) : List String :=
  ((activeGroup? s group).map GroupEntry.activeMembers).getD [] |>.map (·.1)

/-- Elements for which a list has nothing may be left out. -/
lemma flatMap_filter {α β : Type} {f : α → List β} {p : α → Bool} {l : List α}
    (h : ∀ a ∈ l, p a = false → f a = []) : (l.filter p).flatMap f = l.flatMap f := by
  induction l with
  | nil => rfl
  | cons a rest ih =>
    have ih := ih fun b hb => h b (.tail _ hb)
    rcases hp : p a with _ | _
    · rw [List.filter_cons_of_neg (by simp [hp]), ih, List.flatMap_cons, h a (.head _) hp,
        List.nil_append]
    · rw [List.filter_cons_of_pos hp, List.flatMap_cons, List.flatMap_cons, ih]

section

variable (hsrc : src.groups.NamedBy GroupEntry.name)

include hsrc

lemma sharedGroups_eq : sharedGroups src dest o =
    (((activeGroups src).filter fun g => (activeGroup? dest g.name).isSome).map
      GroupEntry.name).flatMap (changesInside src dest o) := by
  rw [List.flatMap_map, flatMap_filter, sharedGroups]
  · refine List.flatMap_congr fun g hg => ?_
    rw [changesInside, (mem_activeGroups hsrc).mp hg]
    rcases activeGroup? dest g.name with _ | d <;> rfl
  · intro g hg hnone
    rw [changesInside, Option.isSome_eq_false_iff.mp hnone |> Option.isNone_iff_eq_none.mp]
    rcases activeGroup? src g.name with _ | d <;> rfl

lemma createdGroups_eq : createdGroups src dest =
    (((activeGroups src).filter fun g => (activeGroup? dest g.name).isNone).map
      GroupEntry.name).flatMap fun group =>
        .addGroup group :: (shownMembers src group).map (.addGroupPackage group) := by
  rw [List.flatMap_map, createdGroups]
  refine List.flatMap_congr fun g hg => ?_
  rw [shownMembers, (mem_activeGroups hsrc).mp (List.mem_filter.mp hg).1, Option.map_some,
    Option.getD_some, List.map_map]
  rfl

lemma mem_names_filter_activeGroups (p : String → Bool) (group : String) :
    group ∈ ((activeGroups src).filter fun g => p g.name).map GroupEntry.name ↔
      (activeGroup? src group).isSome ∧ p group := by
  constructor
  · intro h
    obtain ⟨g, hg, rfl⟩ := List.mem_map.mp h
    obtain ⟨hactive, hp⟩ := List.mem_filter.mp hg
    exact ⟨by rw [(mem_activeGroups hsrc).mp hactive]; rfl, hp⟩
  · rintro ⟨hsome, hp⟩
    obtain ⟨g, hg⟩ := Option.isSome_iff_exists.mp hsome
    obtain rfl := activeGroup?_name hsrc hg
    exact List.mem_map_of_mem (List.mem_filter.mpr ⟨(mem_activeGroups hsrc).mpr hg, hp⟩)

lemma ascending_names_filter (p : GroupEntry → Bool) :
    (((activeGroups src).filter p).map GroupEntry.name).Pairwise (· < ·) :=
  List.pairwise_map.mpr ((ascending_activeGroups hsrc).filter p)

lemma memberChanges_changesInside (hdest : dest.groups.NamedBy GroupEntry.name) {group : String}
    (hs : (activeGroup? src group).isSome) (hd : (activeGroup? dest group).isSome) :
    MemberChanges group (changesInside src dest o group) := by
  obtain ⟨s, hs⟩ := Option.isSome_iff_exists.mp hs
  obtain ⟨d, hd⟩ := Option.isSome_iff_exists.mp hd
  obtain rfl := activeGroup?_name hsrc hs
  rw [changesInside, hs, hd]
  exact memberChanges_members (activeGroup?_name hdest hd)

end

/-- The names of shown members come in ascending order. -/
lemma ascending_shownMembers (s : Snapshot) (group : String) :
    (shownMembers s group).Pairwise (· < ·) := by
  rw [shownMembers, List.pairwise_map]
  rcases activeGroup? s group with _ | g
  · exact .nil
  · exact ascending_activeMembers g

lemma mem_shownMembers {s : Snapshot} {group package : String} :
    package ∈ shownMembers s group ↔ (activeGroup? s group).any (·.hasActive package) := by
  rw [shownMembers, List.mem_map]
  rcases activeGroup? s group with _ | g
  · simp
  · simp only [Option.map_some, Option.getD_some, Option.any_some, mem_activeMembers, hasActive_iff,
      Option.map_eq_some_iff]
    constructor
    · rintro ⟨p, ⟨hfind, hblocked⟩, rfl⟩
      exact ⟨p.2, hfind, hblocked⟩
    · rintro ⟨m, hfind, hblocked⟩
      exact ⟨(package, m), ⟨hfind, hblocked⟩, rfl⟩

/-! ### Whole plans -/

variable {op : Operation}

/-- No two calls of a plan are about the same place. -/
lemma nodup_places (hsrc : src.Named) (hdest : dest.Named) :
    ((plan src dest selection o).operations.map Operation.place).Nodup := by
  refine (nodup_operations hsrc hdest).map_on fun a ha b hb hplace => ?_
  have hdueA := ((mem_operations_iff_due hsrc hdest).mp ha).2
  have hdueB := ((mem_operations_iff_due hsrc hdest).mp hb).2
  rw [hplace, hdueB] at hdueA
  exact (Option.some.inj hdueA).symm

/-- Only in groups of the source something is due for a member. -/
lemma isSome_of_due_member {group package : String} {seen : Option Sight}
    (h : due src o (.member group package) seen = some op) : (activeGroup? src group).isSome := by
  rcases hs : activeGroup? src group with _ | s
  · rw [due_member_eq_none hs] at h
    cases h
  · rfl

/-- Only groups that the source lacks are due to be suppressed. -/
lemma activeGroup?_of_due_group {group : String} {seen : Option Sight}
    (h : due src o (.group group) seen = some op) (hop : op ≠ .addGroup group) :
    activeGroup? src group = none := by
  rcases correction_eq_some_iff.mp h with ⟨-, -, rfl⟩ | ⟨hnone, -⟩
  · exact absurd rfl hop
  · simpa using hnone

lemma suppression_not_mem (hsrc : src.Named) (hdest : dest.Named) {group : String}
    (hplace : op.place = .group group) (hop : op ≠ .addGroup group)
    (hs : (activeGroup? src group).isSome) :
    op ∉ (plan src dest selection o).operations := by
  intro hmem
  have hdue := ((mem_operations_iff_due hsrc hdest).mp hmem).2
  rw [hplace] at hdue
  rw [activeGroup?_of_due_group hdue hop] at hs
  cases hs

/-- A call about a member of a group that the destination lacks adds it, and the group comes
before. -/
lemma addGroup_mem_earlier (hsrc : src.Named) (hdest : dest.Named)
    {earlier later : List Operation}
    (hplan : (plan src dest selection o).operations = earlier ++ op :: later)
    {group package : String} (hplace : op.place = .member group package)
    (hnone : activeGroup? dest group = none) : .addGroup group ∈ earlier := by
  have hmem : op ∈ (plan src dest selection o).operations := by rw [hplan]; simp
  obtain ⟨hselected, hdue⟩ := (mem_operations_iff_due hsrc hdest).mp hmem
  rw [hplace] at hdue
  have hs := isSome_of_due_member hdue
  have hadd : op = .addGroupPackage group package := by
    obtain ⟨g, -, hdue⟩ := Option.bind_eq_some_iff.mp hdue
    rw [Snapshot.sight?, hnone] at hdue
    rcases correction_eq_some_iff.mp hdue with ⟨-, -, h⟩ | ⟨-, s, hseen, -⟩
    · exact h
    · cases hseen
  have hgroup : .addGroup group ∈ (plan src dest selection o).operations := by
    refine (mem_operations_iff_due hsrc hdest).mpr ⟨?_, ?_⟩
    · rw [hadd] at hselected
      exact hselected
    · rw [Operation.place, Snapshot.sight?, hnone, due, hs]
      rfl
  have hturn := Operation.turn_of_pairwise (pairwise_operations hsrc hdest) hplan
  exact hturn.relied _ hgroup (by rw [hadd]; rfl)

/-- **The layout of a plan.** Blocks, untaggings and suppressions come before additions, each
phase strictly by names; no place is the subject of two calls; nothing is changed inside a group
that the plan suppresses, and members only where the destination has the group or gets it
earlier. -/
theorem plan_laidOut (hsrc : src.Built) (hdest : dest.Built) :
    LaidOut src dest selection (plan src dest selection o) where
  packages := by
    rcases hselected : selection.packages with _ | _
    · exact ⟨[], [], by simp [plan, hselected], .nil, .nil⟩
    · simp only [plan, hselected, if_true]
      exact packages_laidOut hsrc.named.packages hdest.named.packages
  builds := by
    rcases hselected : selection.builds with _ | _
    · exact ⟨[], [], by simp [plan, hselected], by simp, by simp, .nil, .nil⟩
    · simp only [plan, hselected, if_true]
      exact builds_laidOut hsrc.named.builds hdest.named.builds
  groups := by
    have hs := hsrc.named.groups
    have hd := hdest.named.groups
    rcases hselected : selection.groups with _ | _
    · exact ⟨[], [], [], [], fun _ => [], fun _ => [], by simp [plan, hselected],
        ⟨.nil, .nil⟩, ⟨.nil, by simp⟩, by simp, ⟨.nil, by simp⟩, by simp⟩
    · have hsuppressed := (ascending_activeGroups hd).filter fun g =>
        (activeGroup? src g.name).isNone
      have hshared := mem_names_filter_activeGroups hs fun name =>
        (activeGroup? dest name).isSome
      have hcreated := mem_names_filter_activeGroups hs fun name =>
        (activeGroup? dest name).isNone
      refine ⟨_, _, _, _, changesInside src dest o, shownMembers src, ?_,
        suppressions_flatMap hsuppressed (suppressGroup_cases (o := o)),
        ⟨ascending_names_filter hs fun g => (activeGroup? dest g.name).isSome, fun group => ?_⟩,
        fun group hgroup => ?_,
        ⟨ascending_names_filter hs fun g => (activeGroup? dest g.name).isNone, fun group => ?_⟩,
        fun group _ => ⟨ascending_shownMembers src group, fun _ => mem_shownMembers⟩⟩
      · simp only [plan, hselected, if_true]
        rw [groups, sharedGroups_eq hs, createdGroups_eq hs, groupSuppressions]
      · simpa using hshared group
      · obtain ⟨hsrc', hdest'⟩ := (hshared group).mp hgroup
        exact memberChanges_changesInside hs hd hsrc' hdest'
      · simpa using hcreated group
  subjects := nodup_places hsrc.named hdest.named
  unsuppressed op hop group package hplace := by
    have hdue := ((mem_operations_iff_due hsrc.named hdest.named).mp hop).2
    rw [hplace] at hdue
    have hs := isSome_of_due_member hdue
    exact ⟨suppression_not_mem hsrc.named hdest.named rfl (by simp) hs,
      suppression_not_mem hsrc.named hdest.named rfl (by simp) hs⟩
  grounded earlier op later hplan group package hplace := by
    rcases hd : activeGroup? dest group with _ | d
    · exact .inr (addGroup_mem_earlier hsrc.named hdest.named hplan hplace hd)
    · exact .inl rfl

theorem plan_laidOut_mixed :
    mixedSource.Built ∧ mixedDest.Built ∧
      LaidOut mixedSource mixedDest .all (plan mixedSource mixedDest .all mixedOptions) :=
  have hsrc : mixedSource.Built := .withGroups _ (.withBuilds _ (.withPackages _ (.ofTag _)))
  have hdest : mixedDest.Built := .withGroups _ (.withBuilds _ (.withPackages _ (.ofTag _)))
  ⟨hsrc, hdest, plan_laidOut hsrc hdest⟩

end TagSync.Diff
