import TagSync.Proofs.Newest
import TagSync.Proofs.Plans

/-!
The order of the calls of a plan.

No call comes twice, and none comes before a call that it relies on: builds are tagged after
their packages are listed, and members are added to a new group after the group.
-/

namespace TagSync

/-- A snapshot whose entries stand under their own names. -/
structure Snapshot.Named (s : Snapshot) : Prop where
  packages : s.packages.NamedBy PackageEntry.name
  builds : s.builds.NamedBy BuildEntry.nvr
  groups : s.groups.NamedBy GroupEntry.name

namespace Operation

/-- The group that a call is about. -/
def group? : Operation → Option String
  | .addGroup group | .removeGroup group | .blockGroup group => some group
  | .addGroupPackage group _ | .removeGroupPackage group _ | .blockGroupPackage group _ =>
    some group
  | .addPackage .. | .blockPackage _ | .tagBuild _ | .untagBuild _ => none

/-- A call relies on another one that makes room for it. -/
def ReliesOn : Operation → Operation → Prop
  | .tagBuild _, .addPackage .. => True
  | .addGroupPackage group _, .addGroup group' => group = group'
  | _, _ => False

/-- Two calls of a plan may come in this order. -/
def MayPrecede (a b : Operation) : Prop := a ≠ b ∧ ¬ a.ReliesOn b

lemma mayPrecede_of_group?_ne {a b : Operation} (h : a.group? ≠ b.group?) : a.MayPrecede b := by
  refine ⟨fun e => h (congrArg _ e), fun hrelies => ?_⟩
  cases a <;> cases b <;> simp_all [ReliesOn, group?]

lemma mayPrecede_of_entityClass_ne {a b : Operation} (h : a.entityClass ≠ b.entityClass)
    (hb : b.entityClass ≠ .packages) : a.MayPrecede b := by
  refine ⟨fun e => h (congrArg _ e), fun hrelies => ?_⟩
  cases a <;> cases b <;> simp_all [ReliesOn, entityClass]

/-- It is the turn of a call of a plan: others came before it, among them all that it relies
on. -/
structure Turn (plan done : List Operation) (a : Operation) : Prop where
  mem : a ∈ plan
  done_mem : ∀ b ∈ done, b ∈ plan
  done_ne : ∀ b ∈ done, b ≠ a
  relied : ∀ b ∈ plan, a.ReliesOn b → b ∈ done

lemma turn_of_pairwise {plan done rest : List Operation} {a : Operation}
    (hplan : plan.Pairwise MayPrecede) (e : plan = done ++ a :: rest) : Turn plan done a := by
  subst e
  rw [List.pairwise_append, List.pairwise_cons] at hplan
  obtain ⟨-, ⟨hrest, -⟩, hdone⟩ := hplan
  refine ⟨by simp, fun b hb => List.mem_append_left _ hb, fun b hb => (hdone b hb a (.head _)).1,
    fun b hb h => ?_⟩
  rcases List.mem_append.mp hb with hb | hb
  · exact hb
  · rcases List.mem_cons.mp hb with rfl | hb
    · cases b <;> cases h
    · exact absurd h (hrest b hb).2

end Operation

namespace Diff

variable {src dest : Snapshot} {o : DiffOptions} {op : Operation}

/-- Where no two elements have the same key, calls that tell the keys apart are all different. -/
lemma pairwise_map_filter {α κ : Type} {key : α → κ} {f : α → Operation} {l : List α}
    (h : (l.map key).Nodup) (hf : ∀ a b, f a = f b → key a = key b)
    (hrelies : ∀ a b, ¬ (f a).ReliesOn (f b)) (p : α → Bool) :
    ((l.filter p).map f).Pairwise Operation.MayPrecede := by
  rw [List.Nodup, List.pairwise_map] at h
  rw [List.pairwise_map]
  exact (h.filter p).imp fun hne => ⟨fun e => hne (hf _ _ e), hrelies _ _⟩

/-! ### Packages and builds -/

lemma pairwise_packages (hsrc : src.packages.NamedBy PackageEntry.name)
    (hdest : dest.packages.NamedBy PackageEntry.name) :
    (packages src dest o).Pairwise Operation.MayPrecede := by
  have hblocks : (packageBlocks src dest).Pairwise Operation.MayPrecede :=
    pairwise_map_filter hdest.nodup_values (by simp) (by simp [Operation.ReliesOn]) _
  have hadds : (packageAdditions src dest).Pairwise Operation.MayPrecede :=
    pairwise_map_filter hsrc.nodup_values (by simp +contextual) (by simp [Operation.ReliesOn]) _
  rw [packages, List.pairwise_append]
  refine ⟨?_, hadds, fun a ha b hb => ?_⟩
  · split
    · exact hblocks
    · exact .nil
  · obtain ⟨-, ha⟩ := List.mem_ite_nil_right.mp ha
    obtain ⟨e, -, rfl⟩ := List.mem_map.mp ha
    obtain ⟨e', -, rfl⟩ := List.mem_map.mp hb
    exact ⟨by simp, id⟩

lemma mem_of_mem_wantedBuilds {b : BuildEntry} (h : b ∈ wantedBuilds src o) :
    b ∈ src.builds.values := by
  unfold wantedBuilds at h
  dsimp only at h
  split at h
  · exact (List.mem_filter.mp (BuildEntry.mem_of_mem_latest h)).1
  · exact (List.mem_filter.mp h).1

lemma nodup_wantedBuilds (hsrc : src.builds.NamedBy BuildEntry.nvr) :
    ((wantedBuilds src o).map BuildEntry.nvr).Nodup := by
  have hcomplete : ((src.builds.values.filter BuildEntry.isComplete).map BuildEntry.nvr).Nodup :=
    hsrc.nodup_values.sublist (List.filter_sublist.map _)
  unfold wantedBuilds
  dsimp only
  split
  · exact BuildEntry.nodup_latest hcomplete
  · exact hcomplete

lemma pairwise_sortBuilds {l : List BuildEntry} (h : (l.map BuildEntry.nvr).Nodup)
    {f : BuildEntry → Operation} (hf : ∀ a b, f a = f b → a.nvr = b.nvr)
    (hrelies : ∀ a b, ¬ (f a).ReliesOn (f b)) :
    ((sortBuilds l).map f).Pairwise Operation.MayPrecede := by
  have hsorted : ((sortBuilds l).map BuildEntry.nvr).Nodup :=
    ((perm_sort _ l).map BuildEntry.nvr).nodup_iff.mpr h
  have := pairwise_map_filter hsorted hf hrelies fun _ => true
  rwa [List.filter_true] at this

lemma pairwise_builds (hsrc : src.builds.NamedBy BuildEntry.nvr)
    (hdest : dest.builds.NamedBy BuildEntry.nvr) :
    (builds src dest o).Pairwise Operation.MayPrecede := by
  have huntag : ((unwantedBuilds (wantedBuilds src o) dest).map BuildEntry.nvr).Nodup :=
    hdest.nodup_values.sublist (List.filter_sublist.map _)
  have htag : ((missingBuilds (wantedBuilds src o) dest).map BuildEntry.nvr).Nodup :=
    (nodup_wantedBuilds hsrc).sublist (List.filter_sublist.map _)
  rw [builds, List.pairwise_append]
  refine ⟨pairwise_sortBuilds ?_ (by simp) (by simp [Operation.ReliesOn]),
    pairwise_sortBuilds htag (by simp) (by simp [Operation.ReliesOn]), fun a ha b hb => ?_⟩
  · split
    · exact huntag
    · exact List.nodup_nil
  · obtain ⟨e, -, rfl⟩ := List.mem_map.mp ha
    obtain ⟨e', -, rfl⟩ := List.mem_map.mp hb
    exact ⟨by simp, id⟩

/-! ### Groups -/

lemma pairwise_activeMembers (g : GroupEntry) :
    g.activeMembers.Pairwise fun a b => a.1 ≠ b.1 := by
  have hkeys := Keyed.nodup_keys g.members
  rw [List.Nodup, List.pairwise_map] at hkeys
  exact hkeys.filter _

lemma pairwise_suppressMember (group : String) (p : String × GroupMember) :
    (suppressMember o group p).Pairwise Operation.MayPrecede := by
  unfold suppressMember
  split
  · exact List.pairwise_singleton ..
  · split
    · exact List.pairwise_singleton ..
    · exact .nil

lemma pairwise_members (s d : GroupEntry) :
    (members s d o).Pairwise Operation.MayPrecede := by
  rw [members, List.pairwise_append, List.pairwise_flatMap, List.pairwise_map]
  refine ⟨⟨fun p _ => pairwise_suppressMember d.name p, ?_⟩, ?_, fun a ha b hb => ?_⟩
  · refine ((pairwise_activeMembers d).filter _).imp fun hne a ha b hb => ?_
    rcases mem_suppressMember.mp ha with ⟨rfl, -⟩ | ⟨rfl, -⟩ <;>
      rcases mem_suppressMember.mp hb with ⟨rfl, -⟩ | ⟨rfl, -⟩ <;>
      simp [Operation.MayPrecede, Operation.ReliesOn, hne]
  · refine ((pairwise_activeMembers s).filter _).imp fun hne => ?_
    simp [Operation.MayPrecede, Operation.ReliesOn, hne]
  · obtain ⟨p, -, ha⟩ := List.mem_flatMap.mp ha
    obtain ⟨q, -, rfl⟩ := List.mem_map.mp hb
    rcases mem_suppressMember.mp ha with ⟨rfl, -⟩ | ⟨rfl, -⟩ <;>
      simp [Operation.MayPrecede, Operation.ReliesOn]

lemma pairwise_createGroup (g : GroupEntry) :
    (createGroup g).Pairwise Operation.MayPrecede := by
  rw [createGroup, List.pairwise_cons, List.pairwise_map]
  refine ⟨fun b hb => ?_, (pairwise_activeMembers g).imp fun hne => ?_⟩
  · obtain ⟨p, -, rfl⟩ := List.mem_map.mp hb
    simp [Operation.MayPrecede, Operation.ReliesOn]
  · simp [Operation.MayPrecede, Operation.ReliesOn, hne]

lemma pairwise_suppressGroup (g : GroupEntry) :
    (suppressGroup o g).Pairwise Operation.MayPrecede := by
  unfold suppressGroup
  split
  · exact List.pairwise_singleton ..
  · split
    · exact List.pairwise_singleton ..
    · exact .nil

lemma group?_of_mem_suppressGroup {g : GroupEntry} (h : op ∈ suppressGroup o g) :
    op.group? = some g.name := by
  rcases mem_suppressGroup.mp h with ⟨rfl, -⟩ | ⟨rfl, -⟩ <;> rfl

lemma group?_of_mem_members {s d : GroupEntry} (hname : s.name = d.name)
    (h : op ∈ members s d o) : op.group? = some d.name := by
  rcases mem_members.mp h with ⟨package, m, -, -, -, h⟩ | ⟨package, -, -, rfl⟩
  · rcases mem_suppressMember.mp h with ⟨rfl, -⟩ | ⟨rfl, -⟩ <;> rfl
  · exact congrArg some hname

lemma group?_of_mem_createGroup {g : GroupEntry} (h : op ∈ createGroup g) :
    op.group? = some g.name := by
  rcases mem_createGroup.mp h with rfl | ⟨package, -, rfl⟩ <;> rfl

lemma group?_of_mem_groupSuppressions (h : op ∈ groupSuppressions src dest o) :
    ∃ name, op.group? = some name ∧ activeGroup? src name = none := by
  obtain ⟨g, hg, h⟩ := List.mem_flatMap.mp h
  exact ⟨g.name, group?_of_mem_suppressGroup h, by simpa using (List.mem_filter.mp hg).2⟩

lemma nodup_activeGroups {s : Snapshot} (hs : s.groups.NamedBy GroupEntry.name) :
    ((activeGroups s).map GroupEntry.name).Nodup :=
  hs.nodup_values.sublist (List.filter_sublist.map _)

/-- Calls about groups of different names may come in any order. -/
lemma pairwise_flatMap_groups {l : List GroupEntry} (hl : (l.map GroupEntry.name).Nodup)
    {f : GroupEntry → List Operation} (hf : ∀ g ∈ l, (f g).Pairwise Operation.MayPrecede)
    (hgroup : ∀ g ∈ l, ∀ op ∈ f g, op.group? = some g.name) :
    (l.flatMap f).Pairwise Operation.MayPrecede := by
  rw [List.Nodup, List.pairwise_map] at hl
  rw [List.pairwise_flatMap]
  refine ⟨hf, hl.imp_of_mem fun {g g'} hg hg' hne a ha b hb => ?_⟩
  refine Operation.mayPrecede_of_group?_ne ?_
  rw [hgroup g hg a ha, hgroup g' hg' b hb]
  simpa using hne

section

variable (hsrc : src.groups.NamedBy GroupEntry.name) (hdest : dest.groups.NamedBy GroupEntry.name)

include hsrc

lemma group?_of_mem_createdGroups (h : op ∈ createdGroups src dest) :
    ∃ name, op.group? = some name ∧ (activeGroup? src name).isSome ∧
      activeGroup? dest name = none := by
  obtain ⟨g, hg, h⟩ := List.mem_flatMap.mp h
  obtain ⟨hactive, hlacks⟩ := List.mem_filter.mp hg
  exact ⟨g.name, group?_of_mem_createGroup h, by rw [(mem_activeGroups hsrc).mp hactive]; rfl,
    by simpa using hlacks⟩

include hdest

omit hsrc in
/-- The changes inside one group of the source. -/
lemma group?_of_mem_shared {g : GroupEntry}
    (h : op ∈ match activeGroup? dest g.name with
      | some existing => members g existing o
      | none => []) :
    op.group? = some g.name ∧ (activeGroup? dest g.name).isSome := by
  split at h
  · rename_i existing hd
    have hname := activeGroup?_name hdest hd
    exact ⟨by rw [group?_of_mem_members hname.symm h, hname], by rw [hd]; rfl⟩
  · cases h

lemma group?_of_mem_sharedGroups (h : op ∈ sharedGroups src dest o) :
    ∃ name, op.group? = some name ∧ (activeGroup? src name).isSome ∧
      (activeGroup? dest name).isSome := by
  obtain ⟨g, hg, h⟩ := List.mem_flatMap.mp h
  obtain ⟨hgroup, hd⟩ := group?_of_mem_shared hdest h
  exact ⟨g.name, hgroup, by rw [(mem_activeGroups hsrc).mp hg]; rfl, hd⟩

lemma pairwise_groups : (groups src dest o).Pairwise Operation.MayPrecede := by
  have hsuppressions : (groupSuppressions src dest o).Pairwise Operation.MayPrecede :=
    pairwise_flatMap_groups ((nodup_activeGroups hdest).sublist (List.filter_sublist.map _))
      (fun g _ => pairwise_suppressGroup g) fun g _ _ => group?_of_mem_suppressGroup
  have hshared : (sharedGroups src dest o).Pairwise Operation.MayPrecede := by
    refine pairwise_flatMap_groups (nodup_activeGroups hsrc) (fun g _ => ?_)
      fun g _ op hop => (group?_of_mem_shared hdest hop).1
    split
    · exact pairwise_members ..
    · exact .nil
  have hcreated : (createdGroups src dest).Pairwise Operation.MayPrecede :=
    pairwise_flatMap_groups ((nodup_activeGroups hsrc).sublist (List.filter_sublist.map _))
      (fun g _ => pairwise_createGroup g) fun g _ _ => group?_of_mem_createGroup
  rw [groups, List.pairwise_append, List.pairwise_append]
  refine ⟨⟨hsuppressions, hshared, fun a ha b hb => ?_⟩, hcreated, fun a ha b hb => ?_⟩
  · obtain ⟨name, hname, hnone⟩ := group?_of_mem_groupSuppressions ha
    obtain ⟨name', hname', hsome, -⟩ := group?_of_mem_sharedGroups hsrc hdest hb
    refine Operation.mayPrecede_of_group?_ne fun e => ?_
    rw [hname, hname', Option.some.injEq] at e
    simp [← e, hnone] at hsome
  · obtain ⟨name', hname', hsome, hlacks⟩ := group?_of_mem_createdGroups hsrc hb
    refine Operation.mayPrecede_of_group?_ne fun e => ?_
    rcases List.mem_append.mp ha with ha | ha
    · obtain ⟨name, hname, hnone⟩ := group?_of_mem_groupSuppressions ha
      rw [hname, hname', Option.some.injEq] at e
      simp [← e, hnone] at hsome
    · obtain ⟨name, hname, -, hhas⟩ := group?_of_mem_sharedGroups hsrc hdest ha
      rw [hname, hname', Option.some.injEq] at e
      simp [e, hlacks] at hhas

end

/-! ### Whole plans -/

variable {selection : ClassSelection}

lemma entityClass_of_mem_builds (h : op ∈ builds src dest o) : op.entityClass = .builds := by
  rcases mem_builds.mp h with ⟨b, -, rfl, -⟩ | ⟨w, -, rfl, -⟩ <;> rfl

/-- **The order of a plan**: no call comes twice, and none comes before a call that it relies
on. -/
theorem pairwise_operations (hsrc : src.Named) (hdest : dest.Named) :
    (plan src dest selection o).operations.Pairwise Operation.MayPrecede := by
  have hpackages := pairwise_packages (o := o) hsrc.packages hdest.packages
  have hbuilds := pairwise_builds (o := o) hsrc.builds hdest.builds
  have hgroups := pairwise_groups (o := o) hsrc.groups hdest.groups
  simp only [plan, Plan.operations, List.pairwise_append, List.mem_append,
    List.mem_ite_nil_right]
  refine ⟨⟨?_, ?_, fun a ha b hb => ?_⟩, ?_, fun a ha b hb => ?_⟩
  · split
    · exact hpackages
    · exact .nil
  · split
    · exact hbuilds
    · exact .nil
  · refine Operation.mayPrecede_of_entityClass_ne ?_ ?_ <;>
      simp [entityClass_of_mem_packages ha.2, entityClass_of_mem_builds hb.2]
  · split
    · exact hgroups
    · exact .nil
  · have hclass := entityClass_of_mem_groups hb.2
    rcases ha with ⟨-, ha⟩ | ⟨-, ha⟩
    · refine Operation.mayPrecede_of_entityClass_ne ?_ ?_ <;>
        simp [entityClass_of_mem_packages ha, hclass]
    · refine Operation.mayPrecede_of_entityClass_ne ?_ ?_ <;>
        simp [entityClass_of_mem_builds ha, hclass]

lemma nodup_operations (hsrc : src.Named) (hdest : dest.Named) :
    (plan src dest selection o).operations.Nodup :=
  (pairwise_operations hsrc hdest).imp And.left

end Diff

end TagSync
