import TagSync.Proofs.Performed

/-!
Plans that are carried out in part.

Where a call that was due has been carried out nothing is due any more, and everywhere else the
same as before. So the plan of a retry holds the calls that were left out, and no others.
-/

namespace TagSync

/-- A snapshot as it is put together from listings. -/
inductive Snapshot.Built : Snapshot → Prop
  | ofTag (tag : TagInfo) : Built (.ofTag tag)
  | atEvent {s : Snapshot} (event : Option EventId) : Built s → Built (s.atEvent event)
  | withPackages {s : Snapshot} (l : List PackageEntry) : Built s → Built (s.withPackages l)
  | withBuilds {s : Snapshot} (l : List BuildEntry) : Built s → Built (s.withBuilds l)
  | withGroups {s : Snapshot} (l : List GroupEntry) : Built s → Built (s.withGroups l)

lemma Snapshot.Built.named {s : Snapshot} (h : s.Built) : s.Named := by
  induction h with
  | ofTag tag => exact ⟨.empty, .empty, .empty⟩
  | atEvent event _ ih => exact ⟨ih.packages, ih.builds, ih.groups⟩
  | @withPackages s l _ ih =>
    have hl := ih.packages.foldl_insertNew (PackageEntry.stamp s.tag.id) l
    exact ⟨hl, ih.builds, ih.groups⟩
  | @withBuilds s l _ ih =>
    have hl := ih.builds.foldl_insertNew (BuildEntry.stamp s.tag.id) l
    exact ⟨ih.packages, hl, ih.groups⟩
  | @withGroups s l _ ih =>
    have hl := ih.groups.foldl_insertNew (GroupEntry.stamp s.tag.id) l
    exact ⟨ih.packages, ih.builds, hl⟩

namespace Diff

variable {src dest after : Snapshot} {o : DiffOptions} {op : Operation}

/-! ### What is due after a call -/

lemma correction_leaves {wanted delete : Bool} {add block remove : Operation}
    {seen : Option Sight} (hadd : add.leaves = some ⟨false, .direct⟩)
    (hblock : block.leaves = none) (hremove : remove.leaves = none)
    (h : correction wanted delete add block remove seen = some op) :
    correction wanted delete add block remove op.leaves = none := by
  rcases correction_eq_some_iff.mp h with ⟨rfl, -, rfl⟩ | ⟨rfl, s, -, ⟨-, rfl⟩ | ⟨-, -, rfl⟩⟩
  · rw [hadd]
    rfl
  · rw [hblock]
    rfl
  · rw [hremove]
    rfl

/-- With what a call leaves in its place, nothing is due there. -/
lemma due_leaves {p : Place} {seen : Option Sight} (h : due src o p seen = some op) :
    due src o p op.leaves = none := by
  rcases p with name | nvr | name | ⟨group, package⟩
  · rcases seen with _ | seen
    · obtain ⟨e, he, rfl⟩ := Option.map_eq_some_iff.mp h
      simp [Operation.leaves, due, he]
    · obtain ⟨-, hop⟩ := Option.ite_none_right_eq_some.mp h
      simp [← Option.some.inj hop, Operation.leaves, due]
  · rcases seen with _ | seen
    · obtain ⟨hwanted, hop⟩ := Option.ite_none_right_eq_some.mp h
      rw [← Option.some.inj hop, Operation.leaves, due, hwanted, Bool.not_true, Bool.and_false]
      rfl
    · obtain ⟨hall, hop⟩ := Option.ite_none_right_eq_some.mp h
      simp only [Bool.and_eq_true, Bool.not_eq_true'] at hall
      rw [← Option.some.inj hop, Operation.leaves, due, hall.2]
      rfl
  · exact correction_leaves rfl rfl rfl h
  · obtain ⟨s, hs, h⟩ := Option.bind_eq_some_iff.mp h
    rw [due_member hs]
    exact correction_leaves rfl rfl rfl h

/-- What becomes of a group of which something is due makes no difference to its members. -/
lemma due_of_encloses {p : Place} (h : due src o op.place (dest.sight? op.place) = some op)
    (hp : op.place.encloses p = true) : due src o p none = due src o p (dest.sight? p) := by
  rcases hplace : op.place with k | k | name | ⟨k, l⟩ <;> rw [hplace] at hp h
  · cases hp
  · cases hp
  · rcases p with k | k | k | ⟨group, package⟩
    · cases hp
    · cases hp
    · cases hp
    · obtain rfl : name = group := by simpa [Place.encloses] using hp
      rcases hs : activeGroup? src name with _ | s
      · rw [due_member_eq_none hs, due_member_eq_none hs]
      · have hnone : dest.sight? (.group name) = none := by
          rw [due, hs] at h
          rcases correction_eq_some_iff.mp h with ⟨-, hnone, -⟩ | ⟨hwanted, -⟩
          · exact hnone
          · cases hwanted
        rw [Snapshot.sight?, Option.map_eq_none_iff] at hnone
        rw [Snapshot.sight?, hnone, Option.bind_none]
  · cases hp

/-- **A call settles its place and no other**: afterwards nothing is due there, and everywhere
else the same as before. -/
theorem due_perform? (hdue : due src o op.place (dest.sight? op.place) = some op)
    (h : dest.perform? src op = some after) (p : Place) :
    due src o p (after.sight? p) =
      if p = op.place then none else due src o p (dest.sight? p) := by
  rw [Snapshot.sight?_perform? h]
  split
  · rename_i hp
    rw [hp]
    exact due_leaves hdue
  · split
    · rename_i hencloses
      exact due_of_encloses hdue hencloses
    · rfl

/-- A call that is due can be carried out, once the group of a new member is there. -/
lemma exists_perform? (hsrc : src.builds.NamedBy BuildEntry.nvr)
    (hdue : due src o op.place (dest.sight? op.place) = some op)
    (hready : ∀ group package, op = .addGroupPackage group package →
      due src o (.group group) (dest.sight? (.group group)) ≠ some (.addGroup group)) :
    ∃ after, dest.perform? src op = some after := by
  cases op with
  | addPackage package owner blocked arches => exact ⟨_, rfl⟩
  | blockPackage package =>
    rcases hd : dest.packages.find? package with _ | e
    · simp [Operation.place, Snapshot.sight?, due, hd] at hdue
    · exact ⟨_, Option.bind_eq_some_iff.mpr ⟨e, hd, rfl⟩⟩
  | tagBuild nvr =>
    rcases hd : dest.builds.find? nvr with _ | b
    · rw [Operation.place, Snapshot.sight?, hd] at hdue
      obtain ⟨hany, -⟩ := Option.ite_none_right_eq_some.mp hdue
      obtain ⟨w, hw, hnvr⟩ := List.any_eq_true.mp hany
      have hfind := hsrc.mem_values.mp (mem_of_mem_wantedBuilds hw)
      rw [beq_iff_eq.mp hnvr] at hfind
      exact ⟨_, Option.bind_eq_some_iff.mpr ⟨w, hfind, rfl⟩⟩
    · simp [Operation.place, Snapshot.sight?, due, hd] at hdue
  | untagBuild nvr =>
    rcases hd : dest.builds.find? nvr with _ | b
    · simp [Operation.place, Snapshot.sight?, due, hd] at hdue
    · rw [Operation.place, Snapshot.sight?, hd] at hdue
      obtain ⟨hall, -⟩ := Option.ite_none_right_eq_some.mp hdue
      simp only [Bool.and_eq_true] at hall
      exact ⟨_, Option.bind_eq_some_iff.mpr ⟨b, hd,
        Option.bind_eq_some_iff.mpr ⟨(), if_pos hall.1.2, rfl⟩⟩⟩
  | addGroup group => exact ⟨_, rfl⟩
  | removeGroup group =>
    rw [Operation.place, due] at hdue
    obtain ⟨s, hs, hdirect⟩ := exists_of_correction hdue (by simp) (by simp)
    obtain ⟨g, hg, hown⟩ := Snapshot.exists_of_sight?_group hs
    have hguard : g.ownership.isDirect = true := by rw [hown, hdirect rfl]; rfl
    exact ⟨_, Option.bind_eq_some_iff.mpr ⟨g, hg,
      Option.bind_eq_some_iff.mpr ⟨(), if_pos hguard, rfl⟩⟩⟩
  | blockGroup group =>
    rw [Operation.place, due] at hdue
    obtain ⟨s, hs, -⟩ := exists_of_correction hdue (by simp) (by simp)
    obtain ⟨g, hg, -⟩ := Snapshot.exists_of_sight?_group hs
    have hcontains := Keyed.contains_iff.mpr ⟨g, hg⟩
    exact ⟨_, Option.bind_eq_some_iff.mpr ⟨(), if_pos hcontains, rfl⟩⟩
  | addGroupPackage group package =>
    obtain ⟨s, hs, -⟩ := Option.bind_eq_some_iff.mp hdue
    rcases hg : activeGroup? dest group with _ | g
    · refine absurd ?_ (hready group package rfl)
      rw [due, Snapshot.sight?, hs, hg]
      rfl
    · exact ⟨_, Option.bind_eq_some_iff.mpr ⟨g, hg, rfl⟩⟩
  | removeGroupPackage group package =>
    obtain ⟨a, -, h⟩ := Option.bind_eq_some_iff.mp hdue
    obtain ⟨s, hs, hdirect⟩ := exists_of_correction h (by simp) (by simp)
    obtain ⟨g, m, hg, hm, hown⟩ := Snapshot.exists_of_sight?_member hs
    have hguard : m.ownership.isDirect = true := by rw [hown, hdirect rfl]; rfl
    exact ⟨_, Option.bind_eq_some_iff.mpr ⟨g, hg, Option.bind_eq_some_iff.mpr ⟨m, hm,
      Option.bind_eq_some_iff.mpr ⟨(), if_pos hguard, rfl⟩⟩⟩⟩
  | blockGroupPackage group package =>
    obtain ⟨a, -, h⟩ := Option.bind_eq_some_iff.mp hdue
    obtain ⟨s, hs, -⟩ := exists_of_correction h (by simp) (by simp)
    obtain ⟨g, m, hg, hm, -⟩ := Snapshot.exists_of_sight?_member hs
    have hcontains := Keyed.contains_iff.mpr ⟨m, hm⟩
    exact ⟨_, Option.bind_eq_some_iff.mpr ⟨g, hg,
      Option.bind_eq_some_iff.mpr ⟨(), if_pos hcontains, rfl⟩⟩⟩

/-! ### Some of the calls of a plan -/

/-- **Calls that are due can be carried out one after the other**, each after the group that it
relies on. Afterwards nothing is due in their places, and everywhere else the same as before. -/
theorem exists_performEach? (hsrc : src.Named) {calls : List Operation} (hdest : dest.Named)
    (horder : calls.Pairwise Operation.MayPrecede)
    (hdue : ∀ op ∈ calls, due src o op.place (dest.sight? op.place) = some op)
    (hready : ∀ group package, .addGroupPackage group package ∈ calls →
      due src o (.group group) (dest.sight? (.group group)) = some (.addGroup group) →
        .addGroup group ∈ calls) :
    ∃ after, dest.performEach? src calls = some after ∧ after.Named ∧
      ∀ p, due src o p (after.sight? p) =
        if p ∈ calls.map Operation.place then none else due src o p (dest.sight? p) := by
  induction calls generalizing dest with
  | nil => exact ⟨dest, rfl, hdest, fun p => by simp⟩
  | cons op rest ih =>
    obtain ⟨hfirst, hrest⟩ := List.pairwise_cons.mp horder
    have hop := hdue op (.head _)
    obtain ⟨next, hnext⟩ : ∃ next, dest.perform? src op = some next := by
      refine exists_perform? hsrc.builds hop fun group package e hadd => ?_
      subst e
      -- the call that makes room for the member would come too late
      rcases List.mem_cons.mp (hready group package (.head _) hadd) with h | h
      · cases h
      · exact (hfirst _ h).2 rfl
    have hstep := due_perform? hop hnext
    have hne : ∀ b ∈ rest, b.place ≠ op.place := fun b hb e => by
      have hb' := hdue b (.tail _ hb)
      rw [e, hop] at hb'
      exact (hfirst b hb).1 (Option.some.inj hb')
    obtain ⟨after, hafter, hnamed, hkeep⟩ := ih (hsrc.perform? hdest hnext) hrest
      (fun b hb => by rw [hstep, if_neg (hne b hb)]; exact hdue b (.tail _ hb))
      (fun group package hmem hadd => by
        rw [hstep] at hadd
        obtain ⟨hplace, hadd⟩ := Option.ite_none_left_eq_some.mp hadd
        refine (List.mem_cons.mp (hready group package (.tail _ hmem) hadd)).resolve_left ?_
        rintro rfl
        exact hplace rfl)
    refine ⟨after, ?_, hnamed, fun p => ?_⟩
    · rw [Snapshot.performEach?, List.foldlM_cons, hnext]
      exact hafter
    · rw [hkeep, hstep, List.map_cons]
      by_cases hp : p = op.place <;> simp [hp]

variable {selection : ClassSelection}

/-- The plan that is made after some calls of another one holds the others. -/
lemma mem_operations_after (hsrc : src.Named) (hdest : dest.Named) (hafter : after.Named)
    {calls : List Operation}
    (hdue : ∀ op ∈ calls, due src o op.place (dest.sight? op.place) = some op)
    (hkeep : ∀ p, due src o p (after.sight? p) =
      if p ∈ calls.map Operation.place then none else due src o p (dest.sight? p)) :
    op ∈ (plan src after selection o).operations ↔
      op ∈ (plan src dest selection o).operations ∧ op ∉ calls := by
  rw [mem_operations_iff_due hsrc hafter, hkeep, mem_operations_iff_due hsrc hdest,
    Option.ite_none_left_eq_some, and_left_comm, and_comm]
  refine and_congr_right fun hop => not_congr ⟨fun hplace => ?_, List.mem_map_of_mem⟩
  -- what is due in one place is one call
  obtain ⟨b, hb, e⟩ := List.mem_map.mp hplace
  have hb' := hdue b hb
  rw [e, hop.2] at hb'
  rwa [Option.some.inj hb']

/-- **A retry makes up for what was left out**: whichever calls of a plan are carried out, in its
order and no member before its new group, all of them can be, and the plan that is made
afterwards holds the others. -/
theorem exists_retry_perm (hsrc : src.Built) (hdest : dest.Built) {calls : List Operation}
    (hcalls : calls.Sublist (plan src dest selection o).operations)
    (hgroups : ∀ group package, .addGroupPackage group package ∈ calls →
      .addGroup group ∈ (plan src dest selection o).operations → .addGroup group ∈ calls) :
    ∃ after, dest.performEach? src calls = some after ∧
      (plan src dest selection o).operations.Perm
        (calls ++ (plan src after selection o).operations) ∧
      (calls = (plan src dest selection o).operations →
        (plan src after selection o).operations = []) := by
  have hdue : ∀ op ∈ calls, selection.includes op.entityClass = true ∧
      due src o op.place (dest.sight? op.place) = some op :=
    fun op hop => (mem_operations_iff_due hsrc.named hdest.named).mp (hcalls.subset hop)
  have horder := (pairwise_operations hsrc.named hdest.named).sublist hcalls
  obtain ⟨after, hafter, hnamed, hkeep⟩ := exists_performEach? hsrc.named hdest.named horder
    (fun op hop => (hdue op hop).2) fun group package hop hadd =>
      hgroups group package hop ((mem_operations_iff_due hsrc.named hdest.named).mpr
        ⟨(hdue _ hop).1, hadd⟩)
  have hrest : ∀ op, op ∈ (plan src after selection o).operations ↔
      op ∈ (plan src dest selection o).operations ∧ op ∉ calls := fun op =>
    mem_operations_after hsrc.named hdest.named hnamed (fun op hop => (hdue op hop).2) hkeep
  have hnodup : (plan src dest selection o).operations.Nodup :=
    nodup_operations hsrc.named hdest.named
  refine ⟨after, hafter, (List.perm_ext_iff_of_nodup hnodup ?_).mpr fun op => ?_, fun hall => ?_⟩
  · refine List.nodup_append.mpr ⟨hnodup.sublist hcalls, nodup_operations hsrc.named hnamed,
      fun a ha b hb e => ?_⟩
    exact ((hrest b).mp hb).2 (e ▸ ha)
  · rw [List.mem_append, hrest]
    by_cases hop : op ∈ calls
    · simp [hop, hcalls.subset hop]
    · simp [hop]
  · refine List.eq_nil_iff_forall_not_mem.mpr fun op hop => ?_
    obtain ⟨hplanned, hleft⟩ := (hrest op).mp hop
    exact hleft (hall ▸ hplanned)

/-- A source, and a destination that differs from it in every way that a plan can mend. -/
def mixedSource : Snapshot :=
  let build (version : String) : BuildEntry :=
    { nvr := "a-" ++ version ++ "-1", packageName := "a", version, release := "1"
      state := .complete, owner := "u", sourceTagId := 1, sourceTagName := "s" }
  let group (name : String) : GroupEntry :=
    { name, sourceTagId := 1, members := .ofList [("a", { sourceTagId := 1 })] }
  (((Snapshot.ofTag ⟨1, "s", {}⟩).withPackages
    [{ name := "a", owner := "u", sourceTagId := 1, sourceTagName := "s" }]).withBuilds
    [build "1", build "2"]).withGroups [group "shared", group "new"]

def mixedDest : Snapshot :=
  (((Snapshot.ofTag ⟨2, "d", {}⟩).withPackages
    [{ name := "b", owner := "u", sourceTagId := 3, sourceTagName := "p" }]).withBuilds
    [{ nvr := "a-1-1", packageName := "a", version := "1", release := "1", state := .complete
       owner := "u", sourceTagId := 2, sourceTagName := "d" }]).withGroups
    [{ name := "shared", sourceTagId := 3, members := .ofList
        [("own", { sourceTagId := 2 }), ("above", { sourceTagId := 3 })] },
      { name := "new", blocked := true, sourceTagId := 2 },
      { name := "above", sourceTagId := 3 }, { name := "own", sourceTagId := 2 }]

def mixedOptions : DiffOptions := { latestOnly := true }

/-- The calls that went through, five of eleven. -/
def mixedCalls : List Operation :=
  [.blockPackage "b", .tagBuild "a-2-1", .blockGroupPackage "shared" "above", .addGroup "new",
    .addGroupPackage "new" "a"]

theorem exists_retry_perm_mixed :
    mixedSource.Built ∧ mixedDest.Built ∧
      mixedCalls.Sublist (plan mixedSource mixedDest .all mixedOptions).operations ∧
      (∀ group package, .addGroupPackage group package ∈ mixedCalls →
        .addGroup group ∈ (plan mixedSource mixedDest .all mixedOptions).operations →
          .addGroup group ∈ mixedCalls) ∧
      ∃ after, mixedDest.performEach? mixedSource mixedCalls = some after ∧
        (plan mixedSource mixedDest .all mixedOptions).operations.Perm
          (mixedCalls ++ (plan mixedSource after .all mixedOptions).operations) ∧
        (mixedCalls = (plan mixedSource mixedDest .all mixedOptions).operations →
          (plan mixedSource after .all mixedOptions).operations = []) := by
  have hsrc : mixedSource.Built := .withGroups _ (.withBuilds _ (.withPackages _ (.ofTag _)))
  have hdest : mixedDest.Built := .withGroups _ (.withBuilds _ (.withPackages _ (.ofTag _)))
  have hcalls : mixedCalls.Sublist (plan mixedSource mixedDest .all mixedOptions).operations := by
    decide +kernel
  have hgroups : ∀ group package, .addGroupPackage group package ∈ mixedCalls →
      .addGroup group ∈ (plan mixedSource mixedDest .all mixedOptions).operations →
        .addGroup group ∈ mixedCalls := by
    intro group package hmem _
    obtain ⟨rfl, -⟩ : group = "new" ∧ package = "a" := by simpa [mixedCalls] using hmem
    decide
  exact ⟨hsrc, hdest, hcalls, hgroups, exists_retry_perm hsrc hdest hcalls hgroups⟩

end Diff

end TagSync
