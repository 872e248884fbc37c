import TagSync.Proofs.Order

/-!
Plans place by place.

What a comparison plans about one package, build, group or member depends on the source and on
what the destination shows there, and on nothing else (`Diff.due`). A plan holds exactly what is
due in some place of a selected class.
-/

namespace TagSync

/-- What a call is about, by the names that snapshots use. -/
inductive Place where
  | package (name : String)
  | build (nvr : String)
  | group (name : String)
  | member (group package : String)
  deriving DecidableEq, Repr

def Operation.place : Operation → Place
  | .addPackage package .. | .blockPackage package => .package package
  | .tagBuild nvr | .untagBuild nvr => .build nvr
  | .addGroup group | .removeGroup group | .blockGroup group => .group group
  | .addGroupPackage group package | .removeGroupPackage group package
  | .blockGroupPackage group package => .member group package

def Place.entityClass : Place → EntityClass
  | .package _ => .packages
  | .build _ => .builds
  | .group _ | .member .. => .groups

lemma Place.exists_package {p : Place} (h : p.entityClass = .packages) :
    ∃ name, p = .package name := by
  rcases p with name | nvr | name | ⟨group, package⟩ <;> cases h
  exact ⟨name, rfl⟩

lemma Place.exists_build {p : Place} (h : p.entityClass = .builds) : ∃ nvr, p = .build nvr := by
  rcases p with name | nvr | name | ⟨group, package⟩ <;> cases h
  exact ⟨nvr, rfl⟩

lemma Operation.entityClass_eq (op : Operation) : op.entityClass = op.place.entityClass := by
  cases op <;> rfl

/-- An entry as a comparison sees it: whether it blocks, and whose it is. -/
structure Sight where
  blocked : Bool
  ownership : Ownership
  deriving DecidableEq, Repr

/-- What a group shows of a package: its members that are not blocked. -/
def GroupEntry.sight? (g : GroupEntry) (package : String) : Option Sight :=
  ((g.members.find? package).filter fun m => !m.blocked).map fun m => ⟨false, m.ownership⟩

/-- What a snapshot shows in a place. Groups that are blocked count as absent. -/
def Snapshot.sight? (s : Snapshot) : Place → Option Sight
  | .package name => (s.packages.find? name).map fun p => ⟨p.blocked, p.ownership⟩
  | .build nvr => (s.builds.find? nvr).map fun b => ⟨false, b.ownership⟩
  | .group name => (Diff.activeGroup? s name).map fun g => ⟨false, g.ownership⟩
  | .member group package => (Diff.activeGroup? s group).bind (·.sight? package)

lemma GroupEntry.hasActive_eq_isSome (g : GroupEntry) (package : String) :
    g.hasActive package = (g.sight? package).isSome := by
  rw [hasActive, sight?, Option.isSome_map, Option.isSome_filter]

namespace Diff

/-- What is done about something that is wanted, or is not: what is missing is added, and what
nobody wants is blocked where it is inherited, and removed elsewhere if that is asked for. -/
def correction (wanted delete : Bool) (add block remove : Operation) :
    Option Sight → Option Operation
  | none => if wanted then some add else none
  | some ⟨_, .inherited⟩ => if wanted then none else some block
  | some ⟨_, .direct⟩ => if !wanted && delete then some remove else none

/-- What is to be done in a place where the destination shows something, or nothing. -/
def due (src : Snapshot) (o : DiffOptions) : Place → Option Sight → Option Operation
  | .package name, none =>
    (src.packages.find? name).map fun e => .addPackage name e.owner e.blocked e.extraArches
  | .package name, some seen =>
    if o.delete && !seen.blocked && (src.packages.find? name).isNone then some (.blockPackage name)
    else none
  | .build nvr, none =>
    if (wantedBuilds src o).any (·.nvr == nvr) then some (.tagBuild nvr) else none
  | .build nvr, some seen =>
    if o.delete && seen.ownership.isDirect && !(wantedBuilds src o).any (·.nvr == nvr) then
      some (.untagBuild nvr)
    else none
  | .group name, seen =>
    correction (activeGroup? src name).isSome o.delete (.addGroup name) (.blockGroup name)
      (.removeGroup name) seen
  | .member group package, seen =>
    (activeGroup? src group).bind fun g => correction (g.hasActive package) o.delete
      (.addGroupPackage group package) (.blockGroupPackage group package)
      (.removeGroupPackage group package) seen

variable {src dest : Snapshot} {o : DiffOptions} {op : Operation} {selection : ClassSelection}

lemma correction_eq_some_iff {wanted delete : Bool} {add block remove : Operation}
    {seen : Option Sight} :
    correction wanted delete add block remove seen = some op ↔
      wanted = true ∧ seen = none ∧ op = add ∨
      wanted = false ∧ ∃ s, seen = some s ∧ (s.ownership = .inherited ∧ op = block ∨
        s.ownership = .direct ∧ delete = true ∧ op = remove) := by
  rcases seen with _ | ⟨blocked, _ | _⟩ <;> rcases wanted with _ | _ <;>
    simp [correction, eq_comm]

/-- Only what is there is blocked or removed, and only what is direct is removed. -/
lemma exists_of_correction {wanted delete : Bool} {add block remove : Operation}
    {seen : Option Sight} (h : correction wanted delete add block remove seen = some op)
    (hop : op ≠ add) (hblock : block ≠ remove) :
    ∃ s, seen = some s ∧ (op = remove → s.ownership = .direct) := by
  rcases correction_eq_some_iff.mp h with ⟨-, -, rfl⟩ | ⟨-, s, hseen, ⟨-, rfl⟩ | ⟨hdirect, -, -⟩⟩
  · exact absurd rfl hop
  · exact ⟨s, hseen, fun e => absurd e hblock⟩
  · exact ⟨s, hseen, fun _ => hdirect⟩

/-! ### What a plan holds -/

lemma mem_packages_iff_due (hsrc : src.packages.NamedBy PackageEntry.name)
    (hdest : dest.packages.NamedBy PackageEntry.name) :
    op ∈ packages src dest o ↔
      op.entityClass = .packages ∧ due src o op.place (dest.sight? op.place) = some op := by
  rw [mem_packages hsrc hdest]
  constructor
  · rintro (⟨name, rfl, hdelete, hnone, hseen⟩ | ⟨name, e, rfl, he, hnone⟩)
    · obtain ⟨d, hd, hblocked⟩ := Option.map_eq_some_iff.mp hseen
      exact ⟨rfl, by simp [Operation.place, Snapshot.sight?, due, hd, hblocked, hdelete, hnone]⟩
    · exact ⟨rfl, by simp [Operation.place, Snapshot.sight?, due, he, hnone]⟩
  · rintro ⟨hclass, hdue⟩
    obtain ⟨name, hplace⟩ := Place.exists_package (op.entityClass_eq ▸ hclass)
    rw [hplace, Snapshot.sight?] at hdue
    rcases hd : dest.packages.find? name with _ | d
    · rw [hd] at hdue
      obtain ⟨e, he, rfl⟩ := Option.map_eq_some_iff.mp hdue
      exact .inr ⟨name, e, rfl, he, hd⟩
    · rw [hd] at hdue
      obtain ⟨hall, hop⟩ := Option.ite_none_right_eq_some.mp hdue
      simp only [Bool.and_eq_true, Bool.not_eq_true', Option.isNone_iff_eq_none] at hall
      exact .inl ⟨name, (Option.some.inj hop).symm, hall.1.1, hall.2,
        by rw [hd, Option.map_some, hall.1.2]⟩

lemma mem_builds_iff_due (hdest : dest.builds.NamedBy BuildEntry.nvr) :
    op ∈ builds src dest o ↔
      op.entityClass = .builds ∧ due src o op.place (dest.sight? op.place) = some op := by
  have hwanted : ∀ nvr, (wantedBuilds src o).any (·.nvr == nvr) = true ↔
      ∃ w ∈ wantedBuilds src o, w.nvr = nvr := fun nvr => by simp
  rw [mem_builds]
  constructor
  · rintro (⟨b, hb, rfl, hdelete, hdirect, hunwanted⟩ | ⟨w, hw, rfl, hmissing⟩)
    · have hnot : (wantedBuilds src o).any (·.nvr == b.nvr) = false :=
        Bool.eq_false_iff.mpr fun h => by
          obtain ⟨w, hw, hnvr⟩ := (hwanted b.nvr).mp h
          exact hunwanted w hw hnvr
      refine ⟨rfl, ?_⟩
      simp only [Operation.place, Snapshot.sight?, due, hdest.mem_values.mp hb, Option.map_some,
        hdelete, hdirect, hnot, Bool.not_false, Bool.and_true, if_true]
    · rw [Keyed.contains_eq_isSome, Option.isSome_eq_false_iff, Option.isNone_iff_eq_none]
        at hmissing
      refine ⟨rfl, ?_⟩
      simp only [Operation.place, Snapshot.sight?, due, hmissing, Option.map_none,
        (hwanted w.nvr).mpr ⟨w, hw, rfl⟩, if_true]
  · rintro ⟨hclass, hdue⟩
    obtain ⟨nvr, hplace⟩ := Place.exists_build (op.entityClass_eq ▸ hclass)
    rw [hplace, Snapshot.sight?] at hdue
    rcases hd : dest.builds.find? nvr with _ | b
    · rw [hd] at hdue
      obtain ⟨hany, hop⟩ := Option.ite_none_right_eq_some.mp hdue
      obtain ⟨w, hw, rfl⟩ := (hwanted nvr).mp hany
      exact .inr ⟨w, hw, (Option.some.inj hop).symm, by rw [Keyed.contains_eq_isSome, hd]; rfl⟩
    · rw [hd] at hdue
      obtain ⟨hall, hop⟩ := Option.ite_none_right_eq_some.mp hdue
      simp only [Bool.and_eq_true, Bool.not_eq_true'] at hall
      obtain rfl := hdest nvr b hd
      refine .inl ⟨b, hdest.mem_values.mpr hd, (Option.some.inj hop).symm, hall.1.1, hall.1.2,
        fun w hw hnvr => ?_⟩
      rw [(hwanted b.nvr).mpr ⟨w, hw, hnvr⟩] at hall
      cases hall.2

/-- A suppression is the correction of something that is not wanted. -/
lemma mem_suppressGroup_iff_correction {g : GroupEntry} {add : Operation} :
    op ∈ suppressGroup o g ↔ correction false o.delete add (.blockGroup g.name)
      (.removeGroup g.name) (some ⟨false, g.ownership⟩) = some op := by
  unfold suppressGroup
  rcases g.ownership with _ | _ <;> rcases o.delete with _ | _ <;> simp [correction, eq_comm]

lemma mem_suppressMember_iff_correction {group package : String} {m : GroupMember}
    {add : Operation} :
    op ∈ suppressMember o group (package, m) ↔ correction false o.delete add
      (.blockGroupPackage group package) (.removeGroupPackage group package)
      (some ⟨false, m.ownership⟩) = some op := by
  unfold suppressMember
  rcases m.ownership with _ | _ <;> rcases o.delete with _ | _ <;> simp [correction, eq_comm]

/-- What is due for a member of a group of the source. -/
lemma due_member {s : GroupEntry} {group package : String} {seen : Option Sight}
    (hs : activeGroup? src group = some s) :
    due src o (.member group package) seen = correction (s.hasActive package) o.delete
      (.addGroupPackage group package) (.blockGroupPackage group package)
      (.removeGroupPackage group package) seen := by
  rw [due, hs, Option.bind_some]

lemma mem_members_iff_due {s g : GroupEntry} (hname : g.name = s.name)
    (hs : activeGroup? src s.name = some s) :
    op ∈ members s g o ↔
      ∃ package, due src o (.member s.name package) (g.sight? package) = some op := by
  rw [mem_members]
  constructor
  · rintro (⟨package, m, hm, hactive, hunwanted, hop⟩ | ⟨package, hwanted, hlacks, rfl⟩)
    · refine ⟨package, ?_⟩
      have hseen : g.sight? package = some ⟨false, m.ownership⟩ := by
        simp [GroupEntry.sight?, hm, hactive]
      rw [due_member hs, hunwanted, hseen]
      exact mem_suppressMember_iff_correction.mp (hname ▸ hop)
    · refine ⟨package, ?_⟩
      rw [GroupEntry.hasActive_eq_isSome, Option.isSome_eq_false_iff, Option.isNone_iff_eq_none]
        at hlacks
      rw [due_member hs, hwanted, hlacks]
      rfl
  · rintro ⟨package, hdue⟩
    rw [due_member hs] at hdue
    rcases correction_eq_some_iff.mp hdue with ⟨hwanted, hnone, rfl⟩ |
      ⟨hunwanted, seen, hseen, -⟩
    · refine .inr ⟨package, hwanted, ?_, rfl⟩
      rw [GroupEntry.hasActive_eq_isSome, hnone]
      rfl
    · obtain ⟨m, hm, rfl⟩ := Option.map_eq_some_iff.mp hseen
      obtain ⟨hfind, hactive⟩ := Option.filter_eq_some_iff.mp hm
      rw [hunwanted, hseen] at hdue
      exact .inl ⟨package, m, hfind, by simpa using hactive, hunwanted,
        hname ▸ mem_suppressMember_iff_correction.mpr hdue⟩

lemma mem_createGroup_iff_due {s : GroupEntry} (hs : activeGroup? src s.name = some s) :
    op ∈ createGroup s ↔ due src o (.group s.name) none = some op ∨
      ∃ package, due src o (.member s.name package) none = some op := by
  rw [mem_createGroup]
  refine or_congr ?_ (exists_congr fun package => ?_)
  · rw [due, hs]
    exact ⟨fun h => congrArg some h.symm, fun h => (Option.some.inj h).symm⟩
  · rw [due_member hs, correction_eq_some_iff]
    simp

/-- In a group that the source lacks nothing is due for the members. -/
lemma due_member_eq_none {group package : String} {seen : Option Sight}
    (hs : activeGroup? src group = none) : due src o (.member group package) seen = none := by
  rw [due, hs, Option.bind_none]

/-- Nothing is due for a group that both sides have. -/
lemma due_group_of_shared {s g : GroupEntry} {name : String}
    (hs : activeGroup? src name = some s) (hg : activeGroup? dest name = some g) :
    due src o (.group name) (dest.sight? (.group name)) = none := by
  rw [due, Snapshot.sight?, hs, hg]
  rcases hown : g.ownership with _ | _ <;> simp [correction, hown]

lemma mem_groups_iff_exists_due (hsrc : src.groups.NamedBy GroupEntry.name)
    (hdest : dest.groups.NamedBy GroupEntry.name) :
    op ∈ groups src dest o ↔
      (∃ name, due src o (.group name) (dest.sight? (.group name)) = some op) ∨
      ∃ group package,
        due src o (.member group package) (dest.sight? (.member group package)) = some op := by
  rw [mem_groups hsrc hdest]
  simp only [Snapshot.sight?]
  constructor
  · rintro (⟨name, g, hs, hg, hop⟩ | ⟨name, s, g, hs, hg, hop⟩ | ⟨name, s, hs, hg, hop⟩)
    · obtain rfl := activeGroup?_name hdest hg
      refine .inl ⟨g.name, ?_⟩
      rw [due, hs, hg]
      exact mem_suppressGroup_iff_correction.mp hop
    · obtain rfl := activeGroup?_name hsrc hs
      obtain ⟨package, hdue⟩ := (mem_members_iff_due (activeGroup?_name hdest hg) hs).mp hop
      exact .inr ⟨s.name, package, by rwa [hg, Option.bind_some]⟩
    · obtain rfl := activeGroup?_name hsrc hs
      rcases (mem_createGroup_iff_due hs).mp hop with hdue | ⟨package, hdue⟩
      · exact .inl ⟨s.name, by rwa [hg]⟩
      · exact .inr ⟨s.name, package, by rwa [hg]⟩
  · rintro (⟨name, hdue⟩ | ⟨group, package, hdue⟩)
    · rcases hs : activeGroup? src name with _ | s <;>
        rcases hg : activeGroup? dest name with _ | g
      · rw [due, hs, hg] at hdue
        cases hdue
      · obtain rfl := activeGroup?_name hdest hg
        rw [due, hs, hg] at hdue
        exact .inl ⟨g.name, g, hs, hg, mem_suppressGroup_iff_correction.mpr hdue⟩
      · obtain rfl := activeGroup?_name hsrc hs
        rw [hg] at hdue
        exact .inr (.inr ⟨s.name, s, hs, hg, (mem_createGroup_iff_due hs).mpr (.inl hdue)⟩)
      · have := due_group_of_shared (o := o) hs hg
        rw [Snapshot.sight?, hdue] at this
        cases this
    · rcases hs : activeGroup? src group with _ | s
      · rw [due_member_eq_none hs] at hdue
        cases hdue
      · obtain rfl := activeGroup?_name hsrc hs
        rcases hg : activeGroup? dest s.name with _ | g <;> rw [hg] at hdue
        · exact .inr (.inr ⟨s.name, s, hs, hg,
            (mem_createGroup_iff_due hs).mpr (.inr ⟨package, hdue⟩)⟩)
        · exact .inr (.inl ⟨s.name, s, g, hs, hg,
            (mem_members_iff_due (activeGroup?_name hdest hg) hs).mpr ⟨package, hdue⟩⟩)

lemma place_of_correction {wanted delete : Bool} {add block remove : Operation}
    {seen : Option Sight} {p : Place} (hadd : add.place = p) (hblock : block.place = p)
    (hremove : remove.place = p) (h : correction wanted delete add block remove seen = some op) :
    op.place = p := by
  rcases correction_eq_some_iff.mp h with ⟨-, -, rfl⟩ | ⟨-, s, -, ⟨-, rfl⟩ | ⟨-, -, rfl⟩⟩
  · exact hadd
  · exact hblock
  · exact hremove

/-- What is due in a place is about that place. -/
lemma due_place {p : Place} {seen : Option Sight} (h : due src o p seen = some op) :
    op.place = p := by
  rcases p with name | nvr | name | ⟨group, package⟩
  · rcases seen with _ | seen
    · obtain ⟨e, -, rfl⟩ := Option.map_eq_some_iff.mp h
      rfl
    · obtain ⟨-, hop⟩ := Option.ite_none_right_eq_some.mp h
      rw [← Option.some.inj hop]
      rfl
  · rcases seen with _ | seen <;>
      obtain ⟨-, hop⟩ := Option.ite_none_right_eq_some.mp h <;>
      rw [← Option.some.inj hop] <;> rfl
  · exact place_of_correction rfl rfl rfl h
  · obtain ⟨g, -, h⟩ := Option.bind_eq_some_iff.mp h
    exact place_of_correction rfl rfl rfl h

lemma mem_groups_iff_due (hsrc : src.groups.NamedBy GroupEntry.name)
    (hdest : dest.groups.NamedBy GroupEntry.name) :
    op ∈ groups src dest o ↔
      op.entityClass = .groups ∧ due src o op.place (dest.sight? op.place) = some op := by
  rw [mem_groups_iff_exists_due hsrc hdest, op.entityClass_eq]
  constructor
  · rintro (⟨name, hdue⟩ | ⟨group, package, hdue⟩)
    · rw [due_place hdue]
      exact ⟨rfl, hdue⟩
    · rw [due_place hdue]
      exact ⟨rfl, hdue⟩
  · rintro ⟨hclass, hdue⟩
    rcases hplace : op.place with name | nvr | name | ⟨group, package⟩ <;>
      rw [hplace] at hclass hdue
    · cases hclass
    · cases hclass
    · exact .inl ⟨name, hdue⟩
    · exact .inr ⟨group, package, hdue⟩

variable {selection : ClassSelection}

/-- **A plan holds what is due** in the places of the selected classes, and nothing else. -/
theorem mem_operations_iff_due (hsrc : src.Named) (hdest : dest.Named) :
    op ∈ (plan src dest selection o).operations ↔
      selection.includes op.entityClass = true ∧
        due src o op.place (dest.sight? op.place) = some op := by
  simp only [plan, Plan.operations, List.mem_append, List.mem_ite_nil_right,
    mem_packages_iff_due hsrc.packages hdest.packages, mem_builds_iff_due hdest.builds,
    mem_groups_iff_due hsrc.groups hdest.groups]
  constructor
  · rintro ((⟨hsel, hclass, hdue⟩ | ⟨hsel, hclass, hdue⟩) | ⟨hsel, hclass, hdue⟩) <;>
      exact ⟨by rwa [hclass], hdue⟩
  · rintro ⟨hsel, hdue⟩
    rcases hclass : op.entityClass with _ | _ | _ <;> rw [hclass] at hsel
    · exact .inl (.inl ⟨hsel, rfl, hdue⟩)
    · exact .inl (.inr ⟨hsel, rfl, hdue⟩)
    · exact .inr ⟨hsel, rfl, hdue⟩

end Diff

end TagSync
