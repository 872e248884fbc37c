import TagSync.Plan
import TagSync.Snapshot
import TagSync.Sort

/-!
The plan that makes a destination see what a source sees.

Every class is compared on its own, from the two snapshots alone. Nothing stored on another tag
is ever removed: what the destination inherits can only be blocked.
-/

namespace TagSync.Diff

/-! ### Packages -/

/-- Blocks for listings that the source lacks. -/
def packageBlocks (src dest : Snapshot) : List Operation :=
  (dest.packages.values.filter fun e => !e.blocked && !src.packages.contains e.name).map
    fun e => .blockPackage e.name

/-- Additions of listings that the destination lacks. -/
def packageAdditions (src dest : Snapshot) : List Operation :=
  (src.packages.values.filter fun e => !dest.packages.contains e.name).map
    fun e => .addPackage e.name e.owner e.blocked e.extraArches

/-- A package that both sides list stays as it is, whatever its owner and block. -/
def packages (src dest : Snapshot) (o : DiffOptions) : List Operation :=
  (if o.delete then packageBlocks src dest else []) ++ packageAdditions src dest

/-! ### Builds -/

/-- The complete builds of the source, or the newest of them for every package. -/
def wantedBuilds (src : Snapshot) (o : DiffOptions) : List BuildEntry :=
  let complete := src.builds.values.filter BuildEntry.isComplete
  if o.latestOnly then BuildEntry.latest complete else complete

def sortBuilds (l : List BuildEntry) : List BuildEntry :=
  sort (fun a b => (a.compareListed b).isLE) l

/-- Builds tagged into the destination itself that are not wanted there. -/
def unwantedBuilds (wanted : List BuildEntry) (dest : Snapshot) : List BuildEntry :=
  dest.builds.values.filter fun b =>
    b.ownership.isDirect && !wanted.any fun w => w.nvr == b.nvr

/-- Wanted builds that the destination lacks. -/
def missingBuilds (wanted : List BuildEntry) (dest : Snapshot) : List BuildEntry :=
  wanted.filter fun b => !dest.builds.contains b.nvr

/-- What is untagged comes before what is tagged. -/
def builds (src dest : Snapshot) (o : DiffOptions) : List Operation :=
  let wanted := wantedBuilds src o
  let untag := if o.delete then unwantedBuilds wanted dest else []
  (sortBuilds untag).map (.untagBuild ·.nvr) ++
    (sortBuilds (missingBuilds wanted dest)).map (.tagBuild ·.nvr)

/-! ### Groups -/

/-- The group of a name, if it is there and not blocked. -/
def activeGroup? (s : Snapshot) (name : String) : Option GroupEntry :=
  (s.groups.find? name).filter fun g => !g.blocked

/-- The groups that are not blocked, in the order of their names. -/
def activeGroups (s : Snapshot) : List GroupEntry := s.groups.values.filter fun g => !g.blocked

/-- How a group is suppressed: an inherited one is always blocked, one of the destination
itself is removed if that is asked for. -/
def suppressGroup (o : DiffOptions) (g : GroupEntry) : List Operation :=
  match g.ownership with
  | .inherited => [.blockGroup g.name]
  | .direct => if o.delete then [.removeGroup g.name] else []

/-- How a member of the group `group` is suppressed, by the same rule. -/
def suppressMember (o : DiffOptions) (group : String) (p : String × GroupMember) :
    List Operation :=
  match p.2.ownership with
  | .inherited => [.blockGroupPackage group p.1]
  | .direct => if o.delete then [.removeGroupPackage group p.1] else []

/-- Suppressions of groups that the source lacks. -/
def groupSuppressions (src dest : Snapshot) (o : DiffOptions) : List Operation :=
  ((activeGroups dest).filter fun g => (activeGroup? src g.name).isNone).flatMap
    (suppressGroup o)

/-- The changes inside a group that both sides see. -/
def members (src dest : GroupEntry) (o : DiffOptions) : List Operation :=
  (dest.activeMembers.filter fun p => !src.hasActive p.1).flatMap (suppressMember o dest.name) ++
    (src.activeMembers.filter fun p => !dest.hasActive p.1).map
      fun p => .addGroupPackage src.name p.1

/-- The changes inside all groups that both sides see. -/
def sharedGroups (src dest : Snapshot) (o : DiffOptions) : List Operation :=
  (activeGroups src).flatMap fun g =>
    match activeGroup? dest g.name with
    | some existing => members g existing o
    | none => []

/-- A group that the destination lacks, and its members after it. -/
def createGroup (g : GroupEntry) : List Operation :=
  .addGroup g.name :: g.activeMembers.map fun p => .addGroupPackage g.name p.1

def createdGroups (src dest : Snapshot) : List Operation :=
  ((activeGroups src).filter fun g => (activeGroup? dest g.name).isNone).flatMap createGroup

/-- Blocked groups and members count as absent on both sides. -/
def groups (src dest : Snapshot) (o : DiffOptions) : List Operation :=
  groupSuppressions src dest o ++ sharedGroups src dest o ++ createdGroups src dest

/-! ### Settings and the whole plan -/

/-- The settings of the source, if the destination has others. -/
def config (src dest : TagInfo) : Option TagConfig :=
  if src.config = dest.config then none else some src.config

/-- The plan for the selected classes; the others stay empty. -/
def plan (src dest : Snapshot) (selection : ClassSelection) (o : DiffOptions) : Plan :=
  { packages := if selection.packages then packages src dest o else []
    builds := if selection.builds then builds src dest o else []
    groups := if selection.groups then groups src dest o else []
    config := if selection.config then config src.tag dest.tag else none }

end TagSync.Diff
