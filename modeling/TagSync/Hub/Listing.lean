import TagSync.Hub.Inheritance
import TagSync.Snapshot

/-!
What a tag sees on a hub, now or at an event.

Along the inheritance the first record of a name counts. Packages and groups come sorted by
name; builds come as they were tagged, the newest first.
-/

namespace TagSync.Tables

/-! ### Packages -/

/-- The packages that are stored on a tag. -/
def packagesOn (t : Tables) (event : Option EventId) (tag : TagRow) : List PackageEntry :=
  ((t.packages.active event).filter (·.tag = tag.id)).map fun r =>
    { name := r.package, owner := r.owner, blocked := r.blocked, extraArches := r.extraArches
      sourceTagId := tag.id, sourceTagName := tag.name }

/-- The packages of some tags, by name; the first one counts. -/
def packageView (t : Tables) (event : Option EventId) (tags : List TagRow) :
    Keyed PackageEntry :=
  .ofList ((tags.flatMap (t.packagesOn event)).map fun p => (p.name, p))

def listPackages (t : Tables) (id : TagId) (inherited : Bool) (event : Option EventId) :
    List PackageEntry :=
  (t.packageView event (t.sources id inherited)).values

/-- A package as a tag sees it. -/
def package? (t : Tables) (id : TagId) (event : Option EventId) (name : String) :
    Option PackageEntry :=
  (t.packageView event (t.chain id)).find? name

/-! ### Builds -/

/-- A build with the tag it is tagged into. -/
structure Tagging where
  build : BuildRow
  tag : TagRow

def Tagging.name (b : Tagging) : String := b.build.nvr.display

/-- The builds that are tagged into a tag, the newest tagging first. -/
def taggingsOn (t : Tables) (event : Option EventId) (tag : TagRow) : List Tagging :=
  (((t.taggings.active event).filter (·.tag = tag.id)).reverse.filterMap fun r =>
    t.build? r.build).map fun b => ⟨b, tag⟩

/-- Whether a package is listed, and not blocked. -/
def allows (view : Keyed PackageEntry) (name : String) : Bool :=
  (view.find? name).any fun p => !p.blocked

/-- A list without the elements whose names came before. -/
def firstOfEach {α : Type} (name : α → String) : List String → List α → List α
  | _, [] => []
  | seen, a :: rest =>
    if seen.contains (name a) then firstOfEach name seen rest
    else a :: firstOfEach name (name a :: seen) rest

/-- A tagged build as a listing shows it; it has none if its state is not one. -/
def Tagging.entry (b : Tagging) : Except Failure BuildEntry :=
  (BuildState.parse b.build.state).map fun state =>
    { nvr := b.name, packageName := b.build.nvr.name, version := b.build.nvr.version
      release := b.build.nvr.release, state, owner := b.build.owner
      sourceTagId := b.tag.id, sourceTagName := b.tag.name }

/-- The builds a tag shows: those whose package it sees, each once. -/
def shownTaggings (t : Tables) (id : TagId) (inherited : Bool) (event : Option EventId) :
    List Tagging :=
  let view := t.packageView event (t.chain id)
  firstOfEach Tagging.name []
    (((t.sources id inherited).flatMap (t.taggingsOn event)).filter fun b =>
      allows view b.build.nvr.name)

def listBuilds (t : Tables) (id : TagId) (inherited latestOnly : Bool) (event : Option EventId) :
    Except Failure (List BuildEntry) := do
  let builds ← (t.shownTaggings id inherited event).mapM Tagging.entry
  return if latestOnly then BuildEntry.latest builds else builds

/-! ### Groups -/

/-- The groups that are stored on a tag, without members. -/
def groupsOn (t : Tables) (event : Option EventId) (tag : TagRow) : List GroupEntry :=
  ((t.groups.active event).filter (·.tag = tag.id)).map fun r =>
    { name := r.group, blocked := r.blocked, sourceTagId := tag.id }

/-- The members of a group that are stored on a tag. -/
def membersOn (t : Tables) (event : Option EventId) (group : String) (tag : TagRow) :
    List (String × GroupMember) :=
  ((t.members.active event).filter fun r => r.tag = tag.id && r.group = group).map fun r =>
    (r.package, { blocked := r.blocked, sourceTagId := tag.id })

/-- The members of a group over some tags, by package; the first one counts. A blocked group
shows none. -/
def withMembers (t : Tables) (event : Option EventId) (tags : List TagRow) (g : GroupEntry) :
    GroupEntry :=
  if g.blocked then g
  else { g with members := .ofList (tags.flatMap (t.membersOn event g.name)) }

def groupView (t : Tables) (event : Option EventId) (tags : List TagRow) : Keyed GroupEntry :=
  (Keyed.ofList ((tags.flatMap (t.groupsOn event)).map fun g => (g.name, g))).map
    (t.withMembers event tags)

def listGroups (t : Tables) (id : TagId) (event : Option EventId) : List GroupEntry :=
  (t.groupView event (t.chain id)).values

/-- A group as a tag sees it now. -/
def group? (t : Tables) (id : TagId) (name : String) : Option GroupEntry :=
  (t.groupView none (t.chain id)).find? name

end TagSync.Tables
