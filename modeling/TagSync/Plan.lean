import TagSync.Operation
import TagSync.Tag

/-!
Plans: what a run intends to change on its destination.
-/

namespace TagSync

/-- The parts of a tag a run touches. -/
structure ClassSelection where
  /-- Copies the settings, and allows a missing destination to be created. -/
  config : Bool := false
  packages : Bool := false
  builds : Bool := false
  groups : Bool := false
  deriving DecidableEq, Repr

namespace ClassSelection

def all : ClassSelection := ⟨true, true, true, true⟩

def includes (s : ClassSelection) : EntityClass → Bool
  | .packages => s.packages
  | .builds => s.builds
  | .groups => s.groups

def toJson (s : ClassSelection) : Json :=
  .object [("config", .bool s.config), ("packages", .bool s.packages),
    ("builds", .bool s.builds), ("groups", .bool s.groups)]

def layout : Json.Layout :=
  [("config", .refused), ("packages", .refused), ("builds", .refused), ("groups", .refused)]

def ofJson? (j : Json) : Option ClassSelection := do
  let [config, packages, builds, groups] ← j.fields? layout | none
  return ⟨← config.bool?, ← packages.bool?, ← builds.bool?, ← groups.bool?⟩

end ClassSelection

/-- Choices about what a comparison of two tags asks for. -/
structure DiffOptions where
  /-- Removes what only the destination has. Inherited groups and members are blocked in any
  case. -/
  delete : Bool := true
  /-- Takes only the newest build of every package from the source. -/
  latestOnly : Bool := false
  deriving DecidableEq, Repr

namespace DiffOptions

def toJson (o : DiffOptions) : Json :=
  .object [("delete", .bool o.delete), ("latest_only", .bool o.latestOnly)]

def layout : Json.Layout := [("delete", .refused), ("latest_only", .refused)]

def ofJson? (j : Json) : Option DiffOptions := do
  let [delete, latestOnly] ← j.fields? layout | none
  return ⟨← delete.bool?, ← latestOnly.bool?⟩

end DiffOptions

/-- One list of calls for every class, and the settings to copy if they differ. -/
structure Plan where
  packages : List Operation := []
  builds : List Operation := []
  groups : List Operation := []
  config : Option TagConfig := none
  deriving DecidableEq, Repr

namespace Plan

def ofClass (p : Plan) : EntityClass → List Operation
  | .packages => p.packages
  | .builds => p.builds
  | .groups => p.groups

/-- All calls in the order of the phases. -/
def operations (p : Plan) : List Operation := p.packages ++ p.builds ++ p.groups

def operationCount (p : Plan) : Nat := p.packages.length + p.builds.length + p.groups.length

def isEmpty (p : Plan) : Bool := p.operationCount = 0 && p.config.isNone

def toJson (p : Plan) : Json :=
  .object [("packages", .array (p.packages.map Operation.toJson)),
    ("builds", .array (p.builds.map Operation.toJson)),
    ("groups", .array (p.groups.map Operation.toJson)),
    ("config", .ofOption TagConfig.toJson p.config)]

def layout : Json.Layout :=
  [("packages", .refused), ("builds", .refused), ("groups", .refused), ("config", .null)]

def ofJson? (j : Json) : Option Plan := do
  let [packages, builds, groups, config] ← j.fields? layout | none
  return ⟨← packages.list? Operation.ofJson?, ← builds.list? Operation.ofJson?,
    ← groups.list? Operation.ofJson?, ← config.optional? TagConfig.ofJson?⟩

end Plan

end TagSync
