import TagSync.Nvr
import TagSync.Tag

/-!
Seeds: the description of what a hub is filled with.

A seed lists users with their permissions, builds, and tags with all that belongs to them. The
JSON text of a seed shows every field, in the order in which they are declared here.
-/

namespace TagSync

structure SeedUser where
  name : String
  perms : List String := []
  deriving DecidableEq, Repr

structure SeedBuild where
  package : String
  version : String
  release : String
  /-- The state as it is written; only a check tells whether it is one. -/
  state : String := "COMPLETE"
  owner : String
  deriving DecidableEq, Repr

/-- A tag that another one inherits from. Parents of lower priority are visited first. -/
structure SeedParent where
  name : String
  priority : Int := 0
  deriving DecidableEq, Repr

structure SeedPackage where
  name : String
  owner : String
  blocked : Bool := false
  extraArches : Option String := none
  deriving DecidableEq, Repr

structure SeedMember where
  name : String
  blocked : Bool := false
  deriving DecidableEq, Repr

structure SeedGroup where
  name : String
  blocked : Bool := false
  members : List SeedMember := []
  deriving DecidableEq, Repr

structure SeedTag where
  name : String
  config : TagConfig := {}
  parents : List SeedParent := []
  packages : List SeedPackage := []
  /-- The names of builds, in the order in which they are tagged. -/
  builds : List String := []
  groups : List SeedGroup := []
  deriving DecidableEq, Repr

structure Seed where
  /-- The version of the format; only `0` is known. -/
  schemaVersion : Nat
  users : List SeedUser := []
  builds : List SeedBuild := []
  tags : List SeedTag := []
  deriving DecidableEq, Repr

/-- The name of the build. -/
def SeedBuild.nvr (b : SeedBuild) : Nvr := ⟨b.package, b.version, b.release⟩

/-! ### JSON -/

def SeedUser.toJson (u : SeedUser) : Json :=
  .object [("name", .string u.name), ("perms", .array (u.perms.map .string))]

def SeedBuild.toJson (b : SeedBuild) : Json :=
  .object [("package", .string b.package), ("version", .string b.version),
    ("release", .string b.release), ("state", .string b.state), ("owner", .string b.owner)]

def SeedParent.toJson (p : SeedParent) : Json :=
  .object [("name", .string p.name), ("priority", .int p.priority)]

def SeedPackage.toJson (p : SeedPackage) : Json :=
  .object [("name", .string p.name), ("owner", .string p.owner), ("blocked", .bool p.blocked),
    ("extra_arches", .ofOptionString p.extraArches)]

def SeedMember.toJson (m : SeedMember) : Json :=
  .object [("name", .string m.name), ("blocked", .bool m.blocked)]

def SeedGroup.toJson (g : SeedGroup) : Json :=
  .object [("name", .string g.name), ("blocked", .bool g.blocked),
    ("packages", .array (g.members.map SeedMember.toJson))]

def SeedTag.toJson (t : SeedTag) : Json :=
  .object (("name", .string t.name) :: (t.config.jsonFields ++
    [("parents", .array (t.parents.map SeedParent.toJson)),
      ("packages", .array (t.packages.map SeedPackage.toJson)),
      ("builds", .array (t.builds.map .string)),
      ("groups", .array (t.groups.map SeedGroup.toJson))]))

def Seed.toJson (s : Seed) : Json :=
  .object [("schema_version", .int s.schemaVersion),
    ("users", .array (s.users.map SeedUser.toJson)),
    ("builds", .array (s.builds.map SeedBuild.toJson)),
    ("tags", .array (s.tags.map SeedTag.toJson))]

end TagSync
