import TagSync.Keyed
import TagSync.Tag

/-!
Packages listed in a tag, and groups of packages with their members.

Group and members are classified one by one: a group stored on a tag may have members that the tag
inherits, and the other way round.
-/

namespace TagSync

/-! ### Packages -/

/-- A package listing as a tag sees it. -/
structure PackageEntry where
  name : String
  owner : String
  blocked : Bool := false
  extraArches : Option String := none
  /-- The tag the listing is stored on. -/
  sourceTagId : TagId
  sourceTagName : String
  ownership : Ownership := default
  deriving DecidableEq, Repr

namespace PackageEntry

def stamp (dest : TagId) (p : PackageEntry) : PackageEntry :=
  { p with ownership := .classify p.sourceTagId dest }

def toJson (p : PackageEntry) : Json :=
  .object [("name", .string p.name), ("owner", .string p.owner), ("blocked", .bool p.blocked),
    ("extra_arches", .ofOptionString p.extraArches), ("source_tag_id", .int p.sourceTagId),
    ("source_tag_name", .string p.sourceTagName), ("ownership", p.ownership.toJson)]

def layout : Json.Layout :=
  [("name", .refused), ("owner", .refused), ("blocked", .refused), ("extra_arches", .null),
    ("source_tag_id", .refused), ("source_tag_name", .refused),
    ("ownership", .value (Ownership.toJson default))]

def ofJson? (j : Json) : Option PackageEntry := do
  let [name, owner, blocked, arches, tagId, tagName, ownership] ← j.fields? layout | none
  return ⟨← name.string?, ← owner.string?, ← blocked.bool?, ← arches.optionString?,
    ← tagId.int64?, ← tagName.string?, ← Ownership.ofJson? ownership⟩

end PackageEntry

/-! ### Groups -/

structure GroupMember where
  blocked : Bool := false
  sourceTagId : TagId
  ownership : Ownership := default
  deriving DecidableEq, Repr

namespace GroupMember

def stamp (dest : TagId) (m : GroupMember) : GroupMember :=
  { m with ownership := .classify m.sourceTagId dest }

def toJson (m : GroupMember) : Json :=
  .object [("blocked", .bool m.blocked), ("source_tag_id", .int m.sourceTagId),
    ("ownership", m.ownership.toJson)]

def layout : Json.Layout :=
  [("blocked", .refused), ("source_tag_id", .refused),
    ("ownership", .value (Ownership.toJson default))]

def ofJson? (j : Json) : Option GroupMember := do
  let [blocked, tagId, ownership] ← j.fields? layout | none
  return ⟨← blocked.bool?, ← tagId.int64?, ← Ownership.ofJson? ownership⟩

end GroupMember

/-- A group as a tag sees it, with its members by package name. -/
structure GroupEntry where
  name : String
  blocked : Bool := false
  sourceTagId : TagId
  ownership : Ownership := default
  members : Keyed GroupMember := .empty
  deriving DecidableEq, Repr

namespace GroupEntry

def stamp (dest : TagId) (g : GroupEntry) : GroupEntry :=
  { g with
    ownership := .classify g.sourceTagId dest
    members := g.members.map (GroupMember.stamp dest) }

/-- The members that are not blocked, in the order of their names. -/
def activeMembers (g : GroupEntry) : List (String × GroupMember) :=
  g.members.entries.filter fun p => !p.2.blocked

/-- Whether a package is a member that is not blocked. -/
def hasActive (g : GroupEntry) (package : String) : Bool :=
  (g.members.find? package).any fun m => !m.blocked

def toJson (g : GroupEntry) : Json :=
  .object [("name", .string g.name), ("blocked", .bool g.blocked),
    ("source_tag_id", .int g.sourceTagId), ("ownership", g.ownership.toJson),
    ("members", .object (g.members.map GroupMember.toJson).entries)]

def layout : Json.Layout :=
  [("name", .refused), ("blocked", .refused), ("source_tag_id", .refused),
    ("ownership", .value (Ownership.toJson default)), ("members", .refused)]

def ofJson? (j : Json) : Option GroupEntry := do
  let [name, blocked, tagId, ownership, members] ← j.fields? layout | none
  return ⟨← name.string?, ← blocked.bool?, ← tagId.int64?, ← Ownership.ofJson? ownership,
    .ofList (← members.entries? GroupMember.ofJson?)⟩

end GroupEntry

end TagSync
