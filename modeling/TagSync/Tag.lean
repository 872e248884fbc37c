import TagSync.Json

/-!
Tags: their identifiers, their configuration, how a caller names one, and which records are their
own.

A record is direct for a tag when it is stored on that tag; only such records can be removed
there. What a tag inherits can only be blocked.
-/

namespace TagSync

/-- The number of a tag; hubs count from one. -/
abbrev TagId := Int

/-- The number of an event; every write on a hub is stamped with one. -/
abbrev EventId := Int

/-- The settings of a tag. -/
structure TagConfig where
  arches : Option String := none
  locked : Bool := false
  /-- The permission that guards writes to the tag. -/
  perm : Option String := none
  mavenSupport : Bool := false
  mavenIncludeAll : Bool := false
  deriving DecidableEq, Repr, Inhabited

namespace TagConfig

def jsonFields (c : TagConfig) : List (String × Json) :=
  [("arches", .ofOptionString c.arches), ("locked", .bool c.locked),
    ("perm", .ofOptionString c.perm), ("maven_support", .bool c.mavenSupport),
    ("maven_include_all", .bool c.mavenIncludeAll)]

def toJson (c : TagConfig) : Json := .object c.jsonFields

def layout : Json.Layout :=
  [("arches", .null), ("locked", .refused), ("perm", .null), ("maven_support", .refused),
    ("maven_include_all", .refused)]

def ofJson? (j : Json) : Option TagConfig := do
  let [arches, locked, perm, support, all] ← j.fields? layout | none
  return ⟨← arches.optionString?, ← locked.bool?, ← perm.optionString?, ← support.bool?,
    ← all.bool?⟩

end TagConfig

/-- A tag as a hub shows it. -/
structure TagInfo where
  id : TagId
  name : String
  config : TagConfig
  deriving DecidableEq, Repr, Inhabited

namespace TagInfo

def isLocked (t : TagInfo) : Bool := t.config.locked

/-- A tag that does not exist yet. No hub gives out the number 0, so nothing that is fetched
belongs to it. -/
def planned (name : String) (config : TagConfig) : TagInfo := ⟨0, name, config⟩

/-- The settings stand beside number and name, not in an object of their own. -/
def toJson (t : TagInfo) : Json :=
  .object (("id", .int t.id) :: ("name", .string t.name) :: t.config.jsonFields)

def layout : Json.Layout := [("id", .refused), ("name", .refused)]

/-- Only an object is a tag, since the settings have no places in an array. -/
def ofJson? (j : Json) : Option TagInfo := do
  let .object _ := j | none
  let [id, name] ← j.fields? layout | none
  return ⟨← id.int64?, ← name.string?, ← TagConfig.ofJson? j⟩

end TagInfo

/-- How a caller names a tag. -/
inductive TagRef where
  | byId (id : TagId)
  | byName (name : String)
  deriving DecidableEq, Repr, Inhabited

namespace TagRef

def display : TagRef → String
  | .byId id => "#" ++ toString id
  | .byName name => name

def toJson : TagRef → Json
  | .byId id => .object [("Id", .int id)]
  | .byName name => .object [("Name", .string name)]

def ofJson? : Json → Option TagRef
  | .object [("Id", j)] => j.int64?.map .byId
  | .object [("Name", j)] => j.string?.map .byName
  | _ => none

end TagRef

/-! ### Direct and inherited records -/

inductive Ownership where
  | direct
  | inherited
  deriving DecidableEq, Repr

namespace Ownership

/-- A record that nobody has classified is inherited, so that it is never removed. -/
instance : Inhabited Ownership := ⟨.inherited⟩

def isDirect : Ownership → Bool
  | .direct => true
  | .inherited => false

/-- The ownership of a record stored on `source`, as `dest` sees it. -/
def classify (source dest : TagId) : Ownership := if source = dest then .direct else .inherited

def text : Ownership → String
  | .direct => "direct"
  | .inherited => "inherited"

def toJson (o : Ownership) : Json := .string o.text

def ofJson? (j : Json) : Option Ownership :=
  j.name?.bind fun
    | "direct" => some .direct
    | "inherited" => some .inherited
    | _ => none

end Ownership

end TagSync
