import TagSync.Json

/-!
The calls that change a tag.

A call does not say which tag it is for; the tag travels beside it.
-/

namespace TagSync

inductive Operation where
  /-- Lists a package on the tag. -/
  | addPackage (package owner : String) (blocked : Bool) (extraArches : Option String)
  /-- Blocks a package that the tag lists or inherits. -/
  | blockPackage (package : String)
  | addGroup (group : String)
  /-- Deletes the tag's own record of a group. -/
  | removeGroup (group : String)
  | blockGroup (group : String)
  | addGroupPackage (group package : String)
  /-- Deletes the tag's own record of a group member. -/
  | removeGroupPackage (group package : String)
  | blockGroupPackage (group package : String)
  | tagBuild (nvr : String)
  /-- Removes a build that is tagged into the tag itself. -/
  | untagBuild (nvr : String)
  deriving DecidableEq, Repr

/-- What an operation is about; the phases of a run follow these classes. -/
inductive EntityClass where
  | packages
  | builds
  | groups
  deriving DecidableEq, Repr

namespace EntityClass

/-- The classes in the order of the phases. -/
def all : List EntityClass := [.packages, .builds, .groups]

def text : EntityClass → String
  | .packages => "packages"
  | .builds => "builds"
  | .groups => "groups"

def toJson (c : EntityClass) : Json := .string c.text

def ofJson? (j : Json) : Option EntityClass :=
  j.name?.bind fun s => all.find? (·.text == s)

end EntityClass

/-- The kind of a change. -/
inductive Action where
  | add
  | block
  | remove
  deriving DecidableEq, Repr

namespace Action

/-- The label of the change in a report. -/
def label : Action → String
  | .add => "new"
  | .block => "blk"
  | .remove => "del"

/-- The change of a label; `add` is another label of an addition. -/
def ofLabel? : String → Option Action
  | "new" | "add" => some .add
  | "blk" => some .block
  | "del" => some .remove
  | _ => none

def text : Action → String
  | .add => "add"
  | .block => "block"
  | .remove => "remove"

def toJson (a : Action) : Json := .string a.text

def ofJson? (j : Json) : Option Action :=
  j.name?.bind fun
    | "add" => some .add
    | "block" => some .block
    | "remove" => some .remove
    | _ => none

end Action

namespace Operation

def entityClass : Operation → EntityClass
  | .addPackage .. | .blockPackage _ => .packages
  | .tagBuild _ | .untagBuild _ => .builds
  | .addGroup _ | .removeGroup _ | .blockGroup _ | .addGroupPackage .. | .removeGroupPackage ..
  | .blockGroupPackage .. => .groups

def action : Operation → Action
  | .addPackage .. | .addGroup _ | .addGroupPackage .. | .tagBuild _ => .add
  | .blockPackage _ | .blockGroup _ | .blockGroupPackage .. => .block
  | .removeGroup _ | .removeGroupPackage .. | .untagBuild _ => .remove

/-- The method of the hub that carries the call out. -/
def method : Operation → String
  | .addPackage .. => "packageListAdd"
  | .blockPackage _ => "packageListBlock"
  | .addGroup _ => "groupListAdd"
  | .removeGroup _ => "groupListRemove"
  | .blockGroup _ => "groupListBlock"
  | .addGroupPackage .. => "groupPackageListAdd"
  | .removeGroupPackage .. => "groupPackageListRemove"
  | .blockGroupPackage .. => "groupPackageListBlock"
  | .tagBuild _ => "tagBuildBypass"
  | .untagBuild _ => "untagBuildBypass"

/-- What the call is applied to, such as `bash` or `build/bash`. -/
def subject : Operation → String
  | .addPackage package .. | .blockPackage package => package
  | .addGroup group | .removeGroup group | .blockGroup group => group
  | .addGroupPackage group package | .removeGroupPackage group package
  | .blockGroupPackage group package => group ++ "/" ++ package
  | .tagBuild nvr | .untagBuild nvr => nvr

def display (o : Operation) : String := o.method ++ "(" ++ o.subject ++ ")"

/-! ### JSON -/

/-- The word that tells the calls apart. -/
def keyword : Operation → String
  | .addPackage .. => "add_package"
  | .blockPackage _ => "block_package"
  | .addGroup _ => "add_group"
  | .removeGroup _ => "remove_group"
  | .blockGroup _ => "block_group"
  | .addGroupPackage .. => "add_group_package"
  | .removeGroupPackage .. => "remove_group_package"
  | .blockGroupPackage .. => "block_group_package"
  | .tagBuild _ => "tag_build"
  | .untagBuild _ => "untag_build"

def jsonFields : Operation → List (String × Json)
  | .addPackage package owner blocked extraArches =>
    [("package", .string package), ("owner", .string owner), ("blocked", .bool blocked),
      ("extra_arches", .ofOptionString extraArches)]
  | .blockPackage package => [("package", .string package)]
  | .addGroup group | .removeGroup group | .blockGroup group => [("group", .string group)]
  | .addGroupPackage group package | .removeGroupPackage group package
  | .blockGroupPackage group package => [("group", .string group), ("package", .string package)]
  | .tagBuild nvr | .untagBuild nvr => [("nvr", .string nvr)]

/-- The keyword is the field `op` of one object with the others. -/
def toJson (o : Operation) : Json := .object (("op", .string o.keyword) :: o.jsonFields)

def addPackageLayout : Json.Layout :=
  [("package", .refused), ("owner", .refused), ("blocked", .refused), ("extra_arches", .null)]

/-- The call of a keyword, from the record of its fields. -/
def ofFields? (keyword : String) (j : Json) : Option Operation :=
  let one (name : String) : Option String := do
    let [a] ← j.fields? [(name, .refused)] | none
    a.string?
  let member : Option (String × String) := do
    let [group, package] ← j.fields? [("group", .refused), ("package", .refused)] | none
    return (← group.string?, ← package.string?)
  match keyword with
  | "add_package" => do
    let [package, owner, blocked, arches] ← j.fields? addPackageLayout | none
    return .addPackage (← package.string?) (← owner.string?) (← blocked.bool?)
      (← arches.optionString?)
  | "block_package" => (one "package").map .blockPackage
  | "add_group" => (one "group").map .addGroup
  | "remove_group" => (one "group").map .removeGroup
  | "block_group" => (one "group").map .blockGroup
  | "add_group_package" => member.map fun p => .addGroupPackage p.1 p.2
  | "remove_group_package" => member.map fun p => .removeGroupPackage p.1 p.2
  | "block_group_package" => member.map fun p => .blockGroupPackage p.1 p.2
  | "tag_build" => (one "nvr").map .tagBuild
  | "untag_build" => (one "nvr").map .untagBuild
  | _ => none

/-- As an array, the keyword comes first. -/
def ofJson? : Json → Option Operation
  | .object fields => do
    let .string keyword ← fields.lookup "op" | none
    ofFields? keyword (.object fields)
  | .array (.string keyword :: rest) => ofFields? keyword (.array rest)
  | _ => none

end Operation

end TagSync
