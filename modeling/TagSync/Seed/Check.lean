import TagSync.Build
import TagSync.Seed
import TagSync.Yaml.Decoder

/-!
Seeds as YAML texts, and what they are checked for.

A member of a group is a name, or a mapping with a name; as a mapping it may give a key twice,
and the last one counts.

Of a seed that was read names are unique, builds have proper names and states, and what a tag refers
to is there. Parents and builds may also lie in the hub the seed is meant for.
-/

namespace TagSync

/-! ### Reading -/

namespace Seed

open Yaml Yaml.Decoder

def user (n : Node Nat) : Decoder SeedUser := do
  let [name, perms] ← fields ["name", "perms"] n | failure
  return ⟨← required text name, ← withDefault [] (list text) perms⟩

def build (n : Node Nat) : Decoder SeedBuild := do
  let [package, version, release, state, owner] ←
    fields ["package", "version", "release", "state", "owner"] n | failure
  return ⟨← required text package, ← required text version, ← required text release,
    ← withDefault "COMPLETE" text state, ← required text owner⟩

def parent (n : Node Nat) : Decoder SeedParent := do
  let [name, priority] ← fields ["name", "priority"] n | failure
  return ⟨← required text name, ← withDefault 0 signed64 priority⟩

def package (n : Node Nat) : Decoder SeedPackage := do
  let [name, owner, blocked, arches] ←
    fields ["name", "owner", "blocked", "extra_arches"] n | failure
  return ⟨← required text name, ← required text owner, ← withDefault false bool blocked,
    ← withDefault none optionalText arches⟩

/-- One entry of a mapping that stands for a member. -/
def memberEntry (m : Option String × Bool) (entry : String × Node Nat) :
    Decoder (Option String × Bool) := do
  if entry.1 = "name" then return (some (← text entry.2), m.2)
  else if entry.1 = "blocked" then return (m.1, ← bool entry.2)
  else return m

def member : Node Nat → Decoder SeedMember :=
  textOrMapping (fun name => ⟨name, false⟩) fun entries => do
    let (some name, blocked) ← entries.foldlM memberEntry (none, false) | failure
    return ⟨name, blocked⟩

def group (n : Node Nat) : Decoder SeedGroup := do
  let [name, blocked, members] ← fields ["name", "blocked", "packages"] n | failure
  return ⟨← required text name, ← withDefault false bool blocked,
    ← withDefault [] (list member) members⟩

def tag (n : Node Nat) : Decoder SeedTag := do
  let [name, arches, locked, perm, support, all, parents, packages, builds, groups] ←
    fields ["name", "arches", "locked", "perm", "maven_support", "maven_include_all", "parents",
      "packages", "builds", "groups"] n | failure
  let config : TagConfig := ⟨← withDefault none optionalText arches,
    ← withDefault false bool locked, ← withDefault none optionalText perm,
    ← withDefault false bool support, ← withDefault false bool all⟩
  return ⟨← required text name, config, ← withDefault [] (list parent) parents,
    ← withDefault [] (list package) packages, ← withDefault [] (list text) builds,
    ← withDefault [] (list group) groups⟩

def whole (n : Node Nat) : Decoder Seed := do
  let [version, users, builds, tags] ← fields ["schema_version", "users", "builds", "tags"] n
    | failure
  return ⟨← required unsigned32 version, ← withDefault [] (list user) users,
    ← withDefault [] (list build) builds, ← withDefault [] (list tag) tags⟩

/-- The seed of a YAML text. -/
def ofYaml? (yaml : String) : Option Seed := Decoder.run? whole yaml

end Seed

/-! ### What is wrong with a seed -/

inductive SeedError where
  /-- The text is no YAML, or does not describe a seed. -/
  | unreadable
  /-- A part has no meaning of its own. -/
  | part (failure : Failure)
  | schemaVersion (found : Nat)
  | duplicateUser (name : String)
  | dashInBuild (nvr : String)
  | duplicateBuild (nvr : String)
  | duplicateTag (name : String)
  | selfInheritance (tag : String)
  | noParent (tag parent : String)
  | duplicatePackage (package tag : String)
  | noBuild (tag nvr : String)
  | duplicateGroup (group tag : String)
  | duplicateMember (package group tag : String)
  | buildExists (nvr : String)
  | tagExists (name : String)
  /-- A parent that was there when the seed was checked is gone. -/
  | unknownParent (name : String)
  /-- A build that was there when the seed was checked is gone. -/
  | unknownBuild (nvr : String)
  /-- The file of the seed cannot be read. -/
  | unreadableFile (reason : String)

namespace SeedError

def message : SeedError → String
  | .unreadable => "YAML parse error"
  | .part f => f.message
  | .schemaVersion n => "Unsupported schema_version: " ++ toString n ++ ". Expected 0"
  | .duplicateUser name => "Duplicate user " ++ name
  | .dashInBuild nvr => "Build " ++ nvr ++ ": version and release must not contain '-'"
  | .duplicateBuild nvr => "Duplicate build " ++ nvr
  | .duplicateTag name => "Duplicate tag " ++ name
  | .selfInheritance tag => "Tag " ++ tag ++ " cannot inherit from itself"
  | .noParent tag parent => "Tag " ++ tag ++ " references non-existent parent " ++ parent
  | .duplicatePackage package tag => "Duplicate package " ++ package ++ " in tag " ++ tag
  | .noBuild tag nvr => "Tag " ++ tag ++ " references non-existent build " ++ nvr
  | .duplicateGroup group tag => "Duplicate group " ++ group ++ " in tag " ++ tag
  | .duplicateMember package group tag =>
    "Duplicate package " ++ package ++ " in group " ++ group ++ " of tag " ++ tag
  | .buildExists nvr => "Build " ++ nvr ++ " already exists"
  | .tagExists name => "Tag " ++ name ++ " already exists"
  | .unknownParent name => "Unknown parent tag " ++ name
  | .unknownBuild nvr => "Unknown build " ++ nvr
  | .unreadableFile reason => "Failed to read seed file: " ++ reason

def toFailure : SeedError → Failure
  | .part f => f
  | e => { kind := .invalidInput, op := some "seed_parse", message := e.message }

end SeedError

/-- What a seed may refer to beside its own content. -/
structure SeedContext where
  hasTag : String → Bool
  hasBuild : Nvr → Bool

namespace SeedContext

/-- Nothing but the seed's own content. -/
def empty : SeedContext := ⟨fun _ => false, fun _ => false⟩

end SeedContext

/-! ### Checks -/

namespace Seed

/-- A check that fails with the failure of a part. -/
def partOf {α : Type} (r : Except Failure α) : Except SeedError α := r.mapError .part

/-- Checks every element of a list together with those before it. -/
def checkEach {α : Type} (check : List α → α → Except SeedError Unit) :
    List α → List α → Except SeedError Unit
  | _, [] => .ok ()
  | before, a :: rest => do
    check before a
    checkEach check (before ++ [a]) rest

/-- Refuses an element whose name occurs before it. -/
def unique {α : Type} (name : α → String) (error : String → SeedError) (before : List α) (a : α) :
    Except SeedError Unit :=
  if before.any fun b => name b == name a then .error (error (name a)) else .ok ()

def checkBuild (before : List SeedBuild) (b : SeedBuild) : Except SeedError Unit := do
  let _ ← partOf (BuildState.parse b.state)
  let nvr ← partOf (Nvr.parse b.nvr.display)
  if nvr ≠ b.nvr then throw (.dashInBuild b.nvr.display)
  unique (fun b => b.nvr.display) .duplicateBuild before b

def checkParent (s : Seed) (c : SeedContext) (tag : String) (p : SeedParent) :
    Except SeedError Unit := do
  if p.name = tag then throw (.selfInheritance tag)
  if !(s.tags.any fun t => t.name == p.name) && !c.hasTag p.name then
    throw (.noParent tag p.name)

/-- A build that a tag lists must be one of the seed or of the hub. -/
def checkTagging (s : Seed) (c : SeedContext) (tag nvr : String) : Except SeedError Unit := do
  let parsed ← partOf (Nvr.parse nvr)
  if !(s.builds.any fun b => b.nvr.display == nvr) && !c.hasBuild parsed then
    throw (.noBuild tag nvr)

def checkGroup (tag : String) (before : List SeedGroup) (g : SeedGroup) :
    Except SeedError Unit := do
  unique SeedGroup.name (.duplicateGroup · tag) before g
  checkEach (unique SeedMember.name (.duplicateMember · g.name tag)) [] g.members

def checkTag (s : Seed) (c : SeedContext) (t : SeedTag) : Except SeedError Unit := do
  t.parents.forM (checkParent s c t.name)
  checkEach (unique SeedPackage.name (.duplicatePackage · t.name)) [] t.packages
  t.builds.forM (checkTagging s c t.name)
  checkEach (checkGroup t.name) [] t.groups

/-- Checks a whole seed; the first thing that is wrong counts. -/
def check (s : Seed) (c : SeedContext) : Except SeedError Unit := do
  if s.schemaVersion ≠ 0 then throw (.schemaVersion s.schemaVersion)
  checkEach (unique SeedUser.name .duplicateUser) [] s.users
  checkEach checkBuild [] s.builds
  checkEach (unique SeedTag.name .duplicateTag) [] s.tags
  s.tags.forM (checkTag s c)

/-- The seed of a text, if it is one and passes the checks. -/
def parse (c : SeedContext) (yaml : String) : Except SeedError Seed :=
  match ofYaml? yaml with
  | none => .error .unreadable
  | some s => do
    s.check c
    return s

end Seed

end TagSync
