import TagSync.Hub
import TagSync.Seed.Check
import TagSync.Seed.Digest

/-!
Filling a hub from a seed.

All content of a seed is stamped with one event, and all of it is taken or nothing.
-/

namespace TagSync

/-- What an import has brought. -/
structure ImportSummary where
  digest : String
  event : EventId
  users : Nat
  builds : Nat
  tags : Nat
  deriving DecidableEq, Repr

namespace ImportSummary

def toJson (s : ImportSummary) : Json :=
  .object [("digest", .string s.digest), ("event", .int s.event), ("users", .int s.users),
    ("builds", .int s.builds), ("tags", .int s.tags)]

end ImportSummary

namespace Tables

/-- What a seed may refer to on a hub. -/
def seedContext (t : Tables) : SeedContext :=
  ⟨fun name => (t.tagNamed? name).isSome, fun nvr => (t.buildNamed? nvr).isSome⟩

def refuseSeed {α : Type} (e : SeedError) : Except Failure α := .error e.toFailure

def importUser (t : Tables) (u : SeedUser) : Tables :=
  let (t, id) := t.ensureUser u.name
  u.perms.foldl (fun t perm => t.grant id perm) t

def importBuild (t : Tables) (b : SeedBuild) : Except Failure Tables := do
  if (t.buildNamed? b.nvr).isSome then refuseSeed (.buildExists b.nvr.display)
  let state ← BuildState.parse b.state
  return t.addBuild b.nvr state.text b.owner

/-- Makes a tag without its content. -/
def importTag (event : EventId) (t : Tables) (s : SeedTag) : Except Failure Tables :=
  if (t.tagNamed? s.name).isSome then refuseSeed (.tagExists s.name)
  else .ok (t.addTag s.name s.config event).1

def importParent (tag : TagId) (t : Tables) (p : SeedParent) : Except Failure Tables :=
  match t.tagNamed? p.name with
  | none => refuseSeed (.unknownParent p.name)
  | some parent =>
    if t.inheritance.any fun r => r.tag = tag && r.parent = parent.id then
      .error (Hub.storageFailure
        "UNIQUE constraint failed: tag_inheritance.tag_id, tag_inheritance.parent_id")
    else .ok { t with inheritance := t.inheritance ++ [⟨tag, parent.id, p.priority⟩] }

def importPackage (event : EventId) (tag : TagId) (t : Tables) (p : SeedPackage) : Tables :=
  { t with packages := t.packages.add event ⟨tag, p.name, p.owner, p.blocked, p.extraArches⟩ }

def importTagging (event : EventId) (tag : TagId) (t : Tables) (nvr : String) :
    Except Failure Tables := do
  let parsed ← Nvr.parse nvr
  match t.buildNamed? parsed with
  | none => refuseSeed (.unknownBuild nvr)
  | some b => return { t with taggings := t.taggings.add event ⟨tag, b.id⟩ }

def importGroup (event : EventId) (tag : TagId) (t : Tables) (g : SeedGroup) : Tables :=
  { t with
    groups := t.groups.add event ⟨tag, g.name, g.blocked⟩
    members := g.members.foldl (fun l m => l.add event ⟨tag, g.name, m.name, m.blocked⟩)
      t.members }

/-- Adds the content of a tag that was made before. -/
def importContent (event : EventId) (t : Tables) (s : SeedTag) : Except Failure Tables := do
  let some row := t.tagNamed? s.name | refuseSeed (.unknownParent s.name)
  let t ← s.parents.foldlM (importParent row.id) t
  let t := s.packages.foldl (importPackage event row.id) t
  let t ← s.builds.foldlM (importTagging event row.id) t
  return s.groups.foldl (importGroup event row.id) t

/-- Adds the content of a seed that passed its checks. All tags are made first, so that parents
may be declared after their children. -/
def importSeed (clock : Clock) (s : Seed) (t : Tables) :
    Except Failure (Tables × ImportSummary) := do
  let (t, event) := t.newEvent clock
  let t := s.users.foldl importUser t
  let t ← s.builds.foldlM importBuild t
  let t ← s.tags.foldlM (importTag event) t
  let t ← s.tags.foldlM (importContent event) t
  return (t, ⟨s.digest, event, s.users.length, s.builds.length, s.tags.length⟩)

end Tables

namespace Hub

/-- The seed of a text, checked against the hub. -/
def parseSeed (h : Hub) (yaml : String) : Except Failure Seed :=
  (Seed.parse h.tables.seedContext yaml).mapError SeedError.toFailure

/-- Imports a seed that passed its checks. -/
def importSeed (h : Hub) (s : Seed) : Except Failure ImportSummary × Hub :=
  h.transact (Tables.importSeed h.clock s)

/-- Imports a text; it is checked before anything else. -/
def importYaml (h : Hub) (yaml : String) : Except Failure ImportSummary × Hub :=
  match h.parseSeed yaml with
  | .ok s => h.importSeed s
  | .error e => (.error e, h)

end Hub

end TagSync
