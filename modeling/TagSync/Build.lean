import TagSync.Keyed
import TagSync.Nvr
import TagSync.Tag
import TagSync.Version

/-!
Builds tagged into a tag, their order, and the newest build of every package.
-/

namespace TagSync

inductive BuildState where
  | building
  | complete
  | deleted
  | failed
  | canceled
  deriving DecidableEq, Repr

namespace BuildState

def text : BuildState → String
  | .building => "BUILDING"
  | .complete => "COMPLETE"
  | .deleted => "DELETED"
  | .failed => "FAILED"
  | .canceled => "CANCELED"

def parse? : String → Option BuildState
  | "BUILDING" => some .building
  | "COMPLETE" => some .complete
  | "DELETED" => some .deleted
  | "FAILED" => some .failed
  | "CANCELED" => some .canceled
  | _ => none

def parse (text : String) : Except Failure BuildState :=
  match parse? text with
  | some s => .ok s
  | none => .error
    { kind := .invalidInput, op := some "parse_build_state"
      message := "unknown build state '" ++ text ++ "'" }

def toJson (s : BuildState) : Json := .string s.text

def ofJson? (j : Json) : Option BuildState := j.name?.bind parse?

end BuildState

/-- A build as a tag sees it. -/
structure BuildEntry where
  nvr : String
  packageName : String
  version : String
  release : String
  state : BuildState
  owner : String
  /-- The tag the build is tagged into. -/
  sourceTagId : TagId
  sourceTagName : String
  ownership : Ownership := default
  deriving DecidableEq, Repr

namespace BuildEntry

def isComplete (b : BuildEntry) : Bool := b.state = .complete

def stamp (dest : TagId) (b : BuildEntry) : BuildEntry :=
  { b with ownership := .classify b.sourceTagId dest }

def toJson (b : BuildEntry) : Json :=
  .object [("nvr", .string b.nvr), ("package_name", .string b.packageName),
    ("version", .string b.version), ("release", .string b.release), ("state", b.state.toJson),
    ("owner", .string b.owner), ("source_tag_id", .int b.sourceTagId),
    ("source_tag_name", .string b.sourceTagName), ("ownership", b.ownership.toJson)]

def layout : Json.Layout :=
  [("nvr", .refused), ("package_name", .refused), ("version", .refused), ("release", .refused),
    ("state", .refused), ("owner", .refused), ("source_tag_id", .refused),
    ("source_tag_name", .refused), ("ownership", .value (Ownership.toJson default))]

def ofJson? (j : Json) : Option BuildEntry := do
  let [nvr, package, version, release, state, owner, tagId, tagName, ownership] ←
    j.fields? layout | none
  return ⟨← nvr.string?, ← package.string?, ← version.string?, ← release.string?,
    ← BuildState.ofJson? state, ← owner.string?, ← tagId.int64?, ← tagName.string?,
    ← Ownership.ofJson? ownership⟩

/-- The order of two builds by version, then by release. -/
def compare (a b : BuildEntry) : Ordering :=
  (Version.compare a.version b.version).then (Version.compare a.release b.release)

/-- Builds in the order of their versions; equal ones by the text of their names. -/
def compareStrict (a b : BuildEntry) : Ordering :=
  (compare a b).then (Ord.compare a.nvr b.nvr)

/-- The order in which builds are listed in a plan: by package, then oldest first. -/
def compareListed (a b : BuildEntry) : Ordering :=
  (Ord.compare a.packageName b.packageName).then (compareStrict a b)

/-- The later of two builds; the first one when neither is later. -/
def newer (current build : BuildEntry) : BuildEntry :=
  if compareStrict build current = .gt then build else current

/-- Takes one more build into account, for a map from packages to their newest builds. -/
def keepNewest (best : Keyed BuildEntry) (build : BuildEntry) : Keyed BuildEntry :=
  match best.find? build.packageName with
  | some current => best.insert build.packageName (newer current build)
  | none => best.insert build.packageName build

/-- The newest build of every package, in the order of the packages' names. -/
def latest (builds : List BuildEntry) : List BuildEntry :=
  (builds.foldl keepNewest .empty).values

end BuildEntry

end TagSync
