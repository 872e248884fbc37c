import TagSync.Build
import TagSync.Package

/-!
What a tag sees at one point of its history.

Entries are classified against the tag as they come in. When a key comes twice the first entry
stays, which is the nearest one in a walk over the inheritance.
-/

namespace TagSync

structure Snapshot where
  tag : TagInfo
  event : Option EventId := none
  packages : Keyed PackageEntry := .empty
  /-- Builds by their full names. -/
  builds : Keyed BuildEntry := .empty
  groups : Keyed GroupEntry := .empty
  deriving DecidableEq, Repr

namespace Snapshot

def ofTag (tag : TagInfo) : Snapshot := { tag }

def atEvent (s : Snapshot) (event : Option EventId) : Snapshot := { s with event }

def withPackages (s : Snapshot) (l : List PackageEntry) : Snapshot :=
  { s with
    packages := l.foldl (fun m e => m.insertNew e.name (e.stamp s.tag.id)) s.packages }

def withBuilds (s : Snapshot) (l : List BuildEntry) : Snapshot :=
  { s with builds := l.foldl (fun m e => m.insertNew e.nvr (e.stamp s.tag.id)) s.builds }

def withGroups (s : Snapshot) (l : List GroupEntry) : Snapshot :=
  { s with groups := l.foldl (fun m e => m.insertNew e.name (e.stamp s.tag.id)) s.groups }

def toJson (s : Snapshot) : Json :=
  .object [("tag", s.tag.toJson), ("event", .ofOption .int s.event),
    ("packages", .object (s.packages.map PackageEntry.toJson).entries),
    ("builds", .object (s.builds.map BuildEntry.toJson).entries),
    ("groups", .object (s.groups.map GroupEntry.toJson).entries)]

def layout : Json.Layout :=
  [("tag", .refused), ("event", .null), ("packages", .refused), ("builds", .refused),
    ("groups", .refused)]

def ofJson? (j : Json) : Option Snapshot := do
  let [tag, event, packages, builds, groups] ← j.fields? layout | none
  return ⟨← TagInfo.ofJson? tag, ← event.optional? Json.int64?,
    .ofList (← packages.entries? PackageEntry.ofJson?),
    .ofList (← builds.entries? BuildEntry.ofJson?),
    .ofList (← groups.entries? GroupEntry.ofJson?)⟩

end Snapshot

end TagSync
