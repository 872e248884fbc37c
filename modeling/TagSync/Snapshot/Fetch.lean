import TagSync.Plan
import TagSync.Session

/-!
Fetching what a tag sees from a hub.
-/

namespace TagSync

/-- The listings a fetch asks for. -/
structure FetchScope where
  packages : Bool := false
  builds : Bool := false
  groups : Bool := false
  /-- Lists the builds the tag inherits, too. -/
  inheritBuilds : Bool := false
  latestOnly : Bool := false
  deriving DecidableEq, Repr

namespace FetchScope

def source (s : ClassSelection) (inheritBuilds latestOnly : Bool) : FetchScope :=
  ⟨s.packages, s.builds, s.groups, inheritBuilds, latestOnly⟩

/-- On the side of the destination only its own builds matter, since no others can be
untagged. -/
def destination (s : ClassSelection) : FetchScope := source s false false

end FetchScope

/-- The tag of a reference; the dialog fails if there is none. -/
def resolveTag (tag : TagRef) (event : Option EventId) : Dialog TagInfo := do
  match ← Dialog.ask (.getTag tag event) with
  | some t => return t
  | none => Dialog.refuse (.tagNotFound tag.display)

namespace Snapshot

/-- Asks for the listings in scope. -/
def fetch (tag : TagInfo) (event : Option EventId) (scope : FetchScope) : Dialog Snapshot := do
  let packages ←
    if scope.packages then Dialog.ask (.listPackages tag.id true event) else pure []
  let builds ←
    if scope.builds then
      Dialog.ask (.listBuilds tag.id scope.inheritBuilds scope.latestOnly event)
    else pure []
  let groups ← if scope.groups then Dialog.ask (.listGroups tag.id event) else pure []
  let s := ((((ofTag tag).atEvent event).withPackages packages).withBuilds builds).withGroups groups
  Dialog.report (.snapshotFetched tag event s.packages.size s.builds.size s.groups.size)
  return s

end Snapshot

end TagSync
