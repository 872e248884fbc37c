import TagSync.Json.Printer
import TagSync.Seed
import TagSync.Sha256
import TagSync.Sort

/-!
The digest of a seed.

Two seeds that say the same in another order have one digest: it is taken over the text of the
seed with its lists sorted by name. Only the order in which a tag lists its builds is content,
since it tells which build is the newest.
-/

namespace TagSync

/-- Whether a build comes before another or beside it, by its three parts. -/
def SeedBuild.le (a b : SeedBuild) : Bool :=
  ((compare a.package b.package).then
    ((compare a.version b.version).then (compare a.release b.release))).isLE

def SeedUser.canonical (u : SeedUser) : SeedUser := { u with perms := sortBy id u.perms }

def SeedGroup.canonical (g : SeedGroup) : SeedGroup :=
  { g with members := sortBy SeedMember.name g.members }

def SeedTag.canonical (t : SeedTag) : SeedTag :=
  { t with
    parents := sortBy SeedParent.name t.parents
    packages := sortBy SeedPackage.name t.packages
    groups := (sortBy SeedGroup.name t.groups).map SeedGroup.canonical }

namespace Seed

/-- The seed with its lists sorted. -/
def canonical (s : Seed) : Seed :=
  { s with
    users := (sortBy SeedUser.name s.users).map SeedUser.canonical
    builds := sort SeedBuild.le s.builds
    tags := (sortBy SeedTag.name s.tags).map SeedTag.canonical }

/-- The text the digest is taken over. -/
def canonicalText (s : Seed) : String := s.canonical.toJson.render

/-- The digest in hexadecimal digits. -/
def digest (s : Seed) : String := Sha256.hexDigest s.canonicalText.toUTF8

end Seed

end TagSync
