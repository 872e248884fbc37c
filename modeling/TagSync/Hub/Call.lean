import TagSync.Hub.Listing
import TagSync.Operation
import TagSync.Session

/-!
What a hub does when it is called: each operation is accepted with new tables, or rejected with
a fault.

A call is judged by what the tag sees now. It is accepted or rejected as a whole.
-/

namespace TagSync.Tables

/-! ### Packages -/

/-- Puts a package record of the tag in the place of its own one. -/
def setPackage (t : Tables) (event : EventId) (r : PackageRow) : Tables :=
  { t with packages :=
      t.packages.replace event (fun x => x.tag = r.tag && x.package = r.package) r }

/-- Whether the tag has a package record of its own. -/
def ownsPackage (t : Tables) (tag : TagId) (package : String) : Bool :=
  t.packages.hasActive fun x => x.tag = tag && x.package = package

/-- A package that is blocked above the tag must be listed as blocked, or with force. -/
def addPackage (t : Tables) (tag : TagInfo) (flags : CallFlags) (event : EventId)
    (r : PackageRow) : Except RemoteFault Tables :=
  let blockedAbove := (t.package? tag.id none r.package).any PackageEntry.blocked
  if !flags.force && !t.ownsPackage tag.id r.package && blockedAbove && !r.blocked then
    .error (.generic ("package " ++ r.package ++ " is blocked in the inheritance of " ++ tag.name))
  else .ok (t.setPackage event r)

/-- The block keeps the owner and the arches that the tag sees. -/
def blockPackage (t : Tables) (tag : TagInfo) (event : EventId) (package : String) :
    Except RemoteFault Tables :=
  match t.package? tag.id none package with
  | none => .error (.notFound ("package " ++ package ++ " not present in tag " ++ tag.name))
  | some p => .ok (t.setPackage event ⟨tag.id, package, p.owner, true, p.extraArches⟩)

/-! ### Builds -/

def lookupBuild (t : Tables) (nvr : String) : Except RemoteFault BuildRow :=
  match Nvr.parse? nvr with
  | none => .error (.generic ("invalid build " ++ nvr))
  | some parsed =>
    match t.buildNamed? parsed with
    | none => .error (.notFound ("no such build: " ++ nvr))
    | some b => .ok b

/-- Whether a build is tagged into the tag itself, shown or not. -/
def isTagged (t : Tables) (tag : TagId) (build : Int) : Bool :=
  t.taggings.hasActive fun x => x.tag = tag && x.build = build

/-- Files a notice if the caller wants one. -/
def notifyIf (t : Tables) (flags : CallFlags) (n : Notice) : Tables :=
  if flags.notify then t.addNotice n else t

/-- Without force the tag must see the package of a build, and not blocked. -/
def checkListed (t : Tables) (tag : TagInfo) (package : String) : Except RemoteFault Unit :=
  match t.package? tag.id none package with
  | none => .error (.generic ("package " ++ package ++ " not in list for tag " ++ tag.name))
  | some p =>
    if p.blocked then
      .error (.generic ("package " ++ package ++ " is blocked in tag " ++ tag.name))
    else .ok ()

def tagBuild (t : Tables) (tag : TagInfo) (flags : CallFlags) (event : EventId)
    (nvr : String) : Except RemoteFault Tables := do
  let b ← t.lookupBuild nvr
  if !flags.force then t.checkListed tag b.nvr.name
  if t.isTagged tag.id b.id then
    throw (.conflict ("build " ++ nvr ++ " already tagged (" ++ tag.name ++ ")"))
  let t := { t with taggings := t.taggings.add event ⟨tag.id, b.id⟩ }
  return t.notifyIf flags ⟨tag.id, nvr, .tagged, event⟩

def untagBuild (t : Tables) (tag : TagInfo) (flags : CallFlags) (event : EventId)
    (nvr : String) : Except RemoteFault Tables := do
  let b ← t.lookupBuild nvr
  if !t.isTagged tag.id b.id then
    throw (.notFound ("build " ++ nvr ++ " not in tag " ++ tag.name))
  let t := { t with
    taggings := t.taggings.revoke event fun x => x.tag = tag.id && x.build = b.id }
  return t.notifyIf flags ⟨tag.id, nvr, .untagged, event⟩

/-! ### Groups -/

/-- Puts a group record of the tag in the place of its own one. -/
def setGroup (t : Tables) (event : EventId) (r : GroupRow) : Tables :=
  { t with groups := t.groups.replace event (fun x => x.tag = r.tag && x.group = r.group) r }

def noGroup (tag : TagInfo) (group : String) : RemoteFault :=
  .notFound ("group " ++ group ++ " not present in tag " ++ tag.name)

/-- Takes the tag's own record of a group away, and its own records of members. -/
def removeGroup (t : Tables) (tag : TagInfo) (event : EventId) (group : String) :
    Except RemoteFault Tables :=
  if t.groups.hasActive fun x => x.tag = tag.id && x.group = group then
    .ok { t with
      groups := t.groups.revoke event fun x => x.tag = tag.id && x.group = group
      members := t.members.revoke event fun x => x.tag = tag.id && x.group = group }
  else .error (.notFound ("group " ++ group ++ " is not listed directly on tag " ++ tag.name))

def blockGroup (t : Tables) (tag : TagInfo) (event : EventId) (group : String) :
    Except RemoteFault Tables :=
  if (t.group? tag.id group).isSome then .ok (t.setGroup event ⟨tag.id, group, true⟩)
  else .error (noGroup tag group)

/-- Puts a member record of the tag in the place of its own one; the tag must see the group,
and not blocked. -/
def setMember (t : Tables) (tag : TagInfo) (event : EventId) (r : MemberRow) :
    Except RemoteFault Tables :=
  if (t.group? tag.id r.group).any fun g => !g.blocked then
    .ok { t with
      members := t.members.replace event
        (fun x => x.tag = r.tag && x.group = r.group && x.package = r.package) r }
  else .error (noGroup tag r.group)

def removeMember (t : Tables) (tag : TagInfo) (event : EventId) (group package : String) :
    Except RemoteFault Tables :=
  let own (x : MemberRow) : Bool := x.tag = tag.id && x.group = group && x.package = package
  if t.members.hasActive own then .ok { t with members := t.members.revoke event own }
  else
    .error (.notFound ("package " ++ package ++ " is not listed directly in group " ++ group ++
      " on tag " ++ tag.name))

/-! ### All operations -/

/-- Carries an operation out on a tag that is not locked. -/
def carryOut (t : Tables) (tag : TagInfo) (flags : CallFlags) (event : EventId) :
    Operation → Except RemoteFault Tables
  | .addPackage package owner blocked extraArches =>
    t.addPackage tag flags event ⟨tag.id, package, owner, blocked, extraArches⟩
  | .blockPackage package => t.blockPackage tag event package
  | .addGroup group => .ok (t.setGroup event ⟨tag.id, group, false⟩)
  | .removeGroup group => t.removeGroup tag event group
  | .blockGroup group => t.blockGroup tag event group
  | .addGroupPackage group package => t.setMember tag event ⟨tag.id, group, package, false⟩
  | .removeGroupPackage group package => t.removeMember tag event group package
  | .blockGroupPackage group package => t.setMember tag event ⟨tag.id, group, package, true⟩
  | .tagBuild nvr => t.tagBuild tag flags event nvr
  | .untagBuild nvr => t.untagBuild tag flags event nvr

/-- One call with an event of its own. The settings of the tag are those at the start of the
request. -/
def call (t : Tables) (clock : Clock) (tag : TagInfo) (flags : CallFlags) (o : Operation) :
    Except RemoteFault Tables :=
  if tag.isLocked && !flags.force then .error (.locked ("tag " ++ tag.name ++ " is locked"))
  else
    let (t, event) := t.newEvent clock
    t.carryOut tag flags event o

end TagSync.Tables
