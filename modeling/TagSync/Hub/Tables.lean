import TagSync.Hub.History
import TagSync.Moment
import TagSync.Nvr

/-!
What a hub stores.

Every table is a list in the order in which its rows were made. Events, users, tags, builds,
repositories and notices have numbers, which count from one.
-/

namespace TagSync

structure UserRow where
  id : Int
  name : String
  deriving DecidableEq, Repr

/-- A permission that a user holds. -/
structure PermRow where
  user : Int
  perm : String
  deriving DecidableEq, Repr

/-- A tag; unlike its content its settings have no history. -/
structure TagRow where
  id : TagId
  name : String
  created : EventId
  config : TagConfig
  deriving DecidableEq, Repr

structure InheritanceRow where
  tag : TagId
  parent : TagId
  priority : Int
  deriving DecidableEq, Repr

structure BuildRow where
  id : Int
  nvr : Nvr
  /-- The state as it is stored; it need not be one. -/
  state : String
  owner : String
  deriving DecidableEq, Repr

structure PackageRow where
  tag : TagId
  package : String
  owner : String
  blocked : Bool
  extraArches : Option String
  deriving DecidableEq, Repr

/-- A build that is tagged into a tag. -/
structure TaggingRow where
  tag : TagId
  build : Int
  deriving DecidableEq, Repr

structure GroupRow where
  tag : TagId
  group : String
  blocked : Bool
  deriving DecidableEq, Repr

structure MemberRow where
  tag : TagId
  group : String
  package : String
  blocked : Bool
  deriving DecidableEq, Repr

/-- A repository that was made of a tag. -/
structure RepoRow where
  id : Int
  tag : TagId
  created : EventId
  deriving DecidableEq, Repr

inductive NoticeKind where
  | tagged
  | untagged
  deriving DecidableEq, Repr

def NoticeKind.text : NoticeKind → String
  | .tagged => "tag"
  | .untagged => "untag"

/-- A notice about a build that somebody asked for. -/
structure Notice where
  tag : TagId
  nvr : String
  kind : NoticeKind
  event : EventId
  deriving DecidableEq, Repr

structure Tables where
  events : List EventInfo := []
  users : List UserRow := []
  /-- How many numbers were given out for users; asking for a user that is there takes one,
  too. -/
  userNumbers : Int := 0
  perms : List PermRow := []
  tags : List TagRow := []
  inheritance : List InheritanceRow := []
  builds : List BuildRow := []
  packages : History PackageRow := []
  taggings : History TaggingRow := []
  groups : History GroupRow := []
  members : History MemberRow := []
  repos : List RepoRow := []
  notices : List Notice := []

/-- Where the times of events come from. -/
structure Clock where
  /-- The time the clock shows at an event. -/
  reading : EventId → Float
  /-- The first time that lies ahead of the clock at an event. -/
  horizon : EventId → Float

namespace Clock

/-- A clock that moves on by ten seconds with every event. -/
def steady : Clock :=
  ⟨fun id => 1700000000.0 + 10.0 * Float.ofInt id, fun _ => 3000000000.0⟩

/-- A clock on a wall: what it does not show yet lies ahead of it. -/
def wall (reading : EventId → Float) : Clock := ⟨reading, reading⟩

end Clock

namespace TagRow

def info (t : TagRow) : TagInfo := ⟨t.id, t.name, t.config⟩

end TagRow

namespace Tables

def empty : Tables := {}

/-! ### Looking rows up -/

def tag? (t : Tables) (id : TagId) : Option TagRow := t.tags.find? (·.id = id)

def tagNamed? (t : Tables) (name : String) : Option TagRow := t.tags.find? (·.name = name)

/-- A tag that existed at an event, with the settings it has now. -/
def getTag (t : Tables) (tag : TagRef) (event : Option EventId) : Option TagInfo :=
  let row := match tag with
    | .byId id => t.tag? id
    | .byName name => t.tagNamed? name
  (row.filter fun r => event.all fun e => r.created ≤ e).map TagRow.info

def build? (t : Tables) (id : Int) : Option BuildRow := t.builds.find? (·.id = id)

def buildNamed? (t : Tables) (nvr : Nvr) : Option BuildRow := t.builds.find? (·.nvr = nvr)

def hasPerm (t : Tables) (user perm : String) : Bool :=
  t.users.any fun u => u.name == user && t.perms.contains ⟨u.id, perm⟩

def event? (t : Tables) (id : EventId) : Option EventInfo := t.events.find? (·.id = id)

/-- The later of two events; of two at one time the second. -/
def later (best : Option EventInfo) (e : EventInfo) : Option EventInfo :=
  match best with
  | none => some e
  | some b => if b.ts ≤ e.ts then some e else some b

/-- The event that a point of history means. -/
def resolveEvent (t : Tables) : AsOf → Option EventInfo
  | .event id => t.event? id
  | .timestamp seconds => (t.events.filter fun e => e.ts ≤ seconds).foldl later none
  | .repo id => (t.repos.find? (·.id = id)).bind fun r => t.event? r.created

/-! ### Adding rows -/

/-- The time of the next event: what the clock shows, unless an event lies ahead of it. -/
def nextTime (t : Tables) (clock : Clock) (id : EventId) : Float :=
  match t.events.foldl later none with
  | some e => if clock.horizon id ≤ e.ts then e.ts else clock.reading id
  | none => clock.reading id

def newEvent (t : Tables) (clock : Clock) : Tables × EventId :=
  let id : EventId := t.events.length + 1
  ({ t with events := t.events ++ [⟨id, t.nextTime clock id⟩] }, id)

/-- A user of a name, new if need be. -/
def ensureUser (t : Tables) (name : String) : Tables × Int :=
  let next := t.userNumbers + 1
  match t.users.find? (·.name = name) with
  | some u => ({ t with userNumbers := next }, u.id)
  | none => ({ t with userNumbers := next, users := t.users ++ [⟨next, name⟩] }, next)

def grant (t : Tables) (user : Int) (perm : String) : Tables :=
  if t.perms.contains ⟨user, perm⟩ then t else { t with perms := t.perms ++ [⟨user, perm⟩] }

def addTag (t : Tables) (name : String) (config : TagConfig) (event : EventId) : Tables × TagId :=
  let id : TagId := t.tags.length + 1
  ({ t with tags := t.tags ++ [⟨id, name, event, config⟩] }, id)

def setConfig (t : Tables) (id : TagId) (config : TagConfig) : Tables :=
  { t with tags := t.tags.map fun r => if r.id = id then { r with config } else r }

def addBuild (t : Tables) (nvr : Nvr) (state owner : String) : Tables :=
  { t with builds := t.builds ++ [⟨t.builds.length + 1, nvr, state, owner⟩] }

def addRepo (t : Tables) (tag : TagId) (event : EventId) : Tables × Int :=
  let id : Int := t.repos.length + 1
  ({ t with repos := t.repos ++ [⟨id, tag, event⟩] }, id)

def addNotice (t : Tables) (notice : Notice) : Tables := { t with notices := t.notices ++ [notice] }

end Tables

end TagSync
