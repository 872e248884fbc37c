import TagSync.Hub.Call

/-!
Hubs: sessions that store what they are told.

Every accepted call has an event of its own. A rejected call changes nothing, but it leaves a
transaction open: reads and further calls go on, and see each other, while all that needs a
transaction of its own fails. What happens from then on is only kept for good once the
transaction is settled.
-/

namespace TagSync

structure Hub where
  tables : Tables := .empty
  /-- While a transaction is open, the tables as they were before it. -/
  before : Option Tables := none
  /-- The name of the user who acts. -/
  user : String
  clock : Clock := .steady

namespace Hub

/-- The tables that stay if a transaction is never settled. -/
def durable (h : Hub) : Tables := h.before.getD h.tables

/-- A failure of the storage. -/
def storageFailure (message : String) : Failure :=
  { kind := .persistence, op := some "sqlite", message }

/-! ### Transactions -/

/-- Changes the tables as a whole or not at all. There must be no open transaction. -/
def transact {α : Type} (h : Hub) (f : Tables → Except Failure (Tables × α)) :
    Except Failure α × Hub :=
  if h.before.isSome then
    (.error (storageFailure "cannot start a transaction within a transaction"), h)
  else
    match f h.tables with
    | .ok (t, a) => (.ok a, { h with tables := t })
    | .error e => (.error e, h)

/-- Ends an open transaction and keeps what happened in it. -/
def settle (h : Hub) : Hub := { h with before := none }

/-! ### Tags -/

def tagExists (name : String) : Failure :=
  { kind := .alreadyExists, op := some "create_tag", tag := some name
    message := "A tag with the name " ++ name ++ " already exists" }

def noTag (id : TagId) : Failure := (SyncError.tagNotFound (TagRef.byId id).display).toFailure

/-- A new tag and the event it is made at. -/
def insertTag (clock : Clock) (name : String) (config : TagConfig) (t : Tables) :
    Except Failure (Tables × TagInfo × EventId) :=
  let (t, event) := t.newEvent clock
  let (t, id) := t.addTag name config event
  .ok (t, ⟨id, name, config⟩, event)

def createTag (h : Hub) (name : String) (config : TagConfig) :
    Except Failure (TagInfo × EventId) × Hub :=
  if (h.tables.tagNamed? name).isSome then (.error (tagExists name), h)
  else h.transact (insertTag h.clock name config)

/-- Overwrites the settings of a tag. -/
def editTag (h : Hub) (id : TagId) (config : TagConfig) : Except Failure Unit × Hub :=
  h.transact fun t =>
    if (t.tag? id).isSome then .ok (((t.setConfig id config).newEvent h.clock).1, ())
    else .error (noTag id)

/-- Notes down a repository that is made of a tag. -/
def newRepo (h : Hub) (tag : TagId) : Except Failure Int × Hub :=
  h.transact fun t =>
    if (t.tag? tag).isSome then
      let (t, event) := t.newEvent h.clock
      .ok (t.addRepo tag event)
    else .error (storageFailure "FOREIGN KEY constraint failed")

/-! ### Calls -/

/-- Whether the user may write to a tag. -/
def mayWrite (h : Hub) (tag : TagInfo) : Bool :=
  match tag.config.perm with
  | none => true
  | some perm => h.tables.hasPerm h.user "admin" || h.tables.hasPerm h.user perm

/-- One call of a request that the user may make. -/
def callOne (h : Hub) (tag : TagInfo) (flags : CallFlags) (o : Operation) : CallResult × Hub :=
  match h.tables.call h.clock tag flags o with
  | .ok t => (.ok (), { h with tables := t })
  | .error fault => (.error fault, { h with before := some h.durable })

/-- The calls of a request, in turn. -/
def callAll (h : Hub) (tag : TagInfo) (flags : CallFlags) :
    List Operation → List CallResult × Hub
  | [] => ([], h)
  | o :: rest =>
    let (result, h) := h.callOne tag flags o
    let (results, h) := h.callAll tag flags rest
    (result :: results, h)

def mayNotModify (user : String) (tag : TagInfo) : RemoteFault :=
  .generic ("user " ++ user ++ " may not modify tag " ++ tag.name)

/-- The report about a call, if it was rejected. -/
def refusal? (tag : TagInfo) (o : Operation) : CallResult → Option LogEvent
  | .ok _ => none
  | .error fault => some (.callRefused tag o fault.code)

/-- A request with several calls. If the user may not write to the tag every call is rejected,
and no transaction is left open. -/
def multicall (h : Hub) (id : TagId) (operations : List Operation) (flags : CallFlags) :
    Reply Hub (.multicall id operations flags) :=
  match h.tables.getTag (.byId id) none with
  | none => ⟨.error (noTag id), h, []⟩
  | some tag =>
    if h.mayWrite tag then
      let (results, next) := h.callAll tag flags operations
      ⟨.ok results, next, ((operations.zip results).filterMap fun p => refusal? tag p.1 p.2)⟩
    else ⟨.ok (operations.map fun _ => .error (mayNotModify h.user tag)), h, []⟩

/-! ### The session -/

/-- The answer of a listing, which needs the tag to exist. -/
def listing {α : Type} (h : Hub) (id : TagId) (a : Except Failure α) : Except Failure α :=
  if (h.tables.tag? id).isSome then a else .error (noTag id)

def session : Session Hub := fun h r =>
  match r with
  | .hasPerm perm => ⟨.ok (h.tables.hasPerm h.user perm), h, []⟩
  | .resolveEvent asOf =>
    match h.tables.resolveEvent asOf with
    | some e => ⟨.ok e, h, []⟩
    | none => ⟨.error (SyncError.eventNotFound asOf.display).toFailure, h, []⟩
  | .getTag tag event => ⟨.ok (h.tables.getTag tag event), h, []⟩
  | .listPackages id inherited event =>
    ⟨h.listing id (.ok (h.tables.listPackages id inherited event)), h, []⟩
  | .listBuilds id inherited latestOnly event =>
    ⟨h.listing id (h.tables.listBuilds id inherited latestOnly event), h, []⟩
  | .listGroups id event => ⟨h.listing id (.ok (h.tables.listGroups id event)), h, []⟩
  | .createTag name config =>
    match h.createTag name config with
    | (.ok (tag, event), h) => ⟨.ok tag, h, [.tagMade tag event]⟩
    | (.error e, h) => ⟨.error e, h, []⟩
  | .editTag id config =>
    let (result, h) := h.editTag id config
    ⟨result, h, []⟩
  | .multicall id operations flags => h.multicall id operations flags

end Hub

end TagSync
