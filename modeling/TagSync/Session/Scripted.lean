import TagSync.Session

/-!
A session that answers from a script, for trying runs without a hub.

It lists what it was given, whatever else is asked for; it rejects the calls it was told to
reject; and it can drop requests, break methods, and answer with too many or too few results.
-/

namespace TagSync

/-- A change that a scripted session was asked for. -/
inductive ScriptedWrite where
  | createTag (tag : TagInfo)
  | editTag (tag : TagId) (config : TagConfig)
  | multicall (tag : TagId) (operations : List String) (flags : CallFlags)

structure Scripted where
  perms : List String := []
  tags : List TagInfo := []
  packages : List (String × List PackageEntry) := []
  builds : List (String × List BuildEntry) := []
  groups : List (String × List GroupEntry) := []
  events : List EventInfo := []
  /-- The faults of calls, by the text of the call. -/
  faults : List (String × RemoteFault) := []
  /-- Results to add to every answer, or to take off its end if negative. -/
  extraResults : Int := 0
  /-- After so many requests none is delivered any more. -/
  undeliverableAfter : Option Int := none
  /-- Methods that always fail. -/
  broken : List String := []
  /-- The requests delivered so far. -/
  delivered : Nat := 0
  reads : List String := []
  writes : List ScriptedWrite := []

namespace Scripted

def eventText (event : Option EventId) : String :=
  match event with
  | some e => toString e
  | none => "-"

/-- A read as it is noted down. -/
def readText : Request → String
  | .hasPerm perm => "has_perm(" ++ perm ++ ")"
  | .resolveEvent asOf => "resolve_event(" ++ asOf.display ++ ")"
  | .getTag tag event => "get_tag(" ++ tag.display ++ ", " ++ eventText event ++ ")"
  | .listPackages tag inherited event =>
    "list_packages(" ++ toString tag ++ ", " ++ toString inherited ++ ", " ++ eventText event ++ ")"
  | .listBuilds tag inherited latestOnly event =>
    "list_builds(" ++ toString tag ++ ", " ++ toString inherited ++ ", " ++ toString latestOnly ++
      ", " ++ eventText event ++ ")"
  | .listGroups tag event => "list_groups(" ++ toString tag ++ ", " ++ eventText event ++ ")"
  | _ => ""

def method : Request → String
  | .hasPerm _ => "has_perm"
  | .resolveEvent _ => "resolve_event"
  | .getTag .. => "get_tag"
  | .listPackages .. => "list_packages"
  | .listBuilds .. => "list_builds"
  | .listGroups .. => "list_groups"
  | .createTag .. => "create_tag"
  | .editTag .. => "edit_tag"
  | .multicall .. => "multicall"

/-- The event a selector finds; repositories are unknown. -/
def findEvent (events : List EventInfo) : AsOf → Option EventInfo
  | .event id => events.find? (·.id = id)
  | .timestamp seconds => (events.filter fun e => e.ts ≤ seconds).getLast?
  | .repo _ => none

/-- One result for every call, and then as many more or fewer as the script says. -/
def results (s : Scripted) (operations : List Operation) : List CallResult :=
  let own : List CallResult := operations.map fun o =>
    match s.faults.lookup o.display with
    | some fault => .error fault
    | none => .ok ()
  if 0 ≤ s.extraResults then own ++ List.replicate s.extraResults.toNat (.ok ())
  else own.take (own.length - s.extraResults.natAbs)

/-- The answer of a session none of whose methods is broken. -/
def answer (s : Scripted) : (r : Request) → Reply Scripted r
  | .hasPerm perm => ⟨.ok (s.perms.contains perm), s, []⟩
  | .resolveEvent asOf =>
    match findEvent s.events asOf with
    | some e => ⟨.ok e, s, []⟩
    | none => ⟨.error { kind := .notFound, message := "no event" }, s, []⟩
  | .getTag tag _ =>
    let found : Option TagInfo :=
      match tag with
      | .byId id => s.tags.find? (·.id = id)
      | .byName name => s.tags.find? (·.name = name)
    ⟨.ok found, s, []⟩
  | .listPackages tag _ _ => ⟨.ok ((s.packages.lookup (toString tag)).getD []), s, []⟩
  | .listBuilds tag _ _ _ => ⟨.ok ((s.builds.lookup (toString tag)).getD []), s, []⟩
  | .listGroups tag _ => ⟨.ok ((s.groups.lookup (toString tag)).getD []), s, []⟩
  | .createTag name config =>
    let largest := ((s.tags.map TagInfo.id).max?).getD 0
    let tag : TagInfo := ⟨largest + 100, name, config⟩
    ⟨.ok tag, { s with tags := s.tags ++ [tag], writes := s.writes ++ [.createTag tag] }, []⟩
  | .editTag tag config =>
    ⟨.ok (), { s with writes := s.writes ++ [.editTag tag config] }, []⟩
  | .multicall tag operations flags =>
    if s.undeliverableAfter.any fun n => n ≤ (s.delivered : Int) then
      ⟨.error { kind := .transport, message := "connection reset" }, s, []⟩
    else
      ⟨.ok (s.results operations),
        { s with
          delivered := s.delivered + 1
          writes := s.writes ++
            [.multicall tag (operations.map Operation.display) flags] }, []⟩

/-- Notes the reads down, and fails where a method is broken. -/
def session : Session Scripted := fun s r =>
  let s := if r.isWrite then s else { s with reads := s.reads ++ [readText r] }
  if s.broken.contains (method r) then
    ⟨.error { kind := .persistence, op := some (method r), message := "broken" }, s, []⟩
  else answer s r

end Scripted

end TagSync
