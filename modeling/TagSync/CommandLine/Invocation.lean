import TagSync.Clone
import TagSync.CommandLine.Arguments
import TagSync.Decimal.Reader

/-!
What a command line asks for.

The options that name the hub and the user may stand at every level; the deepest one counts, and
all of them count more than a variable of the environment.
-/

namespace TagSync.CommandLine

inductive Command where
  /-- Imports a seed file, or all seed files of a directory. -/
  | importSeed (path : String)
  | cloneTag (options : CloneOptions) (json : Bool)

structure Invocation where
  /-- The address of the hub. -/
  db : String
  user : Option String
  command : Command

/-- A signed integer of 64 bits in decimal digits. -/
def int64? (s : String) : Option Int :=
  let (negative, digits) :=
    match s.toList with
    | '-' :: ds => (true, ds)
    | '+' :: ds => (false, ds)
    | ds => (false, ds)
  if digits.isEmpty || !digits.all Char.isDigit then none
  else
    let n : Int := Decimal.ofDigits digits
    let n := if negative then -n else n
    if fitsSigned 64 n then some n else none

/-! ### Options of every level -/

structure Globals where
  db : Option String := none
  user : Option String := none

namespace Globals

/-- The options of every level. Nothing is logged, so that how to log makes no difference. -/
def options {σ : Type} (change : (Globals → Globals) → σ → σ) : List (OptionRule σ) :=
  [⟨"db", none, .setting false fun v s =>
      if v.isEmpty then none else some (change (fun g => { g with db := some v }) s)⟩,
    ⟨"user", none, .setting false fun v s => some (change (fun g => { g with user := some v }) s)⟩,
    ⟨"log-json", none, .switch fun s => s⟩,
    ⟨"help", some 'h', .help⟩]

def dbVariable : String := "TAGCLONE_DB"

def userVariable : String := "TAGCLONE_USER"

def standardDb : String := ".tagclone/hub.db"

/-- A level that does not name the hub looks into the environment, and the name there must not
be empty. -/
def checkEnv {σ : Type} (env : String → Option String) (r : Reading σ) :
    Except Stop Unit :=
  if !r.given.contains "db" && env dbVariable = some "" then .error .misuse else .ok ()

/-- A command with the options of every level. -/
def invoke (g : Globals) (env : String → Option String) (command : Command) : Invocation :=
  ⟨(g.db.or (env dbVariable)).getD standardDb, g.user.or (env userVariable), command⟩

end Globals

/-! ### Levels -/

/-- The whole program. -/
def program : Level Globals :=
  ⟨"[OPTIONS] <seed|clone-tag|help>", Globals.options id, .command⟩

def seed : Level Globals := ⟨"seed [OPTIONS] <import|help>", Globals.options id, .command⟩

structure ImportSettings where
  globals : Globals
  path : Option String := none

namespace ImportSettings

/-- Takes one path. -/
def addPath (path : String) (s : ImportSettings) : Option ImportSettings :=
  if s.path.isSome || path.isEmpty then none else some { s with path := some path }

end ImportSettings

def seedImport : Level ImportSettings :=
  ⟨"seed import [OPTIONS] <PATH>",
    Globals.options fun f s => { s with globals := f s.globals },
    .value ImportSettings.addPath⟩

structure CloneSettings where
  globals : Globals
  tags : List String := []
  /-- The classes that were named. -/
  classes : ClassSelection := {}
  all : Bool := false
  latestOnly : Bool := false
  inheritBuilds : Bool := false
  delete : Bool := true
  event : Option Int := none
  ts : Option Float := none
  repo : Option Int := none
  flags : CallFlags := {}
  verbose : Bool := false
  dryRun : Bool := false
  batch : Int := 1000
  json : Bool := false

namespace CloneSettings

/-- Takes two tags. -/
def addTag (tag : String) (s : CloneSettings) : Option CloneSettings :=
  if s.tags.length < 2 then some { s with tags := s.tags ++ [tag] } else none

/-- All classes unless some are named. -/
def selection (s : CloneSettings) : ClassSelection :=
  if s.all || s.classes = {} then .all else s.classes

/-- At most one point of history may be given. -/
def asOf (s : CloneSettings) : Except Stop (Option AsOf) :=
  match s.event, s.ts, s.repo with
  | none, none, none => .ok none
  | some id, none, none => .ok (some (.event id))
  | none, some ts, none => .ok (some (.timestamp ts))
  | none, none, some id => .ok (some (.repo id))
  | _, _, _ => .error .misuse

def command (s : CloneSettings) : Except Stop Command := do
  let [src, dst] := s.tags | .error .misuse
  return .cloneTag {
    src := .byName src
    dst := .byName dst
    selection := s.selection
    latestOnly := s.latestOnly
    inheritBuilds := s.inheritBuilds
    delete := s.delete
    asOf := ← s.asOf
    verbose := s.verbose
    dryRun := s.dryRun
    flags := s.flags
    batch := s.batch } s.json

end CloneSettings

def cloneTag : Level CloneSettings :=
  ⟨"clone-tag [OPTIONS] <SRC> <DST>",
    [⟨"config", none, .switch fun s => { s with classes := { s.classes with config := true } }⟩,
      ⟨"groups", none, .switch fun s => { s with classes := { s.classes with groups := true } }⟩,
      ⟨"pkgs", none, .switch fun s => { s with classes := { s.classes with packages := true } }⟩,
      ⟨"builds", none, .switch fun s => { s with classes := { s.classes with builds := true } }⟩,
      ⟨"all", none, .switch fun s => { s with all := true }⟩,
      ⟨"latest-only", none, .switch fun s => { s with latestOnly := true }⟩,
      ⟨"inherit-builds", none, .switch fun s => { s with inheritBuilds := true }⟩,
      ⟨"no-delete", none, .switch fun s => { s with delete := false }⟩,
      ⟨"event", none, .setting false fun v s =>
        (int64? v).map fun id => { s with event := some id }⟩,
      ⟨"ts", none, .setting false fun v s =>
        (Decimal.parse? v).map fun ts => { s with ts := some ts }⟩,
      ⟨"repo", none, .setting false fun v s =>
        (int64? v).map fun id => { s with repo := some id }⟩,
      ⟨"notify", none, .switch fun s => { s with flags := { s.flags with notify := true } }⟩,
      ⟨"force", some 'f', .switch fun s => { s with flags := { s.flags with force := true } }⟩,
      ⟨"verbose", some 'v', .switch fun s => { s with verbose := true }⟩,
      ⟨"test", none, .switch fun s => { s with dryRun := true }⟩,
      ⟨"batch", none, .setting true fun v s => (int64? v).map fun batch => { s with batch }⟩,
      ⟨"json", none, .switch fun s => { s with json := true }⟩] ++
      Globals.options fun f s => { s with globals := f s.globals },
    .value CloneSettings.addTag⟩

/-- The help text about a command. -/
def helpOn : List String → Stop
  | [] | ["help"] => .help program.help
  | ["seed"] | ["seed", "help"] => .help seed.help
  | ["seed", "import"] => .help seedImport.help
  | ["clone-tag"] => .help cloneTag.help
  | _ => .misuse

/-! ### Reading a whole command line -/

namespace Invocation

variable (env : String → Option String)

def parseImport (g : Globals) (words : List String) : Except Stop Invocation := do
  let (r, _) ← seedImport.read words ⟨⟨g, none⟩, []⟩
  Globals.checkEnv env r
  let some path := r.settings.path | .error .misuse
  return r.settings.globals.invoke env (.importSeed path)

def parseSeed (g : Globals) (words : List String) : Except Stop Invocation := do
  let (r, next) ← seed.read words ⟨g, []⟩
  match next with
  | some ("import", rest) => do
    let i ← parseImport env r.settings rest
    Globals.checkEnv env r
    return i
  | some ("help", rest) => .error (helpOn ("seed" :: rest))
  | _ => .error .misuse

def parseClone (g : Globals) (words : List String) : Except Stop Invocation := do
  let (r, _) ← cloneTag.read words ⟨{ globals := g }, []⟩
  Globals.checkEnv env r
  return r.settings.globals.invoke env (← r.settings.command)

/-- What a command line asks for, in an environment of named values. -/
def parse (words : List String) : Except Stop Invocation := do
  let (r, next) ← program.read words ⟨{}, []⟩
  match next with
  | some ("seed", rest) => do
    let i ← parseSeed env r.settings rest
    Globals.checkEnv env r
    return i
  | some ("clone-tag", rest) => do
    let i ← parseClone env r.settings rest
    Globals.checkEnv env r
    return i
  | some ("help", rest) => .error (helpOn rest)
  | _ => .error .misuse

end Invocation

end TagSync.CommandLine
