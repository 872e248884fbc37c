import TagSync.Failure
import TagSync.Schema
import TagSync.Sha256
import TagSync.Sort

/-!
Bringing a database up to date.

A database records the steps it has taken, each with the checksum of its text. A step is taken
in one piece: if one of its statements fails, nothing of it stays. Names of tables do not differ
by the case of ASCII letters, so a foreign table may stand where the record should be. Then there
is no record, and no step can be taken.
-/

namespace TagSync

/-- A step that was taken. The checksum may have been lost. -/
structure AppliedMigration where
  id : String
  checksum : Option String
  deriving DecidableEq, Repr

/-- What a database holds, as far as its making is concerned. -/
structure Database where
  /-- The record of the steps; before the first one there is not even that. -/
  applied : Option (List AppliedMigration) := none
  /-- The tables beside the record. -/
  tables : List String := []
  indexes : List String := []
  deriving DecidableEq, Repr

def Migration.checksum (m : Migration) : String := Sha256.hexDigest m.text.toUTF8

namespace Database

def empty : Database := {}

/-- The name of the table that records the steps. -/
def recordName : String := "schema_version"

/-- Whether two names are one. -/
def sameName (a b : String) : Bool := a.toLower == b.toLower

def hasTable (db : Database) (name : String) : Bool :=
  (db.applied.isSome && sameName recordName name) || db.tables.any (sameName name)

def hasIndex (db : Database) (name : String) : Bool := db.indexes.any (sameName name)

/-- Runs a statement; it fails with a reason if its name is taken. -/
def execute (db : Database) (s : SchemaStatement) : Except String Database :=
  if s.isTable then
    if db.hasTable s.name then .error ("table " ++ s.name ++ " already exists")
    else if db.hasIndex s.name then .error ("there is already an index named " ++ s.name)
    else .ok { db with tables := db.tables ++ [s.name] }
  else
    if db.hasTable s.name then .error ("there is already a table named " ++ s.name)
    else if db.hasIndex s.name then .error ("index " ++ s.name ++ " already exists")
    else .ok { db with indexes := db.indexes ++ [s.name] }

/-- Makes a record unless there is a table of its name. -/
def withRecord (db : Database) : Database :=
  if db.hasTable recordName then db else { db with applied := some [] }

def record (db : Database) : List AppliedMigration := db.applied.getD []

/-- What comes of a query for a column of the record if there is no record. -/
def noRecord (db : Database) (column clause : String) : Failure :=
  { kind := .persistence, op := some "sqlite"
    message :=
      if db.hasTable recordName then
        "no such column: " ++ column ++ " in SELECT " ++ column ++ " FROM " ++ recordName ++ " " ++
          clause ++ " at offset 7"
      else "no such table: " ++ recordName }

/-- The record, as a query for one of its columns finds it. -/
def query (db : Database) (column clause : String) : Except Failure (List AppliedMigration) :=
  match db.applied with
  | some l => .ok l
  | none => .error (db.noRecord column clause)

def checksumMismatch (id expected found : String) : Failure :=
  { kind := .persistence, op := some "migration_checksum"
    message := "Checksum mismatch for migration " ++ id ++ ": expected " ++ expected ++ ", got " ++
      found }

def migrationFailure (id reason : String) : Failure :=
  { kind := .persistence, op := some "migration"
    message := "Migration " ++ id ++ " failed: " ++ reason }

/-- Takes a step unless it is recorded. -/
def step (db : Database) (m : Migration) : Except Failure Database := do
  let record ← db.query "checksum" "WHERE migration_id = ?"
  match record.find? (·.id == m.id) with
  | some { checksum := some expected, .. } =>
    if expected = m.checksum then .ok db else .error (checksumMismatch m.id expected m.checksum)
  | some { checksum := none, .. } => .ok db
  | none =>
    match m.statements.foldlM execute db with
    | .ok made => .ok { made with applied := some (record ++ [⟨m.id, some m.checksum⟩]) }
    | .error reason => .error (migrationFailure m.id reason)

/-- Takes steps in turn until one fails. -/
def steps (db : Database) : List Migration → Database × Except Failure Unit
  | [] => (db, .ok ())
  | m :: rest =>
    match db.step m with
    | .ok next => steps next rest
    | .error f => (db, .error f)

/-- Brings the database up to date; what it has become, and how that ended. -/
def migrate (db : Database) : Database × Except Failure Unit :=
  db.withRecord.steps Schema.migrations

/-! ### Looking at a database and meddling with it -/

/-- The identifiers of the steps that are recorded. -/
def appliedIds (db : Database) : Except Failure (List String) :=
  (db.query "migration_id" "ORDER BY id").map fun l => l.map AppliedMigration.id

/-- The names of all tables, sorted. -/
def tableNames (db : Database) : List String :=
  sortBy id ((if db.applied.isSome then [recordName] else []) ++ db.tables)

/-- Overwrites all recorded checksums. -/
def setChecksum (db : Database) (checksum : Option String) : Database :=
  { db with applied := db.applied.map fun l => l.map fun m => { m with checksum } }

/-- Empties the record. -/
def forget (db : Database) : Database := { db with applied := db.applied.map fun _ => [] }

/-- Whether a name is kept for tables that nobody makes. -/
def isReserved (name : String) : Bool := name.toLower.toList.take 7 = "sqlite_".toList

/-- Makes a table that does not belong to a hub. -/
def addForeignTable (db : Database) (name : String) : Except String Database :=
  if isReserved name then .error ("object name reserved for internal use: " ++ name)
  else db.execute (.table name [])

end Database

end TagSync
