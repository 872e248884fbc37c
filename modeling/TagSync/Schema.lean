/-!
The tables of a hub's database.

A listing is versioned: a row is active at an event if it was created at or before it and is not
revoked until after it.
-/

namespace TagSync

/-- A statement that makes a table or an index. -/
inductive SchemaStatement where
  /-- A table by the lines that describe its columns and keys. -/
  | table (name : String) (lines : List String)
  | index (name target columns : String)

namespace SchemaStatement

def name : SchemaStatement → String
  | .table name _ => name
  | .index name _ _ => name

def isTable : SchemaStatement → Bool
  | .table .. => true
  | .index .. => false

/-- The statement as text. What does not fit a line of a hundred characters is broken before
the table an index is on. -/
def text : SchemaStatement → String
  | .table name lines =>
    "CREATE TABLE " ++ name ++ " (\n    " ++ String.intercalate ",\n    " lines ++ "\n);\n"
  | .index name target columns =>
    let start := "CREATE INDEX " ++ name
    let rest := "ON " ++ target ++ " (" ++ columns ++ ");\n"
    if start.length + rest.length ≤ 100 then start ++ " " ++ rest else start ++ "\n    " ++ rest

end SchemaStatement

/-- A step in the making of a database. -/
structure Migration where
  id : String
  /-- What the text of the step opens with. -/
  heading : String
  statements : List SchemaStatement

namespace Migration

def text (m : Migration) : String :=
  m.heading ++ String.join (m.statements.map fun s => "\n" ++ s.text)

end Migration

namespace Schema

def number : String := "id INTEGER PRIMARY KEY AUTOINCREMENT"

def tagColumn : String := "tag_id INTEGER NOT NULL REFERENCES tags(id)"

def createColumn : String := "create_event INTEGER NOT NULL REFERENCES events(id)"

def revokeColumn : String := "revoke_event INTEGER REFERENCES events(id)"

def blockedColumn : String := "blocked INTEGER NOT NULL DEFAULT 0"

def initial : Migration where
  id := "001_initial_schema"
  heading := "-- Local hub schema\n--\n-- Listings are versioned: a row is active at event E " ++
    "when\n-- create_event <= E and (revoke_event IS NULL or revoke_event > E).\n"
  statements := [
    .table "events" [number, "time REAL NOT NULL"],
    .table "users" [number, "name TEXT NOT NULL UNIQUE"],
    .table "user_perms" ["user_id INTEGER NOT NULL REFERENCES users(id)", "perm TEXT NOT NULL",
      "PRIMARY KEY (user_id, perm)"],
    .table "tags" [number, "name TEXT NOT NULL UNIQUE", createColumn, "arches TEXT",
      "locked INTEGER NOT NULL DEFAULT 0", "perm TEXT",
      "maven_support INTEGER NOT NULL DEFAULT 0", "maven_include_all INTEGER NOT NULL DEFAULT 0"],
    .table "tag_inheritance" [tagColumn, "parent_id INTEGER NOT NULL REFERENCES tags(id)",
      "priority INTEGER NOT NULL", "PRIMARY KEY (tag_id, parent_id)"],
    .table "builds" [number, "package TEXT NOT NULL", "version TEXT NOT NULL",
      "release TEXT NOT NULL", "state TEXT NOT NULL", "owner TEXT NOT NULL",
      "UNIQUE (package, version, release)"],
    .table "tag_packages" [tagColumn, "package TEXT NOT NULL", "owner TEXT NOT NULL",
      blockedColumn, "extra_arches TEXT", createColumn, revokeColumn],
    .index "idx_tag_packages_active" "tag_packages" "tag_id, package, revoke_event",
    .table "tag_listing" [tagColumn, "build_id INTEGER NOT NULL REFERENCES builds(id)",
      createColumn, revokeColumn],
    .index "idx_tag_listing_active" "tag_listing" "tag_id, build_id, revoke_event",
    .table "group_config" [tagColumn, "group_name TEXT NOT NULL", blockedColumn, createColumn,
      revokeColumn],
    .index "idx_group_config_active" "group_config" "tag_id, group_name, revoke_event",
    .table "group_package_listing" [tagColumn, "group_name TEXT NOT NULL",
      "package TEXT NOT NULL", blockedColumn, createColumn, revokeColumn],
    .index "idx_group_package_listing_active" "group_package_listing"
      "tag_id, group_name, package, revoke_event",
    .table "repos" [number, tagColumn, createColumn],
    .table "tag_notifications" [number, tagColumn, "nvr TEXT NOT NULL", "action TEXT NOT NULL",
      "event INTEGER NOT NULL REFERENCES events(id)"]]

/-- All steps in their order. -/
def migrations : List Migration := [initial]

end Schema

end TagSync
