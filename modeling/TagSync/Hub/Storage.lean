import TagSync.Hub.Tables

/-!
The tables of a hub as JSON.

A table is a list of rows, and a row the list of its columns; a truth value is `0` or `1`.
-/

namespace TagSync

namespace Storage

def bit (b : Bool) : Json := .int (if b then 1 else 0)

def bit? (j : Json) : Option Bool :=
  match j with
  | .int 0 => some false
  | .int 1 => some true
  | _ => none

/-- A versioned row: the columns of its record and the span of its life. -/
def versioned {α : Type} (columns : α → List Json) (r : Versioned α) : List Json :=
  columns r.record ++ [.int r.created, .ofOption .int r.revoked]

/-- A record of so many columns, and the span of its life behind them. -/
def versioned? {α : Type} (width : Nat) (read? : List Json → Option α) (l : List Json) :
    Option (Versioned α) := do
  let [created, revoked] := l.drop width | none
  return ⟨← read? (l.take width), ← created.int64?, ← revoked.optional? Json.int64?⟩

/-! ### Rows -/

def eventRow (e : EventInfo) : List Json := [.int e.id, .float e.ts]

def eventRow? (l : List Json) : Option EventInfo := do
  let [id, ts] := l | none
  return ⟨← id.int64?, ← ts.float?⟩

def userRow (u : UserRow) : List Json := [.int u.id, .string u.name]

def userRow? (l : List Json) : Option UserRow := do
  let [id, name] := l | none
  return ⟨← id.int64?, ← name.string?⟩

def permRow (p : PermRow) : List Json := [.int p.user, .string p.perm]

def permRow? (l : List Json) : Option PermRow := do
  let [user, perm] := l | none
  return ⟨← user.int64?, ← perm.string?⟩

def tagRow (t : TagRow) : List Json :=
  [.int t.id, .string t.name, .int t.created, .ofOptionString t.config.arches,
    bit t.config.locked, .ofOptionString t.config.perm, bit t.config.mavenSupport,
    bit t.config.mavenIncludeAll]

def tagRow? (l : List Json) : Option TagRow := do
  let [id, name, created, arches, locked, perm, support, all] := l | none
  return ⟨← id.int64?, ← name.string?, ← created.int64?,
    ⟨← arches.optionString?, ← bit? locked, ← perm.optionString?, ← bit? support, ← bit? all⟩⟩

def inheritanceRow (r : InheritanceRow) : List Json := [.int r.tag, .int r.parent, .int r.priority]

def inheritanceRow? (l : List Json) : Option InheritanceRow := do
  let [tag, parent, priority] := l | none
  return ⟨← tag.int64?, ← parent.int64?, ← priority.int64?⟩

def buildRow (b : BuildRow) : List Json :=
  [.int b.id, .string b.nvr.name, .string b.nvr.version, .string b.nvr.release, .string b.state,
    .string b.owner]

def buildRow? (l : List Json) : Option BuildRow := do
  let [id, name, version, release, state, owner] := l | none
  return ⟨← id.int64?, ⟨← name.string?, ← version.string?, ← release.string?⟩,
    ← state.string?, ← owner.string?⟩

def packageRow (p : PackageRow) : List Json :=
  [.int p.tag, .string p.package, .string p.owner, bit p.blocked, .ofOptionString p.extraArches]

def packageRow? (l : List Json) : Option PackageRow := do
  let [tag, package, owner, blocked, arches] := l | none
  return ⟨← tag.int64?, ← package.string?, ← owner.string?, ← bit? blocked,
    ← arches.optionString?⟩

def taggingRow (r : TaggingRow) : List Json := [.int r.tag, .int r.build]

def taggingRow? (l : List Json) : Option TaggingRow := do
  let [tag, build] := l | none
  return ⟨← tag.int64?, ← build.int64?⟩

def groupRow (g : GroupRow) : List Json := [.int g.tag, .string g.group, bit g.blocked]

def groupRow? (l : List Json) : Option GroupRow := do
  let [tag, group, blocked] := l | none
  return ⟨← tag.int64?, ← group.string?, ← bit? blocked⟩

def memberRow (m : MemberRow) : List Json :=
  [.int m.tag, .string m.group, .string m.package, bit m.blocked]

def memberRow? (l : List Json) : Option MemberRow := do
  let [tag, group, package, blocked] := l | none
  return ⟨← tag.int64?, ← group.string?, ← package.string?, ← bit? blocked⟩

def repoRow (r : RepoRow) : List Json := [.int r.id, .int r.tag, .int r.created]

def repoRow? (l : List Json) : Option RepoRow := do
  let [id, tag, created] := l | none
  return ⟨← id.int64?, ← tag.int64?, ← created.int64?⟩

def noticeRow (n : Notice) : List Json :=
  [.int n.tag, .string n.nvr, .string n.kind.text, .int n.event]

def noticeKind? (j : Json) : Option NoticeKind :=
  match j with
  | .string "tag" => some .tagged
  | .string "untag" => some .untagged
  | _ => none

def noticeRow? (l : List Json) : Option Notice := do
  let [tag, nvr, kind, event] := l | none
  return ⟨← tag.int64?, ← nvr.string?, ← noticeKind? kind, ← event.int64?⟩

end Storage

namespace Tables

open Storage

/-- The content of a hub, table by table. -/
def rows (t : Tables) : List (String × List (List Json)) :=
  [("events", t.events.map eventRow), ("users", t.users.map userRow),
    ("user_perms", t.perms.map permRow), ("tags", t.tags.map tagRow),
    ("tag_inheritance", t.inheritance.map inheritanceRow),
    ("builds", t.builds.map buildRow), ("tag_packages", t.packages.map (versioned packageRow)),
    ("tag_listing", t.taggings.map (versioned taggingRow)),
    ("group_config", t.groups.map (versioned groupRow)),
    ("group_package_listing", t.members.map (versioned memberRow)), ("repos", t.repos.map repoRow)]

/-- Everything that a hub stores. -/
def toJson (t : Tables) : Json :=
  let table (l : List (List Json)) : Json := .array (l.map .array)
  .object (t.rows.map (fun p => (p.1, table p.2)) ++
    [("tag_notifications", table (t.notices.map noticeRow)), ("user_numbers", .int t.userNumbers)])

/-- The rows of a table, each read by `read?`. -/
def table? {α : Type} (j : Json) (name : String) (read? : List Json → Option α) :
    Option (List α) := do
  let .object fields := j | none
  (← fields.lookup name).list? fun row => (row.list? some).bind read?

def ofJson? (j : Json) : Option Tables := do
  let .object fields := j | none
  return {
    events := ← table? j "events" eventRow?
    users := ← table? j "users" userRow?
    userNumbers := ← (← fields.lookup "user_numbers").int64?
    perms := ← table? j "user_perms" permRow?
    tags := ← table? j "tags" tagRow?
    inheritance := ← table? j "tag_inheritance" inheritanceRow?
    builds := ← table? j "builds" buildRow?
    packages := ← table? j "tag_packages" (versioned? 5 packageRow?)
    taggings := ← table? j "tag_listing" (versioned? 2 taggingRow?)
    groups := ← table? j "group_config" (versioned? 3 groupRow?)
    members := ← table? j "group_package_listing" (versioned? 4 memberRow?)
    repos := ← table? j "repos" repoRow?
    notices := ← table? j "tag_notifications" noticeRow? }

end Tables

end TagSync
