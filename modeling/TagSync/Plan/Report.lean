import TagSync.Plan
import TagSync.Text

/-!
The printed report of a plan: one table for every class, one row for every call.

A column is as wide as its widest cell in UTF-8 bytes, while cells are filled up by characters;
white space at the end of a line is cut.
-/

namespace TagSync.Report

/-! ### Tables -/

/-- The widest cell of every column, in bytes. -/
def widths (header : List String) (rows : List (List String)) : List Nat :=
  rows.foldl (fun ws row => (ws.zipWithAll
      (fun w c => max (w.getD 0) ((c.map String.utf8ByteSize).getD 0)) row).take ws.length)
    (header.map String.utf8ByteSize)

/-- The cells of a line at their columns, two spaces apart. -/
def aligned (ws : List Nat) (cells : List String) : List Char :=
  List.intercalate [' ', ' '] (List.zipWith (fun c w => Text.padRight w c.toList) cells ws)

def line (ws : List Nat) (cells : List String) : String :=
  String.ofList (Text.trimRight (aligned ws cells)) ++ "\n"

def table (header : List String) (rows : List (List String)) : String :=
  let ws := widths header rows
  String.join ((header :: rows).map (line ws))

/-! ### Rows -/

def label (o : Operation) : String := "[" ++ o.action.label ++ "]"

def yesNo (b : Bool) : String := if b then "yes" else "no"

def orDash (s : Option String) : String := s.getD "-"

def row (o : Operation) : List String :=
  match o with
  | .addPackage package owner blocked extraArches =>
    [label o, package, owner, yesNo blocked, orDash extraArches]
  | .blockPackage package => [label o, package, "-", yesNo true, "-"]
  | .tagBuild nvr | .untagBuild nvr => [label o, nvr]
  | .addGroup group | .removeGroup group | .blockGroup group => [label o, group, "-"]
  | .addGroupPackage group package | .removeGroupPackage group package
  | .blockGroupPackage group package => [label o, group, package]

def title : EntityClass → String
  | .packages => "Package changes"
  | .builds => "Build changes"
  | .groups => "Group changes"

def header : EntityClass → List String
  | .packages => ["action", "package", "owner", "blocked", "extra_arches"]
  | .builds => ["action", "nvr"]
  | .groups => ["action", "group", "package"]

def configRows (c : TagConfig) : List (List String) :=
  [["arches", orDash c.arches], ["locked", yesNo c.locked], ["perm", orDash c.perm],
    ["maven_support", yesNo c.mavenSupport], ["maven_include_all", yesNo c.mavenIncludeAll]]

/-! ### The report -/

def heading (title : String) : String := "### " ++ title ++ "\n\n"

def classSection (p : Plan) (c : EntityClass) : String :=
  heading (title c) ++
    (if (p.ofClass c).isEmpty then "(no changes)\n\n"
    else table (header c) ((p.ofClass c).map row) ++ "\n")

end TagSync.Report

namespace TagSync

/-- The report of a plan, with the settings at the end if the plan copies them. -/
def Plan.report (p : Plan) : String :=
  String.join (EntityClass.all.map (Report.classSection p)) ++
    match p.config with
    | some c =>
      Report.heading "Config changes" ++
        Report.table ["field", "value"] (Report.configRows c) ++ "\n"
    | none => ""

/-- The numbers of planned changes in one line. -/
def Plan.summary (p : Plan) : String :=
  toString p.packages.length ++ " package, " ++ toString p.builds.length ++ " build, " ++
    toString p.groups.length ++ " group operation(s)" ++
    (if p.config.isSome then ", config update" else "")

end TagSync
