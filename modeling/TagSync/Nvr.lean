import TagSync.Failure

/-!
The name of a build: package name, version and release, joined by dashes.

A text is split at its last two dashes, so a package name may hold dashes and the other two
parts may not.
-/

namespace TagSync

structure Nvr where
  name : String
  version : String
  release : String
  deriving DecidableEq, Repr

namespace Nvr

def display (n : Nvr) : String := n.name ++ "-" ++ n.version ++ "-" ++ n.release

/-- The parts before and after the last dash. -/
def splitLastDash (s : List Char) : Option (List Char × List Char) :=
  let after := s.reverse.takeWhile (· != '-')
  match s.reverse.dropWhile (· != '-') with
  | [] => none
  | _ :: before => some (before.reverse, after.reverse)

/-- The three parts of a text, if there are three and none is empty. -/
def parse? (text : String) : Option Nvr := do
  let (rest, release) ← splitLastDash text.toList
  let (name, version) ← splitLastDash rest
  if name.isEmpty || version.isEmpty || release.isEmpty then none
  else some ⟨String.ofList name, String.ofList version, String.ofList release⟩

def parse (text : String) : Except Failure Nvr :=
  match parse? text with
  | some n => .ok n
  | none => .error
    { kind := .invalidInput, op := some "parse_nvr", message := "invalid NVR '" ++ text ++ "'" }

def toJson (n : Nvr) : Json :=
  .object [("name", .string n.name), ("version", .string n.version),
    ("release", .string n.release)]

def layout : Json.Layout := [("name", .refused), ("version", .refused), ("release", .refused)]

def ofJson? (j : Json) : Option Nvr := do
  let [name, version, release] ← j.fields? layout | none
  return ⟨← name.string?, ← version.string?, ← release.string?⟩

end Nvr

end TagSync
