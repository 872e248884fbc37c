import TagSync.Yaml.Lexer
import TagSync.Yaml.Node

/-!
Documents: trees whose aliases lead to nodes.

The number of an anchor is the count of the names known before it, so an anchor that takes a
known name again shares its number with the next new one. An alias leads to the last node of
its number, also when that stands behind the alias.
-/

namespace TagSync.Yaml

/-- The anchors that are known. -/
structure Anchors where
  /-- Their names with their numbers, the last one first. -/
  known : List (String × Nat) := []
  /-- How many different names there are. -/
  names : Nat := 0

abbrev Numbering := StateT Anchors Option

/-- The number of an anchor that starts here. -/
def Numbering.define : Option String → Numbering (Option Nat)
  | none => return none
  | some name => do
    let ⟨known, names⟩ ← get
    let isNew := (known.lookup name).isNone
    set (⟨(name, names) :: known, if isNew then names + 1 else names⟩ : Anchors)
    return some names

namespace Node

mutual

/-- The tree with numbers for names; an alias must follow an anchor of its name. -/
def number : Named → Numbering (Node Nat)
  | .scalar anchor tag style text => do
    return .scalar (← Numbering.define anchor) tag style text
  | .alias name => do
    let some n := (← get).known.lookup name | failure
    return .alias n
  | .sequence anchor tag items => do
    let anchor ← Numbering.define anchor
    return .sequence anchor tag (← numberItems items)
  | .mapping anchor tag entries => do
    let anchor ← Numbering.define anchor
    return .mapping anchor tag (← numberEntries entries)

def numberItems : List Named → Numbering (List (Node Nat))
  | [] => return []
  | a :: rest => do
    let a ← number a
    return a :: (← numberItems rest)

def numberEntries : List (Named × Named) → Numbering (List (Node Nat × Node Nat))
  | [] => return []
  | (k, v) :: rest => do
    let k ← number k
    let v ← number v
    return (k, v) :: (← numberEntries rest)

end

/-- A node with its number in front, if it has one. -/
def anchored (anchor : Option Nat) (n : Node Nat) : List (Nat × Node Nat) :=
  match anchor with
  | some a => [(a, n)]
  | none => []

mutual

/-- All numbered nodes in the order in which they start. -/
def anchors : Node Nat → List (Nat × Node Nat)
  | .scalar anchor tag style text => anchored anchor (.scalar anchor tag style text)
  | .alias _ => []
  | .sequence anchor tag items =>
    anchored anchor (.sequence anchor tag items) ++ anchorsOfItems items
  | .mapping anchor tag entries =>
    anchored anchor (.mapping anchor tag entries) ++ anchorsOfEntries entries

def anchorsOfItems : List (Node Nat) → List (Nat × Node Nat)
  | [] => []
  | a :: rest => anchors a ++ anchorsOfItems rest

def anchorsOfEntries : List (Node Nat × Node Nat) → List (Nat × Node Nat)
  | [] => []
  | (k, v) :: rest => anchors k ++ anchors v ++ anchorsOfEntries rest

end

mutual

/-- One for every scalar and alias, two for every sequence and mapping. -/
def weight : Node Nat → Nat
  | .scalar .. | .alias _ => 1
  | .sequence _ _ items => 2 + weightOfItems items
  | .mapping _ _ entries => 2 + weightOfEntries entries

def weightOfItems : List (Node Nat) → Nat
  | [] => 0
  | a :: rest => weight a + weightOfItems rest

def weightOfEntries : List (Node Nat × Node Nat) → Nat
  | [] => 0
  | (k, v) :: rest => weight k + weight v + weightOfEntries rest

end

end Node

structure Document where
  root : Node Nat
  /-- The numbered nodes, the last one first. -/
  anchors : List (Nat × Node Nat)
  /-- How often aliases may be followed in all. -/
  limit : Nat

/-- The only document of a text. -/
def Document.parse? (text : String) : Option Document := do
  let tokens ← Token.scan? text
  let (root, _) ← (← Node.ofTokens? tokens).number.run {}
  return ⟨root, root.anchors.reverse, 100 * root.weight⟩

end TagSync.Yaml
