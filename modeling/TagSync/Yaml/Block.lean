import TagSync.Yaml.Cursor

/-!
Block scalars: indented lines after a header.

The header tells whether lines are kept or folded, how deep they are indented if that is not to
be seen from the first of them, and what becomes of the line breaks at the end.
-/

namespace TagSync.Yaml.Block

/-- What becomes of the line breaks at the end. -/
inductive Chomping where
  | strip
  /-- The first one stays. -/
  | clip
  | keep
  deriving DecidableEq

structure Header where
  chomping : Chomping := .clip
  /-- The depth of the indentation beyond that of the parent. -/
  depth : Option Nat := none

def chomping? : Char → Option Chomping
  | '+' => some .keep
  | '-' => some .strip
  | _ => none

/-- A digit of depth; zero is none. -/
def depth? (c : Char) : Option Nat :=
  if c.isDigit && c ≠ '0' then some (c.toNat - 48) else none

/-- The header whose mark stands here, and the place after its line. -/
def header? (c : Cursor) : Option (Header × Cursor) := do
  let c := c.skip 1
  let (h, c) ←
    match c.rest with
    | a :: r =>
      match chomping? a with
      | some chomping =>
        match r with
        | b :: _ =>
          if b.isDigit then (depth? b).map fun d => (⟨chomping, some d⟩, c.skip 2)
          else some (⟨chomping, none⟩, c.skip 1)
        | [] => some (⟨chomping, none⟩, c.skip 1)
      | none =>
        if a.isDigit then do
          let d ← depth? a
          match r.head?.bind chomping? with
          | some chomping => some (⟨chomping, some d⟩, c.skip 2)
          | none => some (⟨.clip, some d⟩, c.skip 1)
        else some ({}, c)
    | [] => some ({}, c)
  let c ← c.lineEnd?
  return (h, c)

/-- What empty lines and the indentation of the next one amount to. -/
structure Lead where
  /-- The line breaks, the last one first. -/
  breaks : List Char
  /-- The deepest column that was reached. -/
  deepest : Nat
  next : Cursor

/-- Skips empty lines, and spaces up to the column `indent` if it is known. A tab must not stand
where an indentation is expected. -/
def lead? (indent : Option Nat) : Nat → List Char → Nat → Cursor → Option Lead
  | 0, _, _, _ => none
  | fuel + 1, breaks, deepest, c =>
    let spaces := c.rest.takeWhile (· = ' ')
    let n := match indent with
      | none => spaces.length
      | some i => min spaces.length (i - c.column)
    let c := c.skip n
    let deepest := max deepest c.column
    let short := match indent with
      | none => true
      | some i => c.column < i
    if short && c.rest.head? = some '\t' then none
    else
      match c.nextLine? with
      | some (b, next) => lead? indent fuel (b :: breaks) deepest next
      | none => some ⟨breaks, deepest, c⟩

/-- The text that has been read, and the line breaks that are not settled yet. -/
structure Progress where
  /-- The text, the last character first. -/
  text : List Char := []
  /-- The break at the end of the last line. -/
  last : List Char := []
  /-- Those of the empty lines after it, the last one first. -/
  breaks : List Char := []
  /-- Whether the last line starts with a blank. -/
  blankBefore : Bool := false

/-- Adds a line: a single break between two lines that start without a blank folds into a
space. -/
def Progress.addLine (literal : Bool) (p : Progress) (line : List Char) (last : List Char) :
    Progress :=
  let blank := line.head?.any isBlank
  let folds := !literal && p.last.head? = some '\n' && !p.blankBefore && !blank
  let gap :=
    if folds then (if p.breaks.isEmpty then [' '] else p.breaks) else p.breaks ++ p.last
  ⟨line.reverseAux (gap ++ p.text), last, [], blank⟩

def lines? (literal : Bool) (indent : Nat) : Nat → Progress → Cursor → Option (Progress × Cursor)
  | 0, _, _ => none
  | fuel + 1, p, c =>
    if c.column = indent && !c.rest.isEmpty then do
      let (line, c) := c.restOfLine
      let (last, c) := match c.nextLine? with
        | some (b, next) => ([b], next)
        | none => ([], c)
      let l ← lead? (some indent) (c.rest.length + 1) [] 0 c
      lines? literal indent fuel { p.addLine literal line last with breaks := l.breaks } l.next
    else some (p, c)

/-- The scalar whose header starts here; `margin` is the column its lines must reach. -/
def read? (literal : Bool) (margin : Nat) (c : Cursor) : Option (List Char × Cursor) := do
  let (h, c) ← header? c
  let fixed := h.depth.map fun d => (margin - 1) + d
  let l ← lead? fixed (c.rest.length + 1) [] 0 c
  let indent := fixed.getD (max (max l.deepest margin) 1)
  let (p, c) ← lines? literal indent (c.rest.length + 1) { breaks := l.breaks } l.next
  let ending := match h.chomping with
    | .strip => []
    | .clip => p.last
    | .keep => p.breaks ++ p.last
  return ((ending ++ p.text).reverse, c)

end TagSync.Yaml.Block
