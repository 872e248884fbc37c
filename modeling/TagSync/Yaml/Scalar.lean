import TagSync.Text
import TagSync.Yaml.Cursor

/-!
Scalars that are written in words: without quotes, or in single or double ones.

Between two words blanks within a line stay as they are. One line break reads as a space and
further ones as themselves, while the blanks around them are dropped.

A scalar without quotes ends before a colon that ends a word, before a comment, before a bracket or
a comma inside brackets, and outside of brackets where a line is not indented deep enough. In single
quotes a doubled quote is a quote; in double quotes a backslash escapes.
-/

namespace TagSync.Yaml

/-! ### Between two words -/

structure Gap where
  /-- The blanks before the first line break, the last one first. -/
  blanks : List Char := []
  /-- Whether the gap goes over the end of a line. -/
  broken : Bool := false
  /-- The first line break; an escaped one leaves nothing. -/
  first : Option Char := none
  /-- The other line breaks, the last one first. -/
  more : List Char := []

namespace Gap

/-- What a gap reads as. -/
def text (g : Gap) : List Char :=
  let more := g.more.reverse
  if g.broken then
    match g.first with
    | none => more
    | some c => if c = '\n' then (if more.isEmpty then [' '] else more) else c :: more
  else g.blanks.reverse

def addBreak (g : Gap) (c : Char) : Gap :=
  if g.broken then { g with more := c :: g.more }
  else { g with blanks := [], broken := true, first := some c }

def addBlank (g : Gap) (c : Char) : Gap :=
  if g.broken then g else { g with blanks := c :: g.blanks }

/-- The gap from here on. On its further lines there may be no tab left of the column
`margin`. -/
def scan? (margin : Nat) : Nat → Gap → Cursor → Option (Gap × Cursor)
  | 0, _, _ => none
  | fuel + 1, g, c =>
    match c.nextLine? with
    | some (b, next) => scan? margin fuel (g.addBreak b) next
    | none =>
      match c.rest with
      | x :: _ =>
        if isBlank x then
          if g.broken && c.column < margin && x = '\t' then none
          else scan? margin fuel (g.addBlank x) (c.skip 1)
        else some (g, c)
      | [] => some (g, c)

/-- The gap from here on, or what of it follows an escaped line break. -/
def after? (g : Gap) (margin : Nat) (c : Cursor) : Option (Gap × Cursor) :=
  scan? margin (c.rest.length + 1) g c

end Gap

/-! ### Without quotes -/

namespace Plain

def isFlowMark (c : Char) : Bool := c = ',' || c = '[' || c = ']' || c = '\x7b' || c = '\x7d'

/-- Whether the word of a scalar ends here. -/
def endsHere (inFlow : Bool) (s : List Char) : Bool :=
  match s with
  | [] => true
  | ':' :: r => endsWord r
  | c :: _ => isBlank c || isBreak c || (inFlow && isFlowMark c)

/-- Whether a colon stands here that no word may hold. -/
def isMisplacedColon (inFlow : Bool) (s : List Char) : Bool :=
  match s with
  | ':' :: c :: _ => inFlow && (isFlowMark c || c = '?')
  | _ => false

/-- The word that starts here. -/
def word? (inFlow : Bool) : List Char → Option (List Char)
  | [] => some []
  | c :: r =>
    if isMisplacedColon inFlow (c :: r) then none
    else if endsHere inFlow (c :: r) then some []
    else (word? inFlow r).map (c :: ·)

/-- A scalar that has been read. -/
structure Found where
  text : List Char
  /-- The place of its end, behind the gap that follows it. -/
  next : Cursor
  /-- Whether that gap goes over the end of a line. -/
  endsLine : Bool

/-- Reads on after the text in `done`, the last character first, which the gap `g` separates
from here. -/
def scan? (inFlow : Bool) (margin : Nat) : Nat → List Char → Gap → Cursor → Option Found
  | 0, _, _, _ => none
  | fuel + 1, done, g, c => do
    if c.atDocumentMark || c.rest.head? = some '#' then return ⟨done.reverse, c, g.broken⟩
    let word ← word? inFlow c.rest
    let (done, g) := if word.isEmpty then (done, g) else ((g.text ++ word).reverseAux done, {})
    let c := c.skip word.length
    let gapHere := match c.rest with
      | x :: _ => isBlank x || isBreak x
      | [] => false
    if gapHere then
      let (g, c) ← g.after? margin c
      if !inFlow && c.column < margin then return ⟨done.reverse, c, g.broken⟩
      else scan? inFlow margin fuel done g c
    else return ⟨done.reverse, c, g.broken⟩

/-- The scalar that starts here; its lines must reach the column `margin`. -/
def read? (inFlow : Bool) (margin : Nat) (c : Cursor) : Option Found :=
  scan? inFlow margin (c.rest.length + 1) [] {} c

end Plain

/-! ### In quotes -/

namespace Quoted

/-- The escapes of one letter by the number of their character. -/
def named : List (Char × Nat) :=
  [('0', 0), ('a', 7), ('b', 8), ('t', 9), ('\t', 9), ('n', 10), ('v', 11), ('f', 12), ('r', 13),
    ('e', 27), (' ', 32), ('"', 34), ('/', 47), ('\\', 92), ('N', 0x85), ('_', 0xA0),
    ('L', 0x2028), ('P', 0x2029)]

/-- How many hexadecimal digits follow a letter. -/
def width? : Char → Option Nat
  | 'x' => some 2
  | 'u' => some 4
  | 'U' => some 8
  | _ => none

/-- The character of what follows a backslash, and how long that is. -/
def escape? : List Char → Option (Char × Nat)
  | [] => none
  | c :: r =>
    match named.lookup c with
    | some n => some (Char.ofNat n, 1)
    | none => do
      let width ← width? c
      let digits := r.take width
      if digits.length ≠ width then none
      else
        let n ← Text.hexNumber? digits
        if n.isValidChar then some (Char.ofNat n, width + 1) else none

/-- How a word of a quoted scalar ends. -/
inductive Stop where
  | quote
  | gap
  /-- A backslash stands before the end of the line. -/
  | escapedBreak

/-- Reads on in a word after the text in `done`, the last character first. Gives all of that text
and what ends the word. -/
def word? (single : Bool) : Nat → List Char → Cursor → Option (List Char × Stop × Cursor)
  | 0, _, _ => none
  | fuel + 1, done, c =>
    match single, c.rest with
    | _, [] => none
    | true, '\'' :: '\'' :: _ => word? single fuel ('\'' :: done) (c.skip 2)
    | true, '\'' :: _ => some (done, .quote, c)
    | false, '"' :: _ => some (done, .quote, c)
    | false, '\\' :: r =>
      match (c.skip 1).nextLine? with
      | some (_, next) => some (done, .escapedBreak, next)
      | none => do
        let (x, n) ← escape? r
        word? single fuel (x :: done) (c.skip (n + 1))
    | _, x :: _ =>
      if isBlank x || isBreak x then some (done, .gap, c)
      else word? single fuel (x :: done) (c.skip 1)

/-- Reads on after the text in `done`, the last character first. -/
def scan? (single : Bool) : Nat → List Char → Cursor → Option (List Char × Cursor)
  | 0, _, _ => none
  | fuel + 1, done, c => do
    if c.atDocumentMark then none
    let (done, stop, c) ← word? single fuel done c
    let quote := if single then '\'' else '"'
    match stop with
    | .quote => return (done.reverse, c.skip 1)
    | .gap =>
      let (g, c) ← Gap.after? {} 0 c
      scan? single fuel (g.text.reverseAux done) c
    | .escapedBreak =>
      if c.rest.head? = some quote then return (done.reverse, c.skip 1)
      let (g, c) ← Gap.after? { broken := true } 0 c
      scan? single fuel (g.text.reverseAux done) c

/-- The scalar whose opening quote stands here. -/
def read? (single : Bool) (c : Cursor) : Option (List Char × Cursor) :=
  scan? single (c.rest.length + 1) [] (c.skip 1)

end Quoted

end TagSync.Yaml
