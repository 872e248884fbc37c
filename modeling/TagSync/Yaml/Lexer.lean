import TagSync.Yaml.Block
import TagSync.Yaml.Property
import TagSync.Yaml.Scalar
import TagSync.Yaml.Token

/-!
Cutting a text into tokens.

A key is only known as one when the colon behind it is met. So the lexer remembers, for every
open bracket, the last place where a key may have started, and puts the tokens that announce a
key there afterwards. Such a key must lie on one line and within 1024 bytes.
-/

namespace TagSync.Yaml

/-- A place where a key may have started. -/
structure PendingKey where
  /-- The number of tokens before it. -/
  position : Nat
  index : Nat
  line : Nat
  column : Nat
  /-- Whether there must be a key, since the line stands at the depth of a mapping. -/
  required : Bool

structure Lexer where
  cursor : Cursor
  tokens : Array Token := #[]
  /-- The column of the innermost block; before the first one it is `-1`. -/
  indent : Int := -1
  /-- The columns of the blocks around it. -/
  outerIndents : List Int := []
  pending : Option PendingKey := none
  /-- The pending keys outside of every open bracket. -/
  outerPending : List (Option PendingKey) := []
  /-- Whether a key may start here. -/
  keyAllowed : Bool := true

namespace Lexer

/-- Whether a bracket is open. -/
def inFlow (l : Lexer) : Bool := !l.outerPending.isEmpty

def column (l : Lexer) : Int := l.cursor.column

/-- The column that the lines of a nested node must reach. -/
def margin (l : Lexer) : Nat := (l.indent + 1).toNat

def emit (l : Lexer) (t : Token) : Lexer := { l with tokens := l.tokens.push t }

def goTo (l : Lexer) (c : Cursor) : Lexer := { l with cursor := c }

def allowKey (l : Lexer) (b : Bool) : Lexer := { l with keyAllowed := b }

/-! ### Blank space -/

/-- The first place that is no blank space or comment, and whether a line ended before it. A
byte order mark at the start of a line counts as a space. -/
def skipSpace (inFlow : Bool) : Nat → Bool → Cursor → Bool × Cursor
  | 0, keyAllowed, c => (keyAllowed, c)
  | fuel + 1, keyAllowed, c =>
    let c := if c.column = 0 && c.rest.head? = some '\uFEFF' then c.skip 1 else c
    let c := (c.span fun x => x = ' ' || (x = '\t' && (inFlow || !keyAllowed))).2.skipComment
    match c.nextLine? with
    | some (_, next) => skipSpace inFlow fuel (keyAllowed || !inFlow) next
    | none => (keyAllowed, c)

def skipToToken (l : Lexer) : Lexer :=
  let (keyAllowed, c) := skipSpace l.inFlow (l.cursor.rest.length + 1) l.keyAllowed l.cursor
  { l with keyAllowed, cursor := c }

/-! ### Pending keys -/

/-- A pending key if its colon may still come. -/
def refresh? (c : Cursor) : Option PendingKey → Option (Option PendingKey)
  | none => some none
  | some k =>
    if k.line < c.line || k.index + 1024 < c.index then
      if k.required then none else some none
    else some (some k)

/-- Forgets the pending keys whose colon cannot come any more. -/
def refreshKeys? (l : Lexer) : Option Lexer := do
  return { l with
    pending := ← refresh? l.cursor l.pending
    outerPending := ← l.outerPending.mapM (refresh? l.cursor) }

/-- Forgets the pending key of this level, which must not be a required one. -/
def dropKey? (l : Lexer) : Option Lexer :=
  if l.pending.any PendingKey.required then none else some { l with pending := none }

/-- Remembers that a key may start here. -/
def markKey? (l : Lexer) : Option Lexer :=
  if l.keyAllowed then do
    let l ← l.dropKey?
    let c := l.cursor
    return { l with
      pending := some ⟨l.tokens.size, c.index, c.line, c.column,
        !l.inFlow && l.indent = l.column⟩ }
  else some l

/-! ### Blocks -/

/-- Ends the blocks that are indented deeper than a column. -/
def closeDownTo (column : Int) : List Int → Lexer → Lexer
  | [], l => l
  | i :: outer, l =>
    if column < l.indent then
      closeDownTo column outer { l.emit .blockEnd with indent := i, outerIndents := outer }
    else l

def closeBlocks (l : Lexer) (column : Int) : Lexer :=
  if l.inFlow then l else closeDownTo column l.outerIndents l

/-- Starts a block at a column that is deeper than the innermost one, its token at a position
among the tokens. -/
def openBlock (l : Lexer) (column : Int) (position : Nat) (t : Token) : Lexer :=
  if !l.inFlow && l.indent < column then
    { l with
      indent := column
      outerIndents := l.indent :: l.outerIndents
      tokens := l.tokens.insertIdxIfInBounds position t }
  else l

/-! ### Tokens -/

/-- A token of some characters. -/
def mark (l : Lexer) (width : Nat) (t : Token) : Lexer :=
  (l.goTo (l.cursor.skip width)).emit t

def endText? (l : Lexer) : Option Lexer := (l.closeBlocks (-1)).dropKey?

def documentMark? (l : Lexer) (t : Token) : Option Lexer := do
  return ((← (l.closeBlocks (-1)).dropKey?).allowKey false).mark 3 t

def directive? (l : Lexer) : Option Lexer := do
  let l := (← (l.closeBlocks (-1)).dropKey?).allowKey false
  let (t, c) ← Property.directive? l.cursor
  return (l.goTo c).emit t

def openBracket? (l : Lexer) (t : Token) : Option Lexer := do
  let l ← l.markKey?
  let l := { l with pending := none, outerPending := l.pending :: l.outerPending }
  return (l.allowKey true).mark 1 t

def closeBracket? (l : Lexer) (t : Token) : Option Lexer := do
  let l ← l.dropKey?
  let l := match l.outerPending with
    | k :: outer => { l with pending := k, outerPending := outer }
    | [] => l
  return (l.allowKey false).mark 1 t

def comma? (l : Lexer) : Option Lexer := do
  return ((← l.dropKey?).allowKey true).mark 1 .flowEntry

/-- The dash of an item. -/
def item? (l : Lexer) : Option Lexer := do
  if !l.inFlow && !l.keyAllowed then none
  let l := l.openBlock l.column l.tokens.size .blockSequenceStart
  return ((← l.dropKey?).allowKey true).mark 1 .blockEntry

/-- The question mark that announces a key. -/
def explicitKey? (l : Lexer) : Option Lexer := do
  if !l.inFlow && !l.keyAllowed then none
  let l := l.openBlock l.column l.tokens.size .blockMappingStart
  return ((← l.dropKey?).allowKey !l.inFlow).mark 1 .key

/-- The colon of a value. -/
def value? (l : Lexer) : Option Lexer := do
  match l.pending with
  | some k =>
    let l := { l with tokens := l.tokens.insertIdxIfInBounds k.position .key, pending := none }
    return ((l.openBlock k.column k.position .blockMappingStart).allowKey false).mark 1 .value
  | none =>
    if !l.inFlow && !l.keyAllowed then none
    let l := l.openBlock l.column l.tokens.size .blockMappingStart
    return (l.allowKey !l.inFlow).mark 1 .value

/-- A token that may start a key and is read by `read?`. -/
def nodePart? (l : Lexer) (read? : Cursor → Option (Token × Cursor)) : Option Lexer := do
  let l := (← l.markKey?).allowKey false
  let (t, c) ← read? l.cursor
  return (l.goTo c).emit t

def anchorToken? (make : String → Token) (c : Cursor) : Option (Token × Cursor) :=
  (Property.name? c).map fun p => (make p.1, p.2)

def quotedToken? (style : ScalarStyle) (c : Cursor) : Option (Token × Cursor) :=
  (Quoted.read? (style = .singleQuoted) c).map fun p =>
    (.scalar style (String.ofList p.1), p.2)

def blockScalar? (l : Lexer) (style : ScalarStyle) : Option Lexer := do
  let l := (← l.dropKey?).allowKey true
  let (text, c) ← Block.read? (style = .literal) l.margin l.cursor
  return (l.goTo c).emit (.scalar style (String.ofList text))

def plainScalar? (l : Lexer) : Option Lexer := do
  let l ← l.markKey?
  let found ← Plain.read? l.inFlow l.margin l.cursor
  return ((l.allowKey found.endsLine).goTo found.next).emit
    (.scalar .plain (String.ofList found.text))

/-- Marks that start no plain scalar, unless a word follows some of them. -/
def isIndicator (c : Char) : Bool :=
  ['-', '?', ':', ',', '[', ']', '\x7b', '\x7d', '#', '&', '*', '!', '|', '>', '\'', '"', '%', '@',
    '\x60'].contains c

def startsPlain (inFlow : Bool) : List Char → Bool
  | [] => false
  | '-' :: rest => !rest.head?.any isBlank
  | c :: rest =>
    if c = '?' || c = ':' then !inFlow && !endsWord rest
    else !(isIndicator c || isBlank c || isBreak c)

/-- The token that starts at the next character. -/
def token? (l : Lexer) : Option Lexer :=
  match l.cursor.rest with
  | [] => none
  | c :: rest =>
    if l.cursor.column = 0 && c = '%' then l.directive?
    else if l.cursor.atDelimiter '-' then l.documentMark? .documentStart
    else if l.cursor.atDelimiter '.' then l.documentMark? .documentEnd
    else if c = '[' then l.openBracket? .flowSequenceStart
    else if c = '\x7b' then l.openBracket? .flowMappingStart
    else if c = ']' then l.closeBracket? .flowSequenceEnd
    else if c = '\x7d' then l.closeBracket? .flowMappingEnd
    else if c = ',' then l.comma?
    else if c = '-' && endsWord rest then l.item?
    else if c = '?' && (l.inFlow || endsWord rest) then l.explicitKey?
    else if c = ':' && (l.inFlow || endsWord rest) then l.value?
    else if c = '*' then l.nodePart? (anchorToken? .alias)
    else if c = '&' then l.nodePart? (anchorToken? .anchor)
    else if c = '!' then l.nodePart? (Property.tag? l.inFlow)
    else if c = '|' && !l.inFlow then l.blockScalar? .literal
    else if c = '>' && !l.inFlow then l.blockScalar? .folded
    else if c = '\'' then l.nodePart? (quotedToken? .singleQuoted)
    else if c = '"' then l.nodePart? (quotedToken? .doubleQuoted)
    else if startsPlain l.inFlow (c :: rest) then l.plainScalar?
    else none

/-- All tokens from here on; every round takes at least one character. -/
def run? : Nat → Lexer → Option Lexer
  | 0, _ => none
  | fuel + 1, l => do
    let l ← l.skipToToken.refreshKeys?
    let l := l.closeBlocks l.column
    if l.cursor.rest.isEmpty then l.endText? else run? fuel (← l.token?)

end Lexer

/-- The tokens of a text. -/
def Token.scan? (text : String) : Option (List Token) :=
  let s := text.toList
  if s.all isAllowed then
    (Lexer.run? (s.length + 1) { cursor := { rest := s } }).map fun l => l.tokens.toList
  else none

end TagSync.Yaml
