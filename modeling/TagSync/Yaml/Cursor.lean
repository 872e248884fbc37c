/-!
A place in a YAML text, and the classes of characters its grammar is made of.

A line ends at a line feed, a carriage return, both together, or one of three more characters
of Unicode. The first four read as a line feed, the last two as themselves.
-/

namespace TagSync.Yaml

/-- The characters a text may hold at all. -/
def isAllowed (c : Char) : Bool :=
  let n := c.toNat
  n = 0x09 || n = 0x0A || n = 0x0D || (0x20 ≤ n && n ≤ 0x7E) || n = 0x85 ||
    (0xA0 ≤ n && n ≤ 0xD7FF) || (0xE000 ≤ n && n ≤ 0xFFFD) || 0x10000 ≤ n

def isBlank (c : Char) : Bool := c = ' ' || c = '\t'

def isBreak (c : Char) : Bool :=
  let n := c.toNat
  n = 0x0A || n = 0x0D || n = 0x85 || n = 0x2028 || n = 0x2029

/-- The characters of the names of anchors, handles and directives. -/
def isWord (c : Char) : Bool := c.isAlphanum || c = '_' || c = '-'

/-- Whether nothing, a blank or the end of a line comes first. -/
def endsWord : List Char → Bool
  | [] => true
  | c :: _ => isBlank c || isBreak c

/-- The first line break as it is read, and how many characters write it. -/
def lineBreak? : List Char → Option (Char × Nat)
  | '\r' :: '\n' :: _ => some ('\n', 2)
  | c :: _ =>
    if c.toNat = 0x2028 || c.toNat = 0x2029 then some (c, 1)
    else if isBreak c then some ('\n', 1)
    else none
  | [] => none

/-- How many bytes a text takes. -/
def byteCount (s : List Char) : Nat := s.foldl (fun n c => n + c.utf8Size) 0

structure Cursor where
  rest : List Char
  /-- How many bytes lie before. -/
  index : Nat := 0
  line : Nat := 0
  column : Nat := 0

namespace Cursor

/-- Goes on by `n` characters of the same line. -/
def skip (c : Cursor) (n : Nat) : Cursor :=
  { c with
    rest := c.rest.drop n
    index := c.index + byteCount (c.rest.take n)
    column := c.column + n }

/-- The characters of a class that come first, and the place after them. -/
def span (c : Cursor) (p : Char → Bool) : List Char × Cursor :=
  let word := c.rest.takeWhile p
  (word, c.skip word.length)

def skipBlanks (c : Cursor) : Cursor := (c.span isBlank).2

/-- The rest of the line, and the place of its end. -/
def restOfLine (c : Cursor) : List Char × Cursor := c.span fun x => !isBreak x

/-- The line break here, and the start of the next line. -/
def nextLine? (c : Cursor) : Option (Char × Cursor) :=
  (lineBreak? c.rest).map fun p =>
    (p.1, ⟨c.rest.drop p.2, c.index + byteCount (c.rest.take p.2), c.line + 1, 0⟩)

/-- The place of a comment's end, if a comment starts here. -/
def skipComment (c : Cursor) : Cursor :=
  match c.rest with
  | '#' :: _ => c.restOfLine.2
  | _ => c

/-- The end of a line that holds nothing more but blanks and a comment. -/
def lineEnd? (c : Cursor) : Option Cursor :=
  let c := c.skipBlanks.skipComment
  match c.nextLine? with
  | some (_, next) => some next
  | none => if c.rest.isEmpty then some c else none

/-- Whether a line starts here with three of the same mark, which delimit documents. -/
def atDelimiter (c : Cursor) (mark : Char) : Bool :=
  c.column = 0 && c.rest.take 3 = [mark, mark, mark] && endsWord (c.rest.drop 3)

/-- Whether the start or the end of a document is marked here. -/
def atDocumentMark (c : Cursor) : Bool := c.atDelimiter '-' || c.atDelimiter '.'

end Cursor

end TagSync.Yaml
