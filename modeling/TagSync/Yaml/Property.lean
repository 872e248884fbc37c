import TagSync.Text
import TagSync.Yaml.Cursor
import TagSync.Yaml.Token

/-!
Anchors, aliases, tags and directives.

Each reader starts at the mark that announces the thing, and gives it with the place behind it.
-/

namespace TagSync.Yaml.Property

/-- The name behind the mark of an anchor or an alias. -/
def name? (c : Cursor) : Option (String × Cursor) :=
  let (name, c) := (c.skip 1).span isWord
  let follows := endsWord c.rest ||
    c.rest.head?.any fun x => ['?', ':', ',', ']', '\x7d', '%', '@', '\x60'].contains x
  if name.isEmpty || !follows then none else some (String.ofList name, c)

/-! ### Tags -/

/-- The characters of a tag; `wide` adds those that brackets are made of. -/
def isTagChar (wide : Bool) (c : Char) : Bool :=
  isWord c ||
    [';', '/', '?', ':', '@', '&', '=', '+', '$', '.', '%', '!', '~', '*', '\'', '(',
      ')'].contains c ||
    (wide && (c = ',' || c = '[' || c = ']'))

/-- How many bytes the character that starts with a byte has. -/
def byteCount? (b : Nat) : Option Nat :=
  if b < 0x80 then some 1
  else if b / 32 = 6 then some 2
  else if b / 16 = 14 then some 3
  else if b / 8 = 30 then some 4
  else none

/-- The further bytes of an escaped character. -/
def escapedTail? : Nat → Cursor → Option (List UInt8 × Cursor)
  | 0, c => some ([], c)
  | n + 1, c => do
    let b ← Text.percentByte? c.rest
    if b / 64 ≠ 2 then none
    else
      let (more, c) ← escapedTail? n (c.skip 3)
      return (b.toUInt8 :: more, c)

/-- The bytes of a tag from here on. -/
def tagBytes? (wide : Bool) : Nat → Cursor → Option (List UInt8 × Cursor)
  | 0, _ => none
  | fuel + 1, c =>
    match c.rest with
    | '%' :: _ => do
      let b ← Text.percentByte? c.rest
      let n ← byteCount? b
      let (tail, c) ← escapedTail? (n - 1) (c.skip 3)
      let (more, c) ← tagBytes? wide fuel c
      return (b.toUInt8 :: tail ++ more, c)
    | x :: _ =>
      if isTagChar wide x then do
        let (more, c) ← tagBytes? wide fuel (c.skip 1)
        return (String.utf8EncodeChar x ++ more, c)
      else some ([], c)
    | [] => some ([], c)

/-- The tag that is spelled from here on. A zero byte ends it. -/
def spelled? (wide : Bool) (c : Cursor) : Option (Tag × Cursor) :=
  (tagBytes? wide (c.rest.length + 1) c).map fun p => (p.1.takeWhile (· ≠ 0), p.2)

/-- The tag that is spelled from here on by one character at least. -/
def spelledSome? (wide : Bool) (c : Cursor) : Option (Tag × Cursor) :=
  (spelled? wide c).filter fun p => p.2.index ≠ c.index

/-- A handle: an exclamation mark, perhaps with a name and a second one. -/
def handle (c : Cursor) : List Char × Cursor :=
  let (name, c) := (c.skip 1).span isWord
  match c.rest with
  | '!' :: _ => ('!' :: name ++ ['!'], c.skip 1)
  | _ => ('!' :: name, c)

/-- A tag by its handle and the rest; one in angle brackets has no handle. -/
def tagParts? (c : Cursor) : Option (String × Tag × Cursor) := do
  match c.rest with
  | '!' :: '<' :: _ =>
    let (tag, c) ← spelledSome? true (c.skip 2)
    let '>' :: _ := c.rest | none
    return ("", tag, c.skip 1)
  | _ =>
    let (h, next) := handle c
    if h.length > 1 && h.getLast? = some '!' then
      let (tag, c) ← spelledSome? false next
      return (String.ofList h, tag, c)
    else
      let (tag, c) ← spelled? false (c.skip 1)
      return if tag.isEmpty then ("", Tag.ofChars ['!'], c) else ("!", tag, c)

def tag? (inFlow : Bool) (c : Cursor) : Option (Token × Cursor) := do
  let (handle, suffix, c) ← tagParts? c
  if endsWord c.rest || (inFlow && c.rest.head? = some ',') then
    return (.tag handle suffix, c)
  else none

/-! ### Directives -/

/-- A number of at most nine digits. -/
def number? (c : Cursor) : Option (Nat × Cursor) :=
  let (digits, c) := c.span Char.isDigit
  if digits.isEmpty || digits.length > 9 then none
  else some (digits.foldl (fun n d => 10 * n + (d.toNat - 48)) 0, c)

/-- Two numbers with a point between them. -/
def version? (c : Cursor) : Option (Token × Cursor) := do
  let (major, c) ← number? c.skipBlanks
  let '.' :: _ := c.rest | none
  let (minor, c) ← number? (c.skip 1)
  return (.versionDirective major minor, c)

/-- A handle and what it stands for. -/
def abbreviation? (c : Cursor) : Option (Token × Cursor) := do
  let c := c.skipBlanks
  let '!' :: _ := c.rest | none
  let (h, c) := handle c
  if h ≠ ['!'] && h.getLast? ≠ some '!' then none
  let true := c.rest.head?.any isBlank | none
  let (start, c) ← spelledSome? true c.skipBlanks
  if endsWord c.rest then return (.tagDirective (String.ofList h) start, c) else none

/-- A directive with the end of its line. -/
def directive? (c : Cursor) : Option (Token × Cursor) := do
  let (name, c) := (c.skip 1).span isWord
  if !endsWord c.rest then none
  let (token, c) ←
    if name = "YAML".toList then version? c
    else if name = "TAG".toList then abbreviation? c
    else none
  return (token, ← c.lineEnd?)

end TagSync.Yaml.Property
