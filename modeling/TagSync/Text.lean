/-!
Texts as lists of characters, and as bytes.

White space is the Unicode property of that name. Bytes are read as UTF-8 where not all of them
have to be characters: what cannot become a character is replaced, so that one mark stands for the
start of a character that is not continued, or for a byte that starts none.
-/

namespace TagSync.Text

/-! ### Parts -/

/-- The parts of a text between marks; there is one more of them than there are marks. -/
def parts (mark : Char) (text : List Char) : List (List Char) :=
  text.foldr (fun c parts =>
    if c = mark then [] :: parts else (c :: parts.headD []) :: parts.tail) [[]]

/-! ### White space -/

/-- The characters with the property `White_Space`, as ranges of code points. -/
def blankRanges : List (Nat × Nat) :=
  [(0x09, 0x0D), (0x20, 0x20), (0x85, 0x85), (0xA0, 0xA0), (0x1680, 0x1680), (0x2000, 0x200A),
    (0x2028, 0x2029), (0x202F, 0x202F), (0x205F, 0x205F), (0x3000, 0x3000)]

def isBlank (c : Char) : Bool :=
  blankRanges.any fun r => r.1 ≤ c.toNat && c.toNat ≤ r.2

/-- The text without the white space at its end. -/
def trimRight (s : List Char) : List Char := (s.reverse.dropWhile isBlank).reverse

/-- Fills up with spaces to a number of characters. -/
def padRight (width : Nat) (s : List Char) : List Char :=
  s ++ List.replicate (width - s.length) ' '

/-! ### Hexadecimal digits -/

def hexValue? (c : Char) : Option Nat :=
  if c.isDigit then some (c.toNat - 48)
  else if 'a' ≤ c && c ≤ 'f' then some (c.toNat - 87)
  else if 'A' ≤ c && c ≤ 'F' then some (c.toNat - 55)
  else none

/-- The number of a list of hexadecimal digits. -/
def hexNumber? (digits : List Char) : Option Nat :=
  digits.foldlM (fun n c => (hexValue? c).map fun d => 16 * n + d) 0

/-- The byte of a percent sign and two hexadecimal digits. -/
def percentByte? : List Char → Option Nat
  | '%' :: a :: b :: _ => hexNumber? [a, b]
  | _ => none

/-! ### Bytes -/

/-- A character of which some bytes were read. -/
structure OpenChar where
  bits : Nat
  /-- How many bytes are still to come. -/
  missing : Nat
  /-- The least byte that may come next. -/
  low : Nat := 0x80
  /-- The greatest byte that may come next. -/
  high : Nat := 0xBF

namespace OpenChar

/-- The character that a byte starts. Bounds on the second byte keep out what has a shorter form,
what is half of a pair, and what is too large. -/
def first? (b : Nat) : Option OpenChar :=
  if b < 0x80 then some { bits := b, missing := 0 }
  else if 0xC2 ≤ b && b ≤ 0xDF then some { bits := b - 0xC0, missing := 1 }
  else if 0xE0 ≤ b && b ≤ 0xEF then
    some { bits := b - 0xE0, missing := 2
           low := if b = 0xE0 then 0xA0 else 0x80
           high := if b = 0xED then 0x9F else 0xBF }
  else if 0xF0 ≤ b && b ≤ 0xF4 then
    some { bits := b - 0xF0, missing := 3
           low := if b = 0xF0 then 0x90 else 0x80
           high := if b = 0xF4 then 0x8F else 0xBF }
  else none

/-- The character with one more byte. -/
def next? (c : OpenChar) (b : Nat) : Option OpenChar :=
  if c.low ≤ b && b ≤ c.high then
    some { bits := 64 * c.bits + (b - 0x80), missing := c.missing - 1 }
  else none

end OpenChar

/-- What stands for bytes that are no character. -/
def replacement : Char := '\uFFFD'

/-- What is written once no byte is missing, or none can follow. -/
def settle : Option OpenChar → List Char × Option OpenChar
  | none => ([replacement], none)
  | some c => if c.missing = 0 then ([Char.ofNat c.bits], none) else ([], some c)

/-- Reads a byte. One that does not continue a character starts another one. -/
def readByte (state : Option OpenChar) (b : Nat) : List Char × Option OpenChar :=
  match state with
  | none => settle (OpenChar.first? b)
  | some c =>
    match c.next? b with
    | some c => settle (some c)
    | none =>
      let (written, state) := settle (OpenChar.first? b)
      (replacement :: written, state)

/-- The characters of bytes that come after a state. -/
def readBytes : Option OpenChar → List UInt8 → List Char
  | none, [] => []
  | some _, [] => [replacement]
  | state, b :: rest =>
    let (written, state) := readByte state b.toNat
    written ++ readBytes state rest

/-- The text of bytes. -/
def ofBytes (bytes : List UInt8) : String := String.ofList (readBytes none bytes)

end TagSync.Text
