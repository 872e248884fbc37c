import TagSync.Decimal.Reader
import TagSync.Json
import TagSync.Text

/-!
Reading JSON text.

A number with a point or an exponent is a double, and so is `-0`; any other is an integer.
-/

namespace TagSync.Json

def isSpace (c : Char) : Bool := c = ' ' || c = '\n' || c = '\r' || c = '\t'

def skipSpace (s : List Char) : List Char := s.dropWhile isSpace

/-! ### Strings -/

/-- The number four hexadecimal digits spell, and the rest. -/
def hex4? : List Char → Option (Nat × List Char)
  | a :: b :: c :: d :: rest => (Text.hexNumber? [a, b, c, d]).map fun n => (n, rest)
  | _ => none

/-- The character of an escape by number; two halves of a pair make one character. -/
def unicode? (s : List Char) : Option (Char × List Char) := do
  let (n, rest) ← hex4? s
  if 0xD800 ≤ n && n < 0xDC00 then
    let '\\' :: 'u' :: rest := rest | none
    let (m, rest) ← hex4? rest
    if 0xDC00 ≤ m && m < 0xE000 then
      return (Char.ofNat (0x10000 + (n - 0xD800) * 0x400 + (m - 0xDC00)), rest)
    else none
  else if 0xDC00 ≤ n && n < 0xE000 then none
  else return (Char.ofNat n, rest)

def simpleEscape? : Char → Option Char
  | '"' => some '"'
  | '\\' => some '\\'
  | '/' => some '/'
  | 'b' => some (Char.ofNat 8)
  | 'f' => some (Char.ofNat 12)
  | 'n' => some '\n'
  | 'r' => some '\r'
  | 't' => some '\t'
  | _ => none

/-- What is left of a string after its opening quote; `done` holds what was read, last first. -/
def stringTail? : Nat → List Char → List Char → Option (String × List Char)
  | 0, _, _ => none
  | fuel + 1, done, s =>
    match s with
    | '"' :: rest => some (String.ofList done.reverse, rest)
    | '\\' :: 'u' :: rest => do
      let (c, rest) ← unicode? rest
      stringTail? fuel (c :: done) rest
    | '\\' :: c :: rest => do stringTail? fuel ((← simpleEscape? c) :: done) rest
    | c :: rest => if c.toNat < 32 then none else stringTail? fuel (c :: done) rest
    | [] => none

/-! ### Numbers -/

def isNumberPart (c : Char) : Bool :=
  c.isDigit || c = '-' || c = '+' || c = '.' || c = 'e' || c = 'E'

/-- The number of a text without blanks. -/
def number? (s : List Char) : Option Json :=
  let (negative, digits) :=
    match s with
    | '-' :: r => (true, r)
    | r => (false, r)
  let whole := digits.takeWhile Char.isDigit
  if whole.isEmpty || (whole.length > 1 && whole.head? == some '0') then none
  else if whole.length = digits.length && !(negative && whole == ['0']) then
    let n : Int := Decimal.ofDigits whole
    some (.int (if negative then -n else n))
  else (Decimal.unsigned? digits).map fun d =>
    .float (if negative then -d.toFloat else d.toFloat)

/-! ### Values -/

mutual

def value? : Nat → List Char → Option (Json × List Char)
  | 0, _ => none
  | fuel + 1, s =>
    match skipSpace s with
    | 'n' :: 'u' :: 'l' :: 'l' :: rest => some (.null, rest)
    | 't' :: 'r' :: 'u' :: 'e' :: rest => some (.bool true, rest)
    | 'f' :: 'a' :: 'l' :: 's' :: 'e' :: rest => some (.bool false, rest)
    | '"' :: rest => (stringTail? (rest.length + 1) [] rest).map fun p => (.string p.1, p.2)
    | '[' :: rest =>
      match skipSpace rest with
      | ']' :: rest => some (.array [], rest)
      | rest => (elements? fuel rest).map fun p => (.array p.1, p.2)
    | '\x7b' :: rest =>
      match skipSpace rest with
      | '\x7d' :: rest => some (.object [], rest)
      | rest => (members? fuel rest).map fun p => (.object p.1, p.2)
    | s => (number? (s.takeWhile isNumberPart)).map fun j => (j, s.dropWhile isNumberPart)

/-- The elements of an array up to its end. -/
def elements? : Nat → List Char → Option (List Json × List Char)
  | 0, _ => none
  | fuel + 1, s => do
    let (j, rest) ← value? fuel s
    match skipSpace rest with
    | ',' :: rest => (elements? fuel rest).map fun p => (j :: p.1, p.2)
    | ']' :: rest => some ([j], rest)
    | _ => none

/-- The fields of an object up to its end. -/
def members? : Nat → List Char → Option (List (String × Json) × List Char)
  | 0, _ => none
  | fuel + 1, s => do
    let '"' :: rest := skipSpace s | none
    let (k, rest) ← stringTail? (rest.length + 1) [] rest
    let ':' :: rest := skipSpace rest | none
    let (j, rest) ← value? fuel rest
    match skipSpace rest with
    | ',' :: rest => (members? fuel rest).map fun p => ((k, j) :: p.1, p.2)
    | '\x7d' :: rest => some ([(k, j)], rest)
    | _ => none

end

/-- The value of a whole text. -/
def parse? (text : String) : Option Json := do
  let s := text.toList
  let (j, rest) ← value? (s.length + 1) s
  if (skipSpace rest).isEmpty then some j else none

end TagSync.Json
