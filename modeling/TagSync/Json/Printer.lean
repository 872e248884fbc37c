import TagSync.Decimal
import TagSync.Json

/-!
JSON text, compact and indented.

In strings only the quote, the backslash and the control characters are escaped. A double
that is no number is written `null`.
-/

namespace TagSync.Json

/-! ### Strings -/

def hexDigit (n : Nat) : Char := Char.ofNat (if n < 10 then 48 + n else 87 + n)

/-- A character as it stands in a string. -/
def escape (c : Char) : List Char :=
  match c with
  | '"' => ['\\', '"']
  | '\\' => ['\\', '\\']
  | '\n' => ['\\', 'n']
  | '\r' => ['\\', 'r']
  | '\t' => ['\\', 't']
  | _ =>
    if c.toNat = 8 then ['\\', 'b']
    else if c.toNat = 12 then ['\\', 'f']
    else if c.toNat < 32 then
      ['\\', 'u', '0', '0', hexDigit (c.toNat / 16), hexDigit (c.toNat % 16)]
    else [c]

def quote (s : String) : List Char := '"' :: (s.toList.flatMap escape ++ ['"'])

/-! ### Values -/

/-- A number, a name or a string. -/
def scalar : Json → List Char
  | .null => "null".toList
  | .bool b => (if b then "true" else "false").toList
  | .int n => (toString n).toList
  | .float x =>
    (if x.isNaN || x.isInf then "null" else Decimal.Style.json.render x).toList
  | .string s => quote s
  | .array _ => []
  | .object _ => []

mutual

/-- The text without any white space. -/
def compact : Json → List Char
  | .array [] => "[]".toList
  | .array (j :: rest) => '[' :: (compact j ++ compactMore rest ++ [']'])
  | .object [] => ['\x7b', '\x7d']
  | .object ((k, j) :: rest) =>
    '\x7b' :: (quote k ++ ':' :: compact j ++ compactFields rest ++ ['\x7d'])
  | j => scalar j

def compactMore : List Json → List Char
  | [] => []
  | j :: rest => ',' :: (compact j ++ compactMore rest)

def compactFields : List (String × Json) → List Char
  | [] => []
  | (k, j) :: rest => ',' :: (quote k ++ ':' :: compact j ++ compactFields rest)

end

/-- A new line at a depth of nesting, two spaces a level. -/
def newLine (depth : Nat) : List Char := '\n' :: List.replicate (2 * depth) ' '

mutual

/-- The text with one element or field on a line. -/
def indented (depth : Nat) : Json → List Char
  | .array [] => "[]".toList
  | .array (j :: rest) =>
    '[' :: (newLine (depth + 1) ++ indented (depth + 1) j ++ indentedMore (depth + 1) rest ++
      newLine depth ++ [']'])
  | .object [] => ['\x7b', '\x7d']
  | .object ((k, j) :: rest) =>
    '\x7b' :: (newLine (depth + 1) ++ quote k ++ ':' :: ' ' :: indented (depth + 1) j ++
      indentedFields (depth + 1) rest ++ newLine depth ++ ['\x7d'])
  | j => scalar j

def indentedMore (depth : Nat) : List Json → List Char
  | [] => []
  | j :: rest => ',' :: (newLine depth ++ indented depth j ++ indentedMore depth rest)

def indentedFields (depth : Nat) : List (String × Json) → List Char
  | [] => []
  | (k, j) :: rest =>
    ',' :: (newLine depth ++ quote k ++ ':' :: ' ' :: indented depth j ++
      indentedFields depth rest)

end

def render (j : Json) : String := String.ofList j.compact

def renderIndented (j : Json) : String := String.ofList (j.indented 0)

end TagSync.Json
