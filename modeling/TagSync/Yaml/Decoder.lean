import TagSync.Decimal.Reader
import TagSync.Yaml.Document

/-!
Reading values of a known type from a document.

A text is taken from any scalar, whatever it looks like. Truth values and integers are taken
from plain scalars only, or from literal ones with the right tag. Where something is left out,
a list has no items and a record no fields.

Integers are decimal without leading zeros, or have a base in front, as in `0x1f`.
-/

namespace TagSync.Yaml

/-! ### Numbers as scalars spell them -/

namespace Number

/-- The value of a digit, of a letter beyond nine. -/
def digit? (base : Nat) (c : Char) : Option Nat :=
  let n :=
    if c.isDigit then c.toNat - 48
    else if c.isAlpha then c.toLower.toNat - 87
    else base
  if n < base then some n else none

/-- The number of one or more digits. -/
def natural? (base : Nat) (digits : List Char) : Option Nat :=
  if digits.isEmpty then none
  else digits.foldlM (fun n c => (digit? base c).map fun d => base * n + d) 0

/-- An integer without a sign. -/
def magnitude? : List Char → Option Nat
  | '0' :: 'x' :: digits => natural? 16 digits
  | '0' :: 'o' :: digits => natural? 8 digits
  | '0' :: 'b' :: digits => natural? 2 digits
  | '0' :: _ :: _ => none
  | digits => natural? 10 digits

/-- An integer that may have a plus sign. -/
def unsigned? : List Char → Option Nat
  | '+' :: s => magnitude? s
  | s => magnitude? s

/-- An integer that may have a sign. -/
def signed? : List Char → Option Int
  | '-' :: s => (magnitude? s).map fun n => -(n : Int)
  | s => (unsigned? s).map Int.ofNat

/-- Whether a text is an integer of at most 128 bits, with or without a sign bit. -/
def isInteger (s : List Char) : Bool :=
  (signed? s).any fun n => fitsSigned 128 n || (0 ≤ n && fitsUnsigned 128 n.toNat)

/-- Whether a text has only digits behind its sign, and a zero too many in front of them. -/
def hasLeadingZero (s : List Char) : Bool :=
  let digits := match s with
    | '+' :: r => r
    | '-' :: r => r
    | r => r
  match digits with
  | '0' :: c :: r => (c :: r).all Char.isDigit
  | _ => false

/-- Whether a text is a number with a point or an exponent, or names infinity or no number. -/
def isReal (s : List Char) : Bool :=
  let unsigned := match s with
    | '+' :: r => r
    | r => r
  let text := String.ofList unsigned
  let doubled := s.head? = some '+' && unsigned.head?.any fun c => c = '+' || c = '-'
  !hasLeadingZero s && !doubled &&
    ([".inf", ".Inf", ".INF"].contains text ||
      ["-.inf", "-.Inf", "-.INF", ".nan", ".NaN", ".NAN"].contains (String.ofList s) ||
      (Decimal.parse? text).any Float.isFinite)

end Number

/-! ### Decoders -/

/-- A reader of values; its state counts the aliases that were followed. -/
abbrev Decoder := ReaderT Document (StateT Nat Option)

namespace Decoder

/-- Reads what an alias leads to. -/
def following {α : Type} (f : Node Nat → Decoder α) : Node Nat → Decoder α
  | .alias anchor => do
    let document ← read
    let followed := (← get) + 1
    set followed
    if document.limit < followed then failure
    let some n := document.anchors.lookup anchor | failure
    f n
  | n => f n

/-! ### Scalars -/

def text : Node Nat → Decoder String :=
  following fun
    | .scalar _ _ _ s => return s
    | _ => failure

def isNull (s : String) : Bool := ["null", "Null", "NULL", "~"].contains s

/-- A text, or nothing where a plain scalar is empty or says so. -/
def optionalText : Node Nat → Decoder (Option String) :=
  following fun
    | .scalar _ (some tag) .plain s =>
      if tag = Tag.core "null" then (if isNull s then return none else failure)
      else return some s
    | .scalar _ none .plain s => return if s.isEmpty || isNull s then none else some s
    | .scalar _ _ _ s => return some s
    | _ => failure

def bool? (s : String) : Option Bool :=
  if ["true", "True", "TRUE"].contains s then some true
  else if ["false", "False", "FALSE"].contains s then some false
  else none

/-- A scalar that may stand for a value of a core type. -/
def typed {α : Type} (type : String) (f : String → Option α) : Node Nat → Decoder α :=
  following fun
    | .scalar _ tag style s =>
      if style = .plain || (style = .literal && tag = some (Tag.core type)) then
        match f s with
        | some a => return a
        | none => failure
      else failure
    | _ => failure

def bool : Node Nat → Decoder Bool := typed "bool" bool?

/-- An integer of 32 bits without a sign bit. -/
def unsigned32 : Node Nat → Decoder Nat :=
  typed "int" fun s => (Number.unsigned? s.toList).filter (fitsUnsigned 32)

/-- An integer of 64 bits with its sign. -/
def signed64 : Node Nat → Decoder Int :=
  typed "int" fun s => (Number.signed? s.toList).filter (fitsSigned 64)

/-- Whether a scalar by its look stands for a text. -/
def looksLikeText (s : String) : Bool :=
  !(s.isEmpty || isNull s || (bool? s).isSome || Number.isInteger s.toList ||
    Number.isReal s.toList)

/-- Whether a scalar stands for a text. The look of a plain one decides, unless it has a tag that
means the same everywhere. -/
def isText (tag : Option Tag) (style : ScalarStyle) (s : String) : Bool :=
  !tag.any Tag.deniesText && (style ≠ .plain || !tag.all Tag.isLocal || looksLikeText s)

/-! ### Containers -/

def list {α : Type} (f : Node Nat → Decoder α) : Node Nat → Decoder (List α) :=
  following fun
    | .sequence _ _ items => items.mapM f
    | .scalar _ _ .plain "" => return []
    | _ => failure

/-- The entries of a mapping with their keys read. -/
def keyed (entries : List (Node Nat × Node Nat)) : Decoder (List (String × Node Nat)) :=
  entries.mapM fun p => do return (← text p.1, p.2)

/-- The fields of a record, each if it is there. A record is written as a mapping, where other
keys do not matter. -/
def fields (names : List String) : Node Nat → Decoder (List (Option (Node Nat))) :=
  following fun
    | .mapping _ _ entries => do
      let known := (← keyed entries).filter fun p => names.contains p.1
      if (known.map (·.1)).eraseDups.length = known.length then
        return names.map fun name => known.lookup name
      else failure
    | .scalar _ _ .plain "" => return names.map fun _ => none
    | _ => failure

def required {α : Type} (f : Node Nat → Decoder α) : Option (Node Nat) → Decoder α
  | some n => f n
  | none => failure

def withDefault {α : Type} (a : α) (f : Node Nat → Decoder α) : Option (Node Nat) → Decoder α
  | some n => f n
  | none => return a

/-- Either a text or a mapping, told apart by how the node looks. -/
def textOrMapping {α : Type} (ofText : String → α)
    (ofEntries : List (String × Node Nat) → Decoder α) : Node Nat → Decoder α :=
  following fun
    | .scalar _ tag style s => if isText tag style s then return ofText s else failure
    | .mapping _ tag entries => do
      if tag.any Tag.namesKind then failure
      ofEntries (← keyed entries)
    | _ => failure

/-- The value of a whole text. -/
def run? {α : Type} (f : Node Nat → Decoder α) (text : String) : Option α := do
  let document ← Document.parse? text
  let (a, _) ← (f document.root).run document |>.run 0
  return a

end Decoder

end TagSync.Yaml
