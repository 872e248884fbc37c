import TagSync.Decimal

/-!
JSON values, and how records are read from them.

An object keeps its fields in written order. A record may be written as an object or as the
array of its fields in order; `Json.fields?` reads both, so that a codec only lists the fields
of its record and says for each what an absent one means.
-/

namespace TagSync

inductive Json where
  | null
  | bool (b : Bool)
  | int (n : Int)
  | float (x : Float)
  | string (s : String)
  | array (elements : List Json)
  | object (fields : List (String × Json))
  deriving Inhabited

namespace Json

/-! ### Scalars -/

/-- An optional value; `null` when it is absent. -/
def ofOption {α : Type} (f : α → Json) : Option α → Json
  | none => .null
  | some a => f a

def ofOptionString : Option String → Json := ofOption .string

def string? : Json → Option String
  | .string s => some s
  | _ => none

def bool? : Json → Option Bool
  | .bool b => some b
  | _ => none

/-- An integer of so many bits; a number with a fraction part is none. -/
def signed? (bits : Nat) : Json → Option Int
  | .int n => if fitsSigned bits n then some n else none
  | _ => none

def int64? : Json → Option Int := signed? 64

def int32? : Json → Option Int := signed? 32

/-- A double; integers are taken for the nearest one. -/
def float? : Json → Option Float
  | .float x => some x
  | .int n => some (Float.ofInt n)
  | _ => none

/-- A value that may be `null`. -/
def optional? {α : Type} (f : Json → Option α) : Json → Option (Option α)
  | .null => some none
  | j => (f j).map some

def optionString? : Json → Option (Option String) := optional? string?

/-! ### Containers -/

def list? {α : Type} (f : Json → Option α) : Json → Option (List α)
  | .array elements => elements.mapM f
  | _ => none

/-- The entries of an object. -/
def entries? {α : Type} (f : Json → Option α) : Json → Option (List (String × α))
  | .object fields => fields.mapM fun p => (f p.2).map fun a => (p.1, a)
  | _ => none

/-- What an absent field of a record means. -/
inductive Absent where
  /-- The record is refused. -/
  | refused
  /-- The field is `null`, unless the record is written as an array. -/
  | null
  /-- The field has this value. -/
  | value (j : Json)

/-- The names of a record's fields in order. -/
abbrev Layout := List (String × Absent)

def field? (fields : List (String × Json)) (name : String) (absent : Absent) : Option Json :=
  match fields.lookup name, absent with
  | some j, _ => some j
  | none, .refused => none
  | none, .null => some .null
  | none, .value j => some j

/-- The fields of a record written in order; only fields with a value of their own may lack. -/
def positional? : Layout → List Json → Option (List Json)
  | [], [] => some []
  | [], _ :: _ => none
  | _ :: layout, j :: rest => (positional? layout rest).map (j :: ·)
  | (_, .value j) :: layout, [] => (positional? layout []).map (j :: ·)
  | (_, _) :: _, [] => none

/-- The fields of a record, in the order of its layout; others are ignored. -/
def fields? (layout : Layout) : Json → Option (List Json)
  | .object fields => layout.mapM fun p => field? fields p.1 p.2
  | .array elements => positional? layout elements
  | _ => none

/-- One of a set of names, plain or as the only key of an object that holds `null`. -/
def name? : Json → Option String
  | .string s => some s
  | .object [(s, .null)] => some s
  | _ => none

end Json

end TagSync
