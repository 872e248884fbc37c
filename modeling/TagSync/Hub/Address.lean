import TagSync.Decimal.Reader
import TagSync.Text

/-!
Addresses of hubs.

An address is the path of a file as it is, or starts with `file:`. Then a query with options may
follow the path, and a fragment, which means nothing. In such an address characters may be
escaped by a percent sign.
-/

namespace TagSync

/-- What may be done to the file of a hub. -/
inductive Access where
  | readOnly
  | readWrite
  /-- The file is made if it is missing. -/
  | create
  /-- The hub has no file at all. -/
  | memory
  deriving DecidableEq, Repr

namespace Access

def named? : String → Option Access
  | "ro" => some .readOnly
  | "rw" => some .readWrite
  | "rwc" => some .create
  | "memory" => some .memory
  | _ => none

/-- How much is allowed. A hub without a file sets no bound on what may be asked for. -/
def rank : Access → Nat
  | .readOnly => 1
  | .readWrite => 2
  | .create => 3
  | .memory => 4

/-- Whether one access may be asked for when another one is granted. -/
def isWithin (asked granted : Access) : Bool := asked = .memory || asked.rank ≤ granted.rank

end Access

/-- How a hub is kept. -/
inductive Medium where
  | file
  /-- In a file that nobody else may use meanwhile. A log beside it needs no index then. -/
  | exclusive
  /-- In a file that nobody is kept from. A log beside the file cannot be used then. -/
  | unlocked
  /-- Nowhere: it is gone when it is closed. -/
  | memory
  deriving DecidableEq, Repr

namespace Medium

def named? : String → Option Medium
  | "unix" => some .file
  | "unix-excl" => some .exclusive
  | "unix-none" | "unix-dotfile" => some .unlocked
  | "memdb" => some .memory
  | _ => none

end Medium

structure HubAddress where
  /-- The path of the hub's file; without a path the hub has no file. -/
  path : String
  access : Access := .create
  medium : Medium := .file
  /-- Whether the file is taken to be one that never changes. -/
  frozen : Bool := false
  /-- Whether the index of a log is only used if it is there. -/
  fixedIndex : Bool := false
  /-- The path of a file whose permissions a new hub gets. -/
  pattern : Option String := none
  deriving DecidableEq, Repr

namespace HubAddress

/-- The path of a hub that has no file. -/
def volatilePath : String := ":memory:"

/-- Whether the hub has a name of its own. -/
def isNamed (a : HubAddress) : Bool :=
  !a.path.isEmpty && a.path ≠ volatilePath && a.access ≠ .memory

def isVolatile (a : HubAddress) : Bool := !a.isNamed || a.medium = .memory

/-- Whether nothing may be written. -/
def isReadOnly (a : HubAddress) : Bool := a.access = .readOnly || (a.frozen && a.isNamed)

/-- Whether changes may go by a log beside the file. -/
def usesLog (a : HubAddress) : Bool := a.medium ≠ .unlocked && !a.frozen

/-- Whether the log cannot be used, since its index is gone when nobody uses it. -/
def lacksIndex (a : HubAddress) : Bool := a.usesLog && a.fixedIndex && a.medium = .file

/-! ### Escapes -/

/-- The bytes of a text with its escapes resolved. -/
def unescape : List Char → List UInt8
  | [] => []
  | '%' :: a :: b :: rest =>
    match Text.percentByte? ['%', a, b] with
    | some n => n.toUInt8 :: unescape rest
    | none => 0x25 :: unescape (a :: b :: rest)
  | c :: rest => String.utf8EncodeChar c ++ unescape rest

/-- The text of a part of an address. A zero byte ends it. -/
def partText (s : List Char) : String :=
  Text.ofBytes ((unescape s).takeWhile (· ≠ 0))

/-! ### Options -/

/-- An option, which may be left without a value. -/
def readOption (s : List Char) : String × String :=
  (partText (s.takeWhile (· ≠ '=')), partText ((s.dropWhile (· ≠ '=')).drop 1))

/-- The options of a query. One without a name is passed over. -/
def readOptions (query : List Char) : List (String × String) :=
  ((Text.parts '&' query).map readOption).filter fun o => !o.1.isEmpty

/-- The number that a text starts with: decimal digits, or hexadecimal ones after `0x`. -/
def leadingNumber : List Char → Nat
  | '0' :: 'x' :: rest | '0' :: 'X' :: rest =>
    (Text.hexNumber? (rest.takeWhile fun c => (Text.hexValue? c).isSome)).getD 0
  | s => Decimal.ofDigits (s.takeWhile Char.isDigit)

/--
Whether a value says yes. A number does if its lowest byte is not zero; one that is too large for
a signed number of 32 bits counts as zero.
-/
def saysYes (value : String) : Bool :=
  if value.toList.head?.any Char.isDigit then
    let n := leadingNumber value.toList
    fitsUnsigned 31 n && n % 256 ≠ 0
  else ["on", "yes", "true"].contains value.toLower

def isOn (options : List (String × String)) (name : String) : Bool :=
  (options.lookup name).any saysYes

/-- Obeys an option about how the hub is shared or what may be done to it. -/
def obey (a : HubAddress) (option : String × String) : Except String HubAddress :=
  match option with
  | ("cache", value) =>
    if value = "shared" || value = "private" then .ok a
    else .error ("no such cache mode: " ++ value)
  | ("mode", value) =>
    match Access.named? value with
    | none => .error ("no such access mode: " ++ value)
    | some access =>
      if access.isWithin a.access then .ok { a with access }
      else .error ("access mode not allowed: " ++ value)
  | _ => .ok a

/-- The medium that the last option of that kind asks for. -/
def mediumOf (options : List (String × String)) : Except String Medium :=
  match options.reverse.lookup "vfs" with
  | none => .ok .file
  | some name =>
    match Medium.named? name with
    | some medium => .ok medium
    | none => .error ("no such vfs: " ++ name)

/-! ### Whole addresses -/

/-- What follows the name of a host; only the own one is known. -/
def afterHost : List Char → Except String (List Char)
  | '/' :: '/' :: rest =>
    let host := rest.takeWhile (· ≠ '/')
    if host.isEmpty || host = "localhost".toList then .ok (rest.dropWhile (· ≠ '/'))
    else .error ("invalid uri authority: " ++ String.ofList host)
  | s => .ok s

/-- The address that follows its scheme. -/
def ofLocator (s : List Char) : Except String HubAddress := do
  let s := (← afterHost s).takeWhile (· ≠ '#')
  let options := readOptions ((s.dropWhile (· ≠ '?')).drop 1)
  let a ← options.foldlM obey { path := partText (s.takeWhile (· ≠ '?')) }
  let medium ← mediumOf options
  return { a with
    medium := if medium ≠ .memory && isOn options "nolock" then .unlocked else medium
    frozen := isOn options "immutable"
    fixedIndex := isOn options "readonly_shm"
    pattern := options.lookup "modeof" }

/-- Reads an address, or tells what is wrong with it. -/
def parse (address : String) : Except String HubAddress :=
  match address.toList with
  | 'f' :: 'i' :: 'l' :: 'e' :: ':' :: s => ofLocator s
  | _ => .ok { path := address }

end HubAddress

end TagSync
