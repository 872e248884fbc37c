/-!
The tokens of a YAML text, and the tags that some of them hold.

Indentation shows as tokens of its own: a block starts where a line is indented deeper, and
ends where one is not. A tag tells what kind of thing a node is. Its bytes may be escaped one by
one, so a tag need not be a text.
-/

namespace TagSync.Yaml

/-! ### Tags -/

/-- The bytes of a tag. -/
abbrev Tag := List UInt8

namespace Tag

def ofChars (s : List Char) : Tag := s.flatMap String.utf8EncodeChar

/-- What the tags of common types start with. -/
def corePart : Tag := ofChars "tag:yaml.org,2002:".toList

/-- The tag of a type that every document knows. -/
def core (type : String) : Tag := corePart ++ ofChars type.toList

/-- Whether the tag means something in its own document only: it starts with an exclamation
mark. -/
def isLocal (t : Tag) : Bool := t.head? = some 0x21

/-- Whether the tag names one of several kinds of value, which takes a text behind the
exclamation mark. -/
def namesKind (t : Tag) : Bool := t.isLocal && (String.fromUTF8? ⟨t.tail.toArray⟩).isSome

/-- Whether the tag says that a scalar is no text. -/
def deniesText (t : Tag) : Bool :=
  t.namesKind || (["bool", "int", "float", "null"].map core).contains t

end Tag

/-! ### Tokens -/

/-- How a scalar is written. -/
inductive ScalarStyle where
  | plain
  | singleQuoted
  | doubleQuoted
  | literal
  | folded
  deriving DecidableEq, Repr

inductive Token where
  | versionDirective (major minor : Nat)
  | tagDirective (handle : String) (start : Tag)
  /-- Three dashes. -/
  | documentStart
  /-- Three points. -/
  | documentEnd
  | blockSequenceStart
  | blockMappingStart
  | blockEnd
  | flowSequenceStart
  | flowSequenceEnd
  | flowMappingStart
  | flowMappingEnd
  /-- The dash of an item. -/
  | blockEntry
  /-- The comma between two items. -/
  | flowEntry
  | key
  | value
  | alias (name : String)
  | anchor (name : String)
  | tag (handle : String) (suffix : Tag)
  | scalar (style : ScalarStyle) (text : String)
  deriving DecidableEq, Repr

end TagSync.Yaml
