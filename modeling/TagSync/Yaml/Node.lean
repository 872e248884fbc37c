import TagSync.Yaml.Token

/-!
YAML documents as trees, and how tokens make one.

Tags are resolved with the handles that are declared in front of the document. Anchors and
aliases are kept as they are, by name.
-/

namespace TagSync.Yaml

/-- A node whose anchors are told apart by labels of some type. -/
inductive Node (Label : Type) where
  | scalar (anchor : Option Label) (tag : Option Tag) (style : ScalarStyle) (text : String)
  | alias (anchor : Label)
  | sequence (anchor : Option Label) (tag : Option Tag) (items : List (Node Label))
  | mapping (anchor : Option Label) (tag : Option Tag)
    (entries : List (Node Label × Node Label))
  deriving Inhabited

namespace Node

/-- A node as it is written. -/
abbrev Named := Node String

/-- What stands where a node is left out. -/
def empty : Named := .scalar none none .plain ""

/-- The handles a document knows, with what they stand for. -/
abbrev Handles := List (String × Tag)

/-- The anchor and the tag in front of a node. -/
structure Properties where
  anchor : Option String := none
  tag : Option Tag := none

/-- A tag in full. -/
def resolveTag? (handles : Handles) (handle : String) (suffix : Tag) : Option Tag :=
  if handle.isEmpty then some suffix else (handles.lookup handle).map (· ++ suffix)

/-- An anchor and a tag, in either order. -/
def properties? (handles : Handles) (ts : List Token) : Option (Properties × List Token) :=
  match ts with
  | .anchor a :: .tag h s :: rest =>
    (resolveTag? handles h s).map fun t => (⟨some a, some t⟩, rest)
  | .anchor a :: rest => some (⟨some a, none⟩, rest)
  | .tag h s :: .anchor a :: rest =>
    (resolveTag? handles h s).map fun t => (⟨some a, some t⟩, rest)
  | .tag h s :: rest => (resolveTag? handles h s).map fun t => (⟨none, some t⟩, rest)
  | rest => some ({}, rest)

/-- Whether an item or an entry is left out before this token. -/
def isBlockStop : List Token → Bool
  | .key :: _ | .value :: _ | .blockEntry :: _ | .blockEnd :: _ => true
  | _ => false

/-- Whether an entry inside brackets ends before this token. -/
def isFlowStop (close : Token) : List Token → Bool
  | t :: _ => t = .flowEntry || t = close
  | [] => false

/-- Whether the key of an entry inside brackets is left out. -/
def isKeyless (close : Token) (ts : List Token) : Bool :=
  isFlowStop close ts || ts.head? = some .value

/-- Whether the next item of a block sequence is left out. -/
def isItemStop : List Token → Bool
  | .blockEntry :: _ | .blockEnd :: _ => true
  | _ => false

/-- Whether the key or the value of a block mapping is left out. -/
def isEntryStop : List Token → Bool
  | .key :: _ | .value :: _ | .blockEnd :: _ => true
  | _ => false

mutual

/-- The node that starts here. `block` allows for blocks, and `dashes` for a sequence whose
dashes are not indented deeper than the mapping it is a value of. -/
def read? (handles : Handles) :
    Nat → (block dashes : Bool) → List Token → Option (Named × List Token)
  | 0, _, _, _ => none
  | fuel + 1, block, dashes, ts => do
    if let .alias name :: rest := ts then return (.alias name, rest)
    let (p, ts) ← properties? handles ts
    match ts, block, dashes with
    | .blockEntry :: _, _, true =>
      let (items, rest) ← dashedItems? handles fuel ts
      return (.sequence p.anchor p.tag items, rest)
    | .scalar style text :: rest, _, _ =>
      return (.scalar p.anchor p.tag style text, rest)
    | .flowSequenceStart :: rest, _, _ =>
      let (items, rest) ← flowItems? handles fuel true rest
      return (.sequence p.anchor p.tag items, rest)
    | .flowMappingStart :: rest, _, _ =>
      let (entries, rest) ← flowEntries? handles fuel true rest
      return (.mapping p.anchor p.tag entries, rest)
    | .blockSequenceStart :: rest, true, _ =>
      let (items, rest) ← blockItems? handles fuel rest
      return (.sequence p.anchor p.tag items, rest)
    | .blockMappingStart :: rest, true, _ =>
      let (entries, rest) ← blockEntries? handles fuel rest
      return (.mapping p.anchor p.tag entries, rest)
    | rest, _, _ =>
      if p.anchor.isSome || p.tag.isSome then return (.scalar p.anchor p.tag .plain "", rest)
      else none

/-- The items of a block sequence up to its end. -/
def blockItems? (handles : Handles) : Nat → List Token → Option (List Named × List Token)
  | 0, _ => none
  | fuel + 1, .blockEntry :: ts => do
    let (item, ts) ← if isItemStop ts then some (empty, ts) else read? handles fuel true false ts
    let (items, ts) ← blockItems? handles fuel ts
    return (item :: items, ts)
  | _ + 1, .blockEnd :: ts => some ([], ts)
  | _ + 1, _ => none

/-- The items of a sequence that is no block of its own; what follows is not part of it. -/
def dashedItems? (handles : Handles) : Nat → List Token → Option (List Named × List Token)
  | 0, _ => none
  | fuel + 1, .blockEntry :: ts => do
    let (item, ts) ← if isBlockStop ts then some (empty, ts) else read? handles fuel true false ts
    let (items, ts) ← dashedItems? handles fuel ts
    return (item :: items, ts)
  | _ + 1, ts => some ([], ts)

/-- The entries of a block mapping up to its end. -/
def blockEntries? (handles : Handles) :
    Nat → List Token → Option (List (Named × Named) × List Token)
  | 0, _ => none
  | fuel + 1, .key :: ts => do
    let (key, ts) ← if isEntryStop ts then some (empty, ts) else read? handles fuel true true ts
    let (value, ts) ←
      match ts with
      | .value :: ts => if isEntryStop ts then some (empty, ts) else read? handles fuel true true ts
      | ts => some (empty, ts)
    let (entries, ts) ← blockEntries? handles fuel ts
    return ((key, value) :: entries, ts)
  | _ + 1, .blockEnd :: ts => some ([], ts)
  | _ + 1, _ => none

/-- A value inside brackets, if there is one. -/
def flowValue? (handles : Handles) (close : Token) :
    Nat → List Token → Option (Named × List Token)
  | 0, _ => none
  | fuel + 1, .value :: ts =>
    if isFlowStop close ts then some (empty, ts)
    else read? handles fuel false false ts
  | _ + 1, ts => some (empty, ts)

/-- A mapping of one entry among the items of a sequence; its question mark lies before. When
the key is left out the token that stands in its place is passed over. -/
def singleEntry? (handles : Handles) : Nat → List Token → Option (Named × List Token)
  | 0, _ => none
  | fuel + 1, ts => do
    let (key, ts) ←
      if isKeyless .flowSequenceEnd ts then some (empty, ts.tail)
      else read? handles fuel false false ts
    let (value, ts) ← flowValue? handles .flowSequenceEnd fuel ts
    return (.mapping none none [(key, value)], ts)

/-- The items of a sequence in brackets up to its end; each but the first follows a comma. -/
def flowItems? (handles : Handles) :
    Nat → (first : Bool) → List Token → Option (List Named × List Token)
  | 0, _, _ => none
  | _ + 1, _, .flowSequenceEnd :: ts => some ([], ts)
  | fuel + 1, first, ts => do
    let ts ←
      match first, ts with
      | true, ts => some ts
      | false, .flowEntry :: ts => some ts
      | false, _ => none
    match ts with
    | .flowSequenceEnd :: ts => return ([], ts)
    | .key :: ts =>
      let (item, ts) ← singleEntry? handles fuel ts
      let (items, ts) ← flowItems? handles fuel false ts
      return (item :: items, ts)
    | ts =>
      let (item, ts) ← read? handles fuel false false ts
      let (items, ts) ← flowItems? handles fuel false ts
      return (item :: items, ts)

/-- The entries of a mapping in braces up to its end. -/
def flowEntries? (handles : Handles) :
    Nat → (first : Bool) → List Token → Option (List (Named × Named) × List Token)
  | 0, _, _ => none
  | _ + 1, _, .flowMappingEnd :: ts => some ([], ts)
  | fuel + 1, first, ts => do
    let ts ←
      match first, ts with
      | true, ts => some ts
      | false, .flowEntry :: ts => some ts
      | false, _ => none
    match ts with
    | .flowMappingEnd :: ts => return ([], ts)
    | .key :: ts =>
      let (key, ts) ←
        if isKeyless .flowMappingEnd ts then some (empty, ts)
        else read? handles fuel false false ts
      let (value, ts) ← flowValue? handles .flowMappingEnd fuel ts
      let (entries, ts) ← flowEntries? handles fuel false ts
      return ((key, value) :: entries, ts)
    | ts =>
      let (key, ts) ← read? handles fuel false false ts
      let (entries, ts) ← flowEntries? handles fuel false ts
      return ((key, empty) :: entries, ts)

end

/-! ### Whole texts -/

/-- Reads the directives in front of a document. -/
def directives? : (versioned : Bool) → Handles → List Token → Option (Handles × List Token)
  | versioned, handles, .versionDirective major minor :: ts =>
    if versioned || major ≠ 1 || (minor ≠ 1 && minor ≠ 2) then none
    else directives? true handles ts
  | versioned, handles, .tagDirective handle start :: ts =>
    if (handles.lookup handle).isSome then none
    else directives? versioned (handles ++ [(handle, start)]) ts
  | _, handles, ts =>
    some (handles ++ [("!", Tag.ofChars ['!']), ("!!", Tag.corePart)], ts)

def isDocumentBoundary : List Token → Bool
  | [] => true
  | .versionDirective .. :: _ | .tagDirective .. :: _ | .documentStart :: _
  | .documentEnd :: _ => true
  | _ => false

/-- The only document of a list of tokens. -/
def ofTokens? (tokens : List Token) : Option Named := do
  let fuel := 3 * tokens.length + 3
  let (node, rest) ←
    if tokens.isEmpty then none
    else if isDocumentBoundary tokens then do
      let (handles, ts) ← directives? false [] tokens
      let .documentStart :: ts := ts | none
      if isDocumentBoundary ts then some (empty, ts) else read? handles fuel true false ts
    else do
      let (handles, ts) ← directives? false [] tokens
      read? handles fuel true false ts
  if rest.all (· = .documentEnd) then some node else none

end Node

end TagSync.Yaml
