/-!
Reading the words of a command line, level by level.

A level is a command with options of its own. Its options stand in any order, each at most once.
The first word that is no option names a command of the next level, or is an operand where a
level has no commands.
-/

namespace TagSync.CommandLine

/-- Why no command line comes out. -/
inductive Stop where
  /-- The words are wrong. -/
  | misuse
  /-- Help was asked for; its text. -/
  | help (text : String)
  deriving DecidableEq, Repr

/-! ### Words -/

/-- A word by its outer form. -/
inductive Word where
  /-- Two dashes alone: what follows is taken as it is. -/
  | separator
  | long (name : String) (value : Option String)
  /-- Short options behind one dash. -/
  | letters (letters : List Char)
  | plain (text : String)
  deriving DecidableEq, Repr

/-- A value behind `=`. -/
def assigned? : List Char → Option String
  | '=' :: value => some (String.ofList value)
  | _ => none

/-- A dash alone is a plain word. -/
def Word.ofString (s : String) : Word :=
  match s.toList with
  | ['-', '-'] => .separator
  | '-' :: '-' :: rest =>
    .long (String.ofList (rest.takeWhile (· ≠ '='))) (assigned? (rest.dropWhile (· ≠ '=')))
  | '-' :: c :: rest => .letters (c :: rest)
  | _ => .plain s

/-- A dash and digits. -/
def isNegative (s : String) : Bool :=
  match s.toList with
  | '-' :: c :: rest => (c :: rest).all Char.isDigit
  | _ => false

/-! ### Options -/

/-- What an option does to the settings of its level. -/
inductive Effect (σ : Type) where
  | help
  /-- Takes no value. -/
  | switch (set : σ → σ)
  /-- Takes a value, behind `=` or as the next word, and may refuse it. The next word must not
  look like an option, unless it is a negative number and these are `signed` values. -/
  | setting (signed : Bool) (set : String → σ → Option σ)

structure OptionRule (σ : Type) where
  name : String
  /-- The short form; only for options without a value. -/
  letter : Option Char := none
  effect : Effect σ

/-- What a level does with a plain word. -/
inductive Operand (σ : Type) where
  /-- It names a command, which takes the rest. -/
  | command
  /-- It is added to the settings, or refused. -/
  | value (add : String → σ → Option σ)

structure Level (σ : Type) where
  /-- How the level is used, in one line. -/
  usage : String
  options : List (OptionRule σ)
  operand : Operand σ

/-- What a level has read. -/
structure Reading (σ : Type) where
  settings : σ
  /-- The names of the options that were given. -/
  given : List String := []

namespace Reading

variable {σ : Type}

/-- Goes on with settings, unless they were refused. -/
def accept (r : Reading σ) : Option σ → Except Stop (Reading σ)
  | some settings => .ok { r with settings }
  | none => .error .misuse

/-- Goes on with the settings after an option; an option that is given again is misuse. -/
def give (r : Reading σ) (name : String) (settings : Option σ) : Except Stop (Reading σ) :=
  if r.given.contains name then .error .misuse
  else { r with given := name :: r.given }.accept settings

end Reading

/-! ### Levels -/

namespace Level

variable {σ : Type}

/-- The lines of a level's help text. -/
def help (l : Level σ) : String :=
  let line (o : OptionRule σ) : String :=
    (match o.letter with
      | some c => "  -" ++ c.toString ++ ", "
      | none => "      ") ++ "--" ++ o.name ++
    (match o.effect with
      | .setting .. => " <VALUE>\n"
      | _ => "\n")
  "Usage: tagclone " ++ l.usage ++ "\n\nOptions:\n" ++ String.join (l.options.map line)

/-- Options without a value, by their letters. -/
def readLetters (l : Level σ) : List Char → Reading σ → Except Stop (Reading σ)
  | [], r => .ok r
  | c :: rest, r =>
    match l.options.find? (·.letter == some c) with
    | some ⟨_, _, .help⟩ => .error (.help l.help)
    | some ⟨name, _, .switch set⟩ => do
      readLetters l rest (← r.give name (some (set r.settings)))
    | _ => .error .misuse

/-- Words that are all operands. -/
def readOperands (l : Level σ) : List String → Reading σ → Except Stop (Reading σ)
  | [], r => .ok r
  | word :: rest, r =>
    match l.operand with
    | .command => .error .misuse
    | .value add => do readOperands l rest (← r.accept (add word r.settings))

/-- Whether a word may be the value of an option before it. -/
def isValue (signed : Bool) (word : String) : Bool :=
  match Word.ofString word with
  | .plain _ => true
  | _ => signed && isNegative word

/-- Reads the words of a level, up to a command if there is one: its name and the words left
for it. -/
def read (l : Level σ) (words : List String) (r : Reading σ) :
    Except Stop (Reading σ × Option (String × List String)) :=
  match words with
  | [] => .ok (r, none)
  | word :: rest =>
    match Word.ofString word with
    | .separator => do return (← l.readOperands rest r, none)
    | .plain text =>
      match l.operand with
      | .command => .ok (r, some (text, rest))
      | .value add => do l.read rest (← r.accept (add text r.settings))
    | .letters cs => do l.read rest (← l.readLetters cs r)
    | .long name value =>
      match l.options.find? (·.name == name), value with
      | some ⟨_, _, .help⟩, none => .error (.help l.help)
      | some ⟨_, _, .switch set⟩, none => do
        l.read rest (← r.give name (some (set r.settings)))
      | some ⟨_, _, .setting _ set⟩, some v => do l.read rest (← r.give name (set v r.settings))
      | some ⟨_, _, .setting signed set⟩, none =>
        match rest with
        | [] => .error .misuse
        | v :: rest => do
          if isValue signed v then l.read rest (← r.give name (set v r.settings))
          else .error .misuse
      | _, _ => .error .misuse
  termination_by words.length

end Level

end TagSync.CommandLine
