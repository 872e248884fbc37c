/-!
The order of version texts.

Two texts are walked side by side, byte by byte. Runs of digits compare as numbers and runs of
letters as words; a number is above a word. `~` is below everything, the end of the text
included. Every other byte only separates.

The same order can be had from the two texts each read on its own, as a list of tokens.
-/

namespace TagSync.Version

def isDigit (b : UInt8) : Bool := 48 ≤ b && b ≤ 57

def isLetter (b : UInt8) : Bool := (65 ≤ b && b ≤ 90) || (97 ≤ b && b ≤ 122)

def tilde : UInt8 := 126

def isSeparator (b : UInt8) : Bool := !isDigit b && !isLetter b && b != tilde

/-- The order of two byte strings, the shorter of two with a common start first. -/
def compareBytes : List UInt8 → List UInt8 → Ordering
  | [], [] => .eq
  | [], _ :: _ => .lt
  | _ :: _, [] => .gt
  | a :: s, b :: t => (compare a b).then (compareBytes s t)

/-- The digits of a number without zeros in front. -/
def significant (s : List UInt8) : List UInt8 := s.dropWhile (· == 48)

/-- The order of two runs of digits by their values, at any length. -/
def compareNumbers (s t : List UInt8) : Ordering :=
  (compare (significant s).length (significant t).length).then
    (compareBytes (significant s) (significant t))

theorem length_dropWhile_le {α : Type} (p : α → Bool) (l : List α) :
    (l.dropWhile p).length ≤ l.length :=
  (List.dropWhile_sublist p).length_le

/-- The walk over what is left of two texts. -/
def walk (s t : List UInt8) : Ordering :=
  match hs : s.dropWhile isSeparator, t.dropWhile isSeparator with
  | [], [] => .eq
  | [], d :: _ => if d = tilde then .gt else .lt
  | c :: _, [] => if c = tilde then .lt else .gt
  | c :: cs, d :: ds =>
    have : cs.length < s.length := by
      have := length_dropWhile_le isSeparator s
      rw [hs] at this
      exact this
    if c = tilde then
      if d = tilde then walk cs ds else .lt
    else if d = tilde then .gt
    else if isDigit c then
      if isDigit d then
        have := length_dropWhile_le isDigit cs
        (compareNumbers (c :: cs.takeWhile isDigit) (d :: ds.takeWhile isDigit)).then
          (walk (cs.dropWhile isDigit) (ds.dropWhile isDigit))
      else .gt
    else if isLetter d then
      have := length_dropWhile_le isLetter cs
      (compareBytes (c :: cs.takeWhile isLetter) (d :: ds.takeWhile isLetter)).then
        (walk (cs.dropWhile isLetter) (ds.dropWhile isLetter))
    else .lt
termination_by s.length
decreasing_by all_goals omega

/-- The order of two version texts. -/
def compare (a b : String) : Ordering := walk a.toUTF8.toList b.toUTF8.toList

/-! ### Tokens -/

inductive Token where
  | tilde
  | word (letters : List UInt8)
  | number (value : Nat)
  deriving DecidableEq, Repr

/-- The value of a run of digits. -/
def numberOf (digits : List UInt8) : Nat :=
  digits.foldl (fun n b => 10 * n + (b.toNat - 48)) 0

/-- The tokens of a text: `~`, maximal runs of digits and of letters; other bytes separate. -/
def tokens : List UInt8 → List Token
  | [] => []
  | c :: cs =>
    if c = tilde then .tilde :: tokens cs
    else if isDigit c then
      have := length_dropWhile_le isDigit cs
      .number (numberOf (c :: cs.takeWhile isDigit)) :: tokens (cs.dropWhile isDigit)
    else if isLetter c then
      have := length_dropWhile_le isLetter cs
      .word (c :: cs.takeWhile isLetter) :: tokens (cs.dropWhile isLetter)
    else tokens cs
termination_by s => s.length
decreasing_by all_goals simp only [List.length_cons]; omega

/-- The order of two tokens: `~`, then words in byte order, then numbers by value. -/
def Token.compare : Token → Token → Ordering
  | .tilde, .tilde => .eq
  | .tilde, _ => .lt
  | .word _, .tilde => .gt
  | .word s, .word t => compareBytes s t
  | .word _, .number _ => .lt
  | .number _, .tilde => .gt
  | .number _, .word _ => .gt
  | .number m, .number n => Ord.compare m n

/-- The order of two token lists; the end of a list lies between `~` and the words. -/
def compareTokens : List Token → List Token → Ordering
  | [], [] => .eq
  | [], .tilde :: _ => .gt
  | [], _ :: _ => .lt
  | .tilde :: _, [] => .lt
  | _ :: _, [] => .gt
  | a :: s, b :: t => (a.compare b).then (compareTokens s t)

end TagSync.Version
