import Mathlib.Data.List.TakeWhile
import Mathlib.Tactic.Common
import TagSync.Json.Printer
import TagSync.Json.Reader

/-!
JSON texts read back.

The compact text of a value, read again, gives the value, and the reader stops where the text
ends. So no two values have one text. Doubles are left out: those that are no numbers have the
text of `null`.
-/

namespace TagSync.Json

/-! ### Strings -/

lemma ofNat_toNat_eq {c : Char} {n : Nat} (h : c.toNat = n) : c = Char.ofNat n := by
  rw [← h, Char.ofNat_toNat]

/-- A control character is read from its number. -/
lemma unicode?_control {c : Char} (h : c.toNat < 32) (rest : List Char) :
    unicode? ('0' :: '0' :: hexDigit (c.toNat / 16) :: hexDigit (c.toNat % 16) :: rest) =
      some (c, rest) := by
  have hnumber : ∀ n < 32,
      Text.hexNumber? ['0', '0', hexDigit (n / 16), hexDigit (n % 16)] = some n := by decide
  have hlow : ¬ (0xD800 ≤ c.toNat ∧ c.toNat < 0xDC00) := by omega
  have hhigh : ¬ (0xDC00 ≤ c.toNat ∧ c.toNat < 0xE000) := by omega
  simp [unicode?, hex4?, hnumber _ h, hlow, hhigh]

/-- The reader takes the text of a character for the character. -/
lemma stringTail?_escape (fuel : Nat) (done : List Char) (c : Char) (rest : List Char) :
    stringTail? (fuel + 1) done (escape c ++ rest) = stringTail? fuel (c :: done) rest := by
  by_cases hquote : c = '"'
  · subst hquote
    simp [escape, stringTail?, simpleEscape?]
  by_cases hslash : c = '\\'
  · subst hslash
    simp [escape, stringTail?, simpleEscape?]
  by_cases hline : c = '\n'
  · subst hline
    simp [escape, stringTail?, simpleEscape?]
  by_cases hreturn : c = '\r'
  · subst hreturn
    simp [escape, stringTail?, simpleEscape?]
  by_cases htab : c = '\t'
  · subst htab
    simp [escape, stringTail?, simpleEscape?]
  have hescape : escape c =
      if c.toNat = 8 then ['\\', 'b']
      else if c.toNat = 12 then ['\\', 'f']
      else if c.toNat < 32 then
        ['\\', 'u', '0', '0', hexDigit (c.toNat / 16), hexDigit (c.toNat % 16)]
      else [c] := by
    simp [escape]
  rw [hescape]
  split
  · rename_i h
    rw [ofNat_toNat_eq h]
    simp [stringTail?, simpleEscape?]
  · split
    · rename_i h
      rw [ofNat_toNat_eq h]
      simp [stringTail?, simpleEscape?]
    · split
      · rename_i h
        simp [stringTail?, unicode?_control h]
      · rename_i h
        simp [stringTail?, hslash, h]

lemma stringTail?_quote (s done rest : List Char) (fuel : Nat) (h : s.length < fuel) :
    stringTail? fuel done (s.flatMap escape ++ '"' :: rest) =
      some (String.ofList (done.reverse ++ s), rest) := by
  induction s generalizing done fuel with
  | nil =>
    obtain ⟨fuel, rfl⟩ := Nat.exists_eq_add_one_of_ne_zero (Nat.ne_of_gt h)
    simp [stringTail?]
  | cons c s ih =>
    obtain ⟨fuel, rfl⟩ := Nat.exists_eq_add_one_of_ne_zero (Nat.ne_of_gt (Nat.zero_lt_of_lt h))
    rw [List.flatMap_cons, List.append_assoc, stringTail?_escape,
      ih (c :: done) fuel (Nat.lt_of_succ_lt_succ h)]
    simp

/-- Every character has some text. -/
lemma length_le_flatMap_escape (s : List Char) : s.length ≤ (s.flatMap escape).length := by
  have hone : ∀ c, 1 ≤ (escape c).length := fun c => by
    unfold escape
    split <;> try decide
    split_ifs <;> simp
  induction s with
  | nil => exact Nat.le_refl _
  | cons c s ih =>
    rw [List.flatMap_cons, List.length_append, List.length_cons]
    have := hone c
    omega

/-! ### Integers -/

lemma ofDigits_toDigits (n : Nat) : Decimal.ofDigits (Nat.toDigits 10 n) = n :=
  Nat.ofDigitChars_toDigits (by decide) (by decide)

lemma all_isDigit_toDigits (n : Nat) : ∀ c ∈ Nat.toDigits 10 n, c.isDigit = true := fun _ hc =>
  Nat.isDigit_of_mem_toDigits (by decide) (by decide) hc

/-- Only zero begins with the digit zero. -/
lemma head?_toDigits {n : Nat} (h : (Nat.toDigits 10 n).head? = some '0') : n = 0 := by
  induction n using Nat.strongRecOn with
  | ind n ih =>
    rcases Nat.lt_or_ge n 10 with hlt | hge
    · rw [Nat.toDigits_of_lt_base hlt, List.head?_cons, Option.some.injEq] at h
      have := Nat.toNat_digitChar_of_lt_ten hlt
      rw [h] at this
      exact (Nat.add_left_cancel (n := 48) this).symm
    · obtain ⟨c, cs, hcs⟩ := List.exists_cons_of_ne_nil (@Nat.toDigits_ne_nil (n / 10) 10)
      rw [Nat.toDigits_of_base_le (by decide) hge, hcs, List.cons_append, List.head?_cons] at h
      have := ih (n / 10) (by omega) (by rw [hcs, List.head?_cons, h])
      omega

/-- Digits are read with a sign or without one. -/
lemma number?_signed (negative : Bool) {digits : List Char} (h : digits.head? ≠ some '-')
    (hall : digits.takeWhile Char.isDigit = digits) (hne : digits ≠ [])
    (hzeros : digits.head? = some '0' → digits = ['0'] ∧ negative = false) :
    number? (if negative then '-' :: digits else digits) =
      some (.int (if negative then -Decimal.ofDigits digits else Decimal.ofDigits digits)) := by
  have hsplit : number? (if negative then '-' :: digits else digits) =
      let whole := digits.takeWhile Char.isDigit
      if whole.isEmpty || (whole.length > 1 && whole.head? == some '0') then none
      else if whole.length = digits.length && !(negative && whole == ['0']) then
        let n : Int := Decimal.ofDigits whole
        some (.int (if negative then -n else n))
      else (Decimal.unsigned? digits).map fun d =>
        .float (if negative then -d.toFloat else d.toFloat) := by
    rcases negative with _ | _
    · obtain ⟨c, cs, rfl⟩ := List.exists_cons_of_ne_nil hne
      have hminus : c ≠ '-' := fun hc => h (by rw [hc, List.head?_cons])
      unfold number?
      split
      · rename_i heq
        split at heq
        · rename_i hcons
          exact absurd (List.cons.inj hcons).1 hminus
        · cases heq
          rfl
    · rfl
  rw [hsplit]
  dsimp only
  rw [hall]
  by_cases hzero : digits.head? = some '0'
  · obtain ⟨rfl, rfl⟩ := hzeros hzero
    rfl
  · have hminusZero : (digits == ['0']) = false :=
      beq_eq_false_iff_ne.mpr fun hd => hzero (by rw [hd, List.head?_cons])
    simp [hne, hzero, hminusZero]

/-- The text of an integer: its digits, with a sign if it is negative. -/
lemma toList_toString (n : Int) :
    (toString n).toList =
      if n < 0 then '-' :: Nat.toDigits 10 n.natAbs else Nat.toDigits 10 n.natAbs := by
  cases n with
  | ofNat n =>
    have hpos : ¬ Int.ofNat n < 0 := Int.not_lt.mpr (Int.natCast_nonneg n)
    rw [if_neg hpos]
    simp [Int.toString_eq_repr, Int.repr]
  | negSucc n =>
    rw [if_pos (Int.negSucc_lt_zero n)]
    simp [Int.toString_eq_repr, Int.repr]

lemma number?_toString (n : Int) : number? (toString n).toList = some (.int n) := by
  have hdigits := all_isDigit_toDigits n.natAbs
  have hsigned := number?_signed (decide (n < 0)) ?minus
    (List.takeWhile_eq_self_iff.mpr hdigits) Nat.toDigits_ne_nil ?zeros
  case minus =>
    intro h
    cases hdigits '-' (List.mem_of_mem_head? h)
  case zeros =>
    intro h
    have hzero := head?_toDigits h
    rw [hzero, Nat.toDigits_zero, Int.natAbs_eq_zero.mp hzero]
    exact ⟨rfl, rfl⟩
  simp only [decide_eq_true_eq, ofDigits_toDigits] at hsigned
  rw [toList_toString, hsigned]
  congr 2
  split <;> omega

lemma all_isNumberPart_toString (n : Int) : ∀ c ∈ (toString n).toList, isNumberPart c = true := by
  intro c hc
  have hdigit : ∀ c ∈ Nat.toDigits 10 n.natAbs, isNumberPart c = true := fun c hc => by
    simp [isNumberPart, all_isDigit_toDigits _ c hc]
  rw [toList_toString] at hc
  split at hc
  · rcases List.mem_cons.mp hc with rfl | hc
    · rfl
    · exact hdigit c hc
  · exact hdigit c hc

/-! ### Values -/

mutual

/-- There is no double in a value. -/
def exact : Json → Bool
  | .float _ => false
  | .array elements => exactElements elements
  | .object fields => exactFields fields
  | _ => true

def exactElements : List Json → Bool
  | [] => true
  | j :: rest => exact j && exactElements rest

def exactFields : List (String × Json) → Bool
  | [] => true
  | (_, j) :: rest => exact j && exactFields rest

end

lemma exactElements_iff {l : List Json} : exactElements l = true ↔ ∀ j ∈ l, exact j = true := by
  induction l with
  | nil => simp [exactElements]
  | cons j rest ih => simp [exactElements, ih]

lemma exactFields_iff {l : List (String × Json)} :
    exactFields l = true ↔ ∀ p ∈ l, exact p.2 = true := by
  induction l with
  | nil => simp [exactFields]
  | cons p rest ih => simp [exactFields, ih]

lemma exact_ofOptionString (o : Option String) : exact (ofOptionString o) = true := by
  cases o <;> rfl

/-- What follows a value does not carry a number on. -/
def Ends (rest : List Char) : Prop := ∀ c ∈ rest.head?, isNumberPart c = false

lemma Ends.cons {c : Char} (h : isNumberPart c = false) (rest : List Char) : Ends (c :: rest) := by
  rintro _ ⟨⟩
  exact h

lemma skipSpace_cons {c : Char} (h : isSpace c = false) (rest : List Char) :
    skipSpace (c :: rest) = c :: rest := by
  rw [skipSpace, List.dropWhile_cons_of_neg (by simpa using h)]

/-- The text of a value does not begin with white space, nor like the end of a list. -/
lemma exists_cons_compact {j : Json} (h : exact j = true) :
    ∃ c cs, compact j = c :: cs ∧ isSpace c = false ∧ c ≠ ']' := by
  cases j with
  | null => exact ⟨_, _, rfl, rfl, by decide⟩
  | bool b => cases b <;> exact ⟨_, _, rfl, rfl, by decide⟩
  | int n =>
    have hne : (toString n).toList ≠ [] := by
      rw [toList_toString]
      split
      · exact List.cons_ne_nil _ _
      · exact Nat.toDigits_ne_nil
    obtain ⟨c, cs, hcs⟩ := List.exists_cons_of_ne_nil hne
    have hpart := all_isNumberPart_toString n c (by rw [hcs]; exact .head _)
    refine ⟨c, cs, hcs, ?_, ?_⟩
    · by_contra hspace
      simp only [isSpace, Bool.not_eq_false, Bool.or_eq_true, decide_eq_true_eq] at hspace
      rcases hspace with ((rfl | rfl) | rfl) | rfl <;> cases hpart
    · rintro rfl
      cases hpart
  | float x => cases h
  | string s => exact ⟨_, _, rfl, rfl, by decide⟩
  | array elements => cases elements <;> exact ⟨_, _, rfl, rfl, by decide⟩
  | object fields => cases fields <;> exact ⟨_, _, rfl, rfl, by decide⟩

lemma value?_int (n : Int) (fuel : Nat) {rest : List Char} (hrest : Ends rest) :
    value? (fuel + 1) ((toString n).toList ++ rest) = some (.int n, rest) := by
  have hall := all_isNumberPart_toString n
  have hnone : rest.takeWhile isNumberPart = [] ∧ rest.dropWhile isNumberPart = rest := by
    rcases rest with _ | ⟨c, rest⟩
    · exact ⟨rfl, rfl⟩
    · have hc : isNumberPart c = false := hrest c rfl
      simp [hc]
  have htake : ((toString n).toList ++ rest).takeWhile isNumberPart = (toString n).toList := by
    rw [List.takeWhile_append_of_pos hall, hnone.1, List.append_nil]
  have hdrop : ((toString n).toList ++ rest).dropWhile isNumberPart = rest := by
    rw [List.dropWhile_append_of_pos hall, hnone.2]
  obtain ⟨c, cs, hcs, hspace, -⟩ := exists_cons_compact (j := .int n) rfl
  have hskip : skipSpace ((toString n).toList ++ rest) = (toString n).toList ++ rest := by
    rw [show (toString n).toList = c :: cs from hcs]
    exact skipSpace_cons hspace _
  have hfirst : ∀ d ds, (toString n).toList ++ rest = d :: ds → isNumberPart d = true := by
    intro d ds h
    rw [show (toString n).toList = c :: cs from hcs] at h hall
    rw [← (List.cons.inj h).1]
    exact hall c (.head _)
  rw [value?, hskip]
  split
  case h_7 => rw [htake, hdrop, number?_toString, Option.map_some]
  -- all other kinds of values begin with a character that no number has
  all_goals
    rename_i heq
    exact absurd (hfirst _ _ heq) (by decide)

lemma value?_string (s : String) (fuel : Nat) (rest : List Char) :
    value? (fuel + 1) (quote s ++ rest) = some (.string s, rest) := by
  have hlength := length_le_flatMap_escape s.toList
  have htail := stringTail?_quote s.toList [] rest
    ((s.toList.flatMap escape ++ '"' :: rest).length + 1) (by
      rw [List.length_append]
      omega)
  rw [quote, List.cons_append, List.append_assoc, List.cons_append, List.nil_append, value?,
    skipSpace_cons rfl]
  simp only [htail, Option.map_some, List.reverse_nil, List.nil_append, String.ofList_toList]

lemma exists_succ_of_lt {m fuel : Nat} (h : m < fuel) : ∃ k, fuel = k + 1 :=
  Nat.exists_eq_add_one_of_ne_zero (Nat.ne_of_gt (Nat.zero_lt_of_lt h))

lemma length_compact_pos {j : Json} (h : exact j = true) : 0 < (compact j).length := by
  obtain ⟨c, cs, hcs, -⟩ := exists_cons_compact h
  rw [hcs]
  exact Nat.succ_pos _

/-- A value is read from its text, whatever comes after it. No step of the reader is without a
character, so the length of the text is fuel enough. -/
def Reads (j : Json) : Prop :=
  ∀ {fuel : Nat} {rest : List Char}, (compact j).length ≤ fuel → Ends rest →
    value? fuel (compact j ++ rest) = some (j, rest)

lemma reads_of_succ {j : Json} (hexact : exact j = true)
    (hsucc : ∀ {fuel : Nat} {rest : List Char}, (compact j).length ≤ fuel + 1 → Ends rest →
      value? (fuel + 1) (compact j ++ rest) = some (j, rest)) : Reads j := fun hfuel hrest => by
  obtain ⟨fuel, rfl⟩ := exists_succ_of_lt (Nat.lt_of_lt_of_le (length_compact_pos hexact) hfuel)
  exact hsucc hfuel hrest

/-- The elements of an array are read up to its end. -/
lemma elements?_compact {j : Json} {l : List Json} (hexact : exactElements (j :: l) = true)
    (hreads : ∀ x ∈ j :: l, Reads x) {fuel : Nat} (rest : List Char)
    (hfuel : (compact j ++ compactMore l).length < fuel) :
    elements? fuel (compact j ++ compactMore l ++ ']' :: rest) = some (j :: l, rest) := by
  induction l generalizing j fuel with
  | nil =>
    obtain ⟨fuel, rfl⟩ := exists_succ_of_lt hfuel
    rw [compactMore, List.append_nil] at hfuel ⊢
    rw [elements?, hreads j (.head _) (Nat.le_of_lt_succ hfuel) (.cons rfl _)]
    simp [skipSpace_cons (c := ']') rfl]
  | cons j' l ih =>
    obtain ⟨hj, hl⟩ := Bool.and_eq_true_iff.mp hexact
    obtain ⟨fuel, rfl⟩ := exists_succ_of_lt hfuel
    have hpos := length_compact_pos hj
    simp only [compactMore, List.length_cons, List.length_append] at hfuel
    have hlength : (compact j' ++ compactMore l).length < fuel := by
      rw [List.length_append]
      omega
    have hread := ih hl (fun x hx => hreads x (.tail _ hx)) hlength
    have htext : compact j ++ compactMore (j' :: l) ++ ']' :: rest =
        compact j ++ ',' :: (compact j' ++ compactMore l ++ ']' :: rest) := by simp [compactMore]
    rw [htext, elements?, hreads j (.head _) (by omega) (.cons rfl _)]
    simp only [Option.bind_eq_bind, Option.bind_some, skipSpace_cons (c := ',') rfl, hread,
      Option.map_some]

/-- The name of a field is read, and the colon after it. -/
lemma members?_quote (k : String) (fuel : Nat) (rest : List Char) :
    members? (fuel + 1) (quote k ++ ':' :: rest) = (do
      let (j, rest) ← value? fuel rest
      match skipSpace rest with
      | ',' :: rest => (members? fuel rest).map fun p => ((k, j) :: p.1, p.2)
      | '\x7d' :: rest => some ([(k, j)], rest)
      | _ => none) := by
  have hlength := length_le_flatMap_escape k.toList
  have htail := stringTail?_quote k.toList [] (':' :: rest)
    ((k.toList.flatMap escape ++ '"' :: ':' :: rest).length + 1) (by
      rw [List.length_append]
      omega)
  generalize hread : members? (fuel + 1) (quote k ++ ':' :: rest) = result
  rw [quote, List.cons_append, List.append_assoc, List.cons_append, List.nil_append, members?,
    skipSpace_cons rfl] at hread
  simp only [htail, List.reverse_nil, List.nil_append, String.ofList_toList, Option.bind_eq_bind,
    Option.bind_some, skipSpace_cons (c := ':') rfl] at hread
  exact hread.symm

/-- The fields of an object are read up to its end. -/
lemma members?_compact {k : String} {j : Json} {l : List (String × Json)}
    (hexact : exactFields ((k, j) :: l) = true) (hreads : ∀ p ∈ (k, j) :: l, Reads p.2) {fuel : Nat}
    (rest : List Char) (hfuel : (quote k ++ ':' :: (compact j ++ compactFields l)).length < fuel) :
    members? fuel (quote k ++ ':' :: (compact j ++ compactFields l ++ '\x7d' :: rest)) =
      some ((k, j) :: l, rest) := by
  induction l generalizing k j fuel with
  | nil =>
    obtain ⟨fuel, rfl⟩ := exists_succ_of_lt hfuel
    simp only [compactFields, List.append_nil, List.length_append, List.length_cons] at hfuel ⊢
    rw [members?_quote, hreads (k, j) (.head _) (by dsimp only; omega) (.cons rfl _)]
    simp [skipSpace_cons (c := '\x7d') rfl]
  | cons p l ih =>
    obtain ⟨k', j'⟩ := p
    obtain ⟨hj, hl⟩ := Bool.and_eq_true_iff.mp hexact
    obtain ⟨fuel, rfl⟩ := exists_succ_of_lt hfuel
    simp only [compactFields, List.length_cons, List.length_append] at hfuel
    have hlength : (quote k' ++ ':' :: (compact j' ++ compactFields l)).length < fuel := by
      simp only [List.length_cons, List.length_append]
      omega
    have hread := ih hl (fun x hx => hreads x (.tail _ hx)) hlength
    have htext : compact j ++ compactFields ((k', j') :: l) ++ '\x7d' :: rest =
        compact j ++ ',' ::
          (quote k' ++ ':' :: (compact j' ++ compactFields l ++ '\x7d' :: rest)) := by
      simp [compactFields]
    rw [htext, members?_quote, hreads (k, j) (.head _) (by dsimp only; omega) (.cons rfl _)]
    simp only [Option.bind_eq_bind, Option.bind_some, skipSpace_cons (c := ',') rfl, hread,
      Option.map_some]

lemma reads_array {l : List Json} (hexact : exact (.array l) = true)
    (hreads : ∀ j ∈ l, Reads j) : Reads (.array l) := by
  refine reads_of_succ hexact fun {fuel rest} hfuel _ => ?_
  rcases l with _ | ⟨j, l⟩
  · simp [compact, value?, skipSpace, isSpace]
  have htext : compact (.array (j :: l)) ++ rest =
      '[' :: (compact j ++ compactMore l ++ ']' :: rest) := by simp [compact]
  have hlength : (compact j ++ compactMore l).length < fuel := by
    simp only [compact, List.length_cons, List.length_append, List.length_nil] at hfuel ⊢
    omega
  have hread := elements?_compact hexact hreads rest hlength
  obtain ⟨c, cs, hcs, hspace, hend⟩ := exists_cons_compact (Bool.and_eq_true_iff.mp hexact).1
  have hskip : skipSpace (compact j ++ compactMore l ++ ']' :: rest) =
      compact j ++ compactMore l ++ ']' :: rest := by
    rw [hcs]
    exact skipSpace_cons hspace _
  rw [htext, value?, skipSpace_cons rfl]
  simp only [hskip]
  split
  · rename_i heq
    rw [hcs] at heq
    exact absurd (List.cons.inj heq).1 hend
  · rw [hread, Option.map_some]

lemma reads_object {l : List (String × Json)} (hexact : exact (.object l) = true)
    (hreads : ∀ p ∈ l, Reads p.2) : Reads (.object l) := by
  refine reads_of_succ hexact fun {fuel rest} hfuel _ => ?_
  rcases l with _ | ⟨⟨k, j⟩, l⟩
  · simp [compact, value?, skipSpace, isSpace]
  have htext : compact (.object ((k, j) :: l)) ++ rest =
      '\x7b' :: (quote k ++ ':' :: (compact j ++ compactFields l ++ '\x7d' :: rest)) := by
    simp [compact]
  have hlength : (quote k ++ ':' :: (compact j ++ compactFields l)).length < fuel := by
    simp only [compact, List.length_cons, List.length_append, List.length_nil] at hfuel ⊢
    omega
  have hread := members?_compact hexact hreads rest hlength
  have hskip : skipSpace (quote k ++ ':' :: (compact j ++ compactFields l ++ '\x7d' :: rest)) =
      quote k ++ ':' :: (compact j ++ compactFields l ++ '\x7d' :: rest) := skipSpace_cons rfl _
  rw [htext, value?, skipSpace_cons rfl]
  simp only [hskip]
  split
  · rename_i heq
    cases heq
  · rw [hread, Option.map_some]

/-- **Every value without doubles is read from its text.** -/
theorem reads_of_exact (j : Json) (h : exact j = true) : Reads j :=
  match j, h with
  | .null, h => reads_of_succ h fun _ _ => by
    simp [compact, scalar, value?, skipSpace, isSpace]
  | .bool b, h => reads_of_succ h fun _ _ => by
    cases b <;> simp [compact, scalar, value?, skipSpace, isSpace]
  | .int n, h => reads_of_succ h fun _ hrest => value?_int n _ hrest
  | .string s, h => reads_of_succ h fun _ _ => value?_string s _ _
  | .array l, h => reads_array h fun j hj => reads_of_exact j (exactElements_iff.mp h j hj)
  | .object l, h => reads_object h fun p hp => reads_of_exact p.2 (exactFields_iff.mp h p hp)
termination_by j
decreasing_by
  · have := List.sizeOf_lt_of_mem hj
    simp only [array.sizeOf_spec]
    omega
  · have := List.sizeOf_lt_of_mem hp
    obtain ⟨k, j⟩ := p
    simp only [object.sizeOf_spec, Prod.mk.sizeOf_spec] at this ⊢
    omega

/-- **JSON texts read back.** -/
theorem parse?_render {j : Json} (h : exact j = true) : parse? j.render = some j := by
  have hends : Ends [] := nofun
  have hread := reads_of_exact j h (Nat.le_succ _) hends
  rw [List.append_nil] at hread
  simp only [parse?, render, String.toList_ofList, hread]
  rfl

/-- **No two values have one text.** -/
theorem render_injective {j j' : Json} (h : exact j = true) (h' : exact j' = true)
    (heq : j.render = j'.render) : j = j' := by
  have hread := parse?_render h
  rw [heq, parse?_render h'] at hread
  exact (Option.some.inj hread).symm

end TagSync.Json
