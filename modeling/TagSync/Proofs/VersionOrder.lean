import Mathlib.Tactic.Common
import Mathlib.Tactic.Ring
import TagSync.Build
import TagSync.Version

/-!
The order of versions is the order of their tokens, and it is total and transitive.
-/

namespace TagSync.Version

open Std

/-! ### Bytes -/

lemma compareBytes_eq (s t : List UInt8) : compareBytes s t = Ord.compare s t := by
  induction s generalizing t with
  | nil => cases t <;> rfl
  | cons a s ih =>
    rcases t with _ | ⟨b, t⟩
    · rfl
    · rw [compareBytes, ih, List.compare_cons_cons]

/-! ### Numbers -/

/-- The value of one digit. -/
def digit (b : UInt8) : Nat := b.toNat - 48

lemma foldl_digit (s : List UInt8) (n : Nat) :
    s.foldl (fun n b => 10 * n + (b.toNat - 48)) n = n * 10 ^ s.length + numberOf s := by
  unfold numberOf
  induction s generalizing n with
  | nil => simp
  | cons b s ih =>
    rw [List.foldl_cons, ih, List.foldl_cons, ih (10 * 0 + _), List.length_cons, Nat.pow_succ']
    ring

lemma numberOf_cons (b : UInt8) (s : List UInt8) :
    numberOf (b :: s) = digit b * 10 ^ s.length + numberOf s := by
  rw [numberOf, List.foldl_cons, foldl_digit, digit, Nat.mul_zero, Nat.zero_add]

lemma isDigit_iff {b : UInt8} : isDigit b ↔ 48 ≤ b.toNat ∧ b.toNat ≤ 57 := by
  simp [isDigit, UInt8.le_iff_toNat_le]

lemma digit_lt {b : UInt8} (h : isDigit b) : digit b < 10 := by
  have := isDigit_iff.mp h
  unfold digit
  omega

lemma numberOf_lt {s : List UInt8} (h : ∀ b ∈ s, isDigit b) : numberOf s < 10 ^ s.length := by
  induction s with
  | nil => simp [numberOf]
  | cons b s ih =>
    have hb := digit_lt (h b (.head _))
    have hs := ih fun x hx => h x (.tail _ hx)
    rw [numberOf_cons, List.length_cons, Nat.pow_succ']
    calc digit b * 10 ^ s.length + numberOf s
        < digit b * 10 ^ s.length + 10 ^ s.length := by omega
      _ = (digit b + 1) * 10 ^ s.length := by ring
      _ ≤ 10 * 10 ^ s.length := Nat.mul_le_mul_right _ hb

lemma numberOf_significant (s : List UInt8) : numberOf (significant s) = numberOf s := by
  induction s with
  | nil => rfl
  | cons b s ih =>
    unfold significant at ih ⊢
    rw [List.dropWhile_cons]
    split
    · rename_i hb
      have hb : b = 48 := by simpa using hb
      rw [ih, numberOf_cons, hb]
      simp [digit]
    · rfl

/-- The first digit decides between numbers of equally many digits. -/
lemma numberOf_lt_of_digit_lt {a b : UInt8} {m k : Nat} (h : digit a < digit b) (hm : m < k)
    (n : Nat) : digit a * k + m < digit b * k + n :=
  calc digit a * k + m
      < digit a * k + k := Nat.add_lt_add_left hm _
    _ = (digit a + 1) * k := by ring
    _ ≤ digit b * k := Nat.mul_le_mul_right _ h
    _ ≤ _ := Nat.le_add_right ..

lemma lt_of_digit_lt {a b : UInt8} (h : digit a < digit b) : a < b := by
  rw [UInt8.lt_iff_toNat_lt]
  unfold digit at h
  omega

lemma eq_of_digit_eq {a b : UInt8} (ha : isDigit a) (hb : isDigit b) (h : digit a = digit b) :
    a = b := by
  have := isDigit_iff.mp ha
  have := isDigit_iff.mp hb
  unfold digit at h
  exact UInt8.toNat_inj.mp (by omega)

lemma pow_le_numberOf {b : UInt8} {s : List UInt8} (hb : isDigit b) (h0 : b ≠ 48) :
    10 ^ s.length ≤ numberOf (b :: s) := by
  have hdigit : 1 ≤ digit b := by
    have := isDigit_iff.mp hb
    have : b.toNat ≠ 48 := fun e => h0 (UInt8.toNat_inj.mp e)
    unfold digit
    omega
  rw [numberOf_cons]
  calc 10 ^ s.length = 1 * 10 ^ s.length := (Nat.one_mul _).symm
    _ ≤ digit b * 10 ^ s.length := Nat.mul_le_mul_right _ hdigit
    _ ≤ _ := Nat.le_add_right ..

/-- Without zeros in front, the number with more digits is larger. -/
lemma numberOf_significant_lt {s t : List UInt8} (hs : ∀ b ∈ significant s, isDigit b)
    (ht : ∀ b ∈ significant t, isDigit b) (h : (significant s).length < (significant t).length) :
    numberOf (significant s) < numberOf (significant t) := by
  rcases ht' : significant t with _ | ⟨b, rest⟩
  · rw [ht'] at h
    cases h
  · rw [ht'] at h ht
    have hb : b ≠ 48 := by
      have := List.head?_dropWhile_not (· == 48) t
      rw [show t.dropWhile (· == 48) = b :: rest from ht'] at this
      simpa using this
    calc numberOf (significant s)
        < 10 ^ (significant s).length := numberOf_lt hs
      _ ≤ 10 ^ rest.length := Nat.pow_le_pow_right (by decide) (Nat.le_of_lt_succ h)
      _ ≤ numberOf (b :: rest) := pow_le_numberOf (ht b (.head _)) hb

/-- Numbers of equally many digits stand in the order of their digits. -/
lemma compare_numberOf_of_length_eq {s t : List UInt8} (hs : ∀ b ∈ s, isDigit b)
    (ht : ∀ b ∈ t, isDigit b) (h : s.length = t.length) :
    Ord.compare (numberOf s) (numberOf t) = Ord.compare s t := by
  induction s generalizing t with
  | nil =>
    obtain rfl := List.length_eq_zero_iff.mp h.symm
    rfl
  | cons a s ih =>
    rcases t with _ | ⟨b, t⟩
    · cases h
    have hlen : s.length = t.length := Nat.succ.inj h
    have hls := numberOf_lt fun x hx => hs x (.tail _ hx)
    have hlt := numberOf_lt fun x hx => ht x (.tail _ hx)
    rw [List.compare_cons_cons, numberOf_cons, numberOf_cons, hlen]
    rw [hlen] at hls
    rcases Nat.lt_trichotomy (digit a) (digit b) with hab | hab | hab
    · have hval := numberOf_lt_of_digit_lt hab hls (numberOf t)
      rw [Nat.compare_eq_lt.mpr hval, compare_eq_lt.mpr (lt_of_digit_lt hab)]
      rfl
    · have hbyte : a = b := eq_of_digit_eq (hs a (.head _)) (ht b (.head _)) hab
      rw [hbyte, ReflOrd.compare_self, Ordering.eq_then,
        ← ih (fun x hx => hs x (.tail _ hx)) (fun x hx => ht x (.tail _ hx)) hlen]
      simp only [Nat.compare_eq_ite_lt, Nat.add_lt_add_iff_left]
    · have hval := numberOf_lt_of_digit_lt hab hlt (numberOf s)
      rw [Nat.compare_eq_gt.mpr hval, compare_eq_gt.mpr (lt_of_digit_lt hab)]
      rfl

/-- Runs of digits compare by their values. -/
lemma compareNumbers_eq {s t : List UInt8} (hs : ∀ b ∈ s, isDigit b) (ht : ∀ b ∈ t, isDigit b) :
    compareNumbers s t = Ord.compare (numberOf s) (numberOf t) := by
  have hs' : ∀ b ∈ significant s, isDigit b := fun b hb =>
    hs b ((List.dropWhile_sublist _).subset hb)
  have ht' : ∀ b ∈ significant t, isDigit b := fun b hb =>
    ht b ((List.dropWhile_sublist _).subset hb)
  rw [compareNumbers, compareBytes_eq, ← numberOf_significant s, ← numberOf_significant t]
  rcases Nat.lt_trichotomy (significant s).length (significant t).length with h | h | h
  · rw [Nat.compare_eq_lt.mpr h, Nat.compare_eq_lt.mpr (numberOf_significant_lt hs' ht' h)]
    rfl
  · rw [compare_numberOf_of_length_eq hs' ht' h, Nat.compare_eq_eq.mpr h, Ordering.eq_then]
  · rw [Nat.compare_eq_gt.mpr h, Nat.compare_eq_gt.mpr (numberOf_significant_lt ht' hs' h)]
    rfl

/-! ### Tokens -/

lemma not_isDigit_of_isLetter {c : UInt8} (h : isLetter c) : ¬ isDigit c := by
  rw [isDigit_iff]
  simp only [isLetter, Bool.or_eq_true, Bool.and_eq_true, decide_eq_true_eq,
    UInt8.le_iff_toNat_le] at h
  rintro ⟨-, hc⟩
  rcases h with h | h
  · exact absurd (h.1.trans hc) (by decide)
  · exact absurd (h.1.trans hc) (by decide)

lemma forall_mem_cons_takeWhile {p : UInt8 → Bool} {c : UInt8} (h : p c) {cs : List UInt8} :
    ∀ b ∈ c :: cs.takeWhile p, p b := by
  intro b hb
  rcases List.mem_cons.mp hb with rfl | hb
  · exact h
  · exact List.all_eq_true.mp List.all_takeWhile b hb

@[simp] lemma tokens_nil : tokens [] = [] := by
  rw [tokens]

lemma tokens_tilde (cs : List UInt8) : tokens (tilde :: cs) = .tilde :: tokens cs := by
  rw [tokens, if_pos rfl]

lemma tokens_digit {c : UInt8} (h : isDigit c) (cs : List UInt8) :
    tokens (c :: cs) =
      .number (numberOf (c :: cs.takeWhile isDigit)) :: tokens (cs.dropWhile isDigit) := by
  have hne : c ≠ tilde := by rintro rfl; exact absurd h (by decide)
  rw [tokens, if_neg hne, if_pos h]

lemma tokens_letter {c : UInt8} (h : isLetter c) (cs : List UInt8) :
    tokens (c :: cs) =
      .word (c :: cs.takeWhile isLetter) :: tokens (cs.dropWhile isLetter) := by
  have hne : c ≠ tilde := by rintro rfl; exact absurd h (by decide)
  rw [tokens, if_neg hne, if_neg (not_isDigit_of_isLetter h), if_pos h]

/-- Bytes that only separate are in no token. -/
lemma tokens_dropWhile (s : List UInt8) : tokens (s.dropWhile isSeparator) = tokens s := by
  induction s with
  | nil => rfl
  | cons c cs ih =>
    rw [List.dropWhile_cons]
    split
    · rename_i h
      simp only [isSeparator, Bool.and_eq_true, Bool.not_eq_true', bne_iff_ne, ne_eq] at h
      rw [ih, tokens, if_neg h.2, if_neg (by simp [h.1.1]), if_neg (by simp [h.1.2])]
    · rfl

/-- What follows the separators starts a token. -/
lemma not_isSeparator_of_dropWhile {s cs : List UInt8} {c : UInt8}
    (h : s.dropWhile isSeparator = c :: cs) : isSeparator c = false := by
  have := List.head?_dropWhile_not isSeparator s
  rw [h] at this
  simpa using this

lemma isLetter_of_not_isSeparator {c : UInt8} (h : isSeparator c = false) (hne : c ≠ tilde)
    (hdigit : ¬ isDigit c) : isLetter c := by
  simp only [isSeparator, Bool.and_eq_false_iff, Bool.not_eq_false', bne_eq_false_iff_eq] at h
  exact (h.resolve_right hne).resolve_left hdigit

lemma exists_tokens_cons {c : UInt8} {cs : List UInt8} (h : isSeparator c = false)
    (hne : c ≠ tilde) : ∃ a rest, tokens (c :: cs) = a :: rest ∧ a ≠ .tilde := by
  by_cases hdigit : isDigit c
  · exact ⟨_, _, tokens_digit hdigit cs, nofun⟩
  · exact ⟨_, _, tokens_letter (isLetter_of_not_isSeparator h hne hdigit) cs, nofun⟩

/-! ### Lists of tokens -/

lemma compareTokens_cons (a b : Token) (s t : List Token) :
    compareTokens (a :: s) (b :: t) = (a.compare b).then (compareTokens s t) := by
  cases a <;> cases b <;> rfl

lemma compareTokens_nil_of_ne {a : Token} (h : a ≠ .tilde) (s : List Token) :
    compareTokens [] (a :: s) = .lt := by
  cases a <;> first | exact absurd rfl h | rfl

lemma compareTokens_nil_right_of_ne {a : Token} (h : a ≠ .tilde) (s : List Token) :
    compareTokens (a :: s) [] = .gt := by
  cases a <;> first | exact absurd rfl h | rfl

lemma Token.tilde_compare_of_ne {a : Token} (h : a ≠ .tilde) : Token.tilde.compare a = .lt := by
  cases a <;> first | exact absurd rfl h | rfl

lemma Token.compare_tilde_of_ne {a : Token} (h : a ≠ .tilde) : a.compare .tilde = .gt := by
  cases a <;> first | exact absurd rfl h | rfl

/-- **A walk compares the tokens** of the two texts. -/
theorem walk_eq (s t : List UInt8) : walk s t = compareTokens (tokens s) (tokens t) := by
  rw [← tokens_dropWhile s, ← tokens_dropWhile t]
  fun_induction walk s t with
  | case1 s t hs ht => rw [hs, ht, tokens_nil]; rfl
  | case2 s t ds hs ht => rw [hs, ht, tokens_nil, tokens_tilde]; rfl
  | case3 s t d ds hs ht hd =>
    obtain ⟨a, rest, ha, hne⟩ := exists_tokens_cons (not_isSeparator_of_dropWhile ht) hd
    rw [hs, ht, tokens_nil, ha, compareTokens_nil_of_ne hne]
  | case4 s t cs ht hs => rw [hs, ht, tokens_nil, tokens_tilde]; rfl
  | case5 s t c cs hs ht hc =>
    obtain ⟨a, rest, ha, hne⟩ := exists_tokens_cons (not_isSeparator_of_dropWhile hs) hc
    rw [hs, ht, tokens_nil, ha, compareTokens_nil_right_of_ne hne]
  | case6 s t cs ds hs _ ht ih =>
    rw [hs, ht, tokens_tilde, tokens_tilde, compareTokens_cons, ih, tokens_dropWhile,
      tokens_dropWhile]
    rfl
  | case7 s t cs d ds ht hd hs =>
    obtain ⟨a, rest, ha, hne⟩ := exists_tokens_cons (not_isSeparator_of_dropWhile ht) hd
    rw [hs, ht, tokens_tilde, ha, compareTokens_cons, Token.tilde_compare_of_ne hne]
    rfl
  | case8 s t c cs ds hs _ hc ht =>
    obtain ⟨a, rest, ha, hne⟩ := exists_tokens_cons (not_isSeparator_of_dropWhile hs) hc
    rw [hs, ht, tokens_tilde, ha, compareTokens_cons, Token.compare_tilde_of_ne hne]
    rfl
  | case9 s t c cs d ds hs ht _ _ _ hc hd _ ih =>
    rw [hs, ht, tokens_digit hc, tokens_digit hd, compareTokens_cons, ih, tokens_dropWhile,
      tokens_dropWhile, compareNumbers_eq (forall_mem_cons_takeWhile hc)
        (forall_mem_cons_takeWhile hd)]
    rfl
  | case10 s t c cs d ds hs ht _ _ hd hc hdigit =>
    have hletter := isLetter_of_not_isSeparator (not_isSeparator_of_dropWhile ht) hd hdigit
    rw [hs, ht, tokens_digit hc, tokens_letter hletter]
    rfl
  | case11 s t c cs d ds hs ht _ hc hd hdigit hletter _ ih =>
    have hc := isLetter_of_not_isSeparator (not_isSeparator_of_dropWhile hs) hc hdigit
    rw [hs, ht, tokens_letter hc, tokens_letter hletter, compareTokens_cons, ih,
      tokens_dropWhile, tokens_dropWhile]
    rfl
  | case12 s t c cs d ds hs ht _ hc hd hdigit hletter =>
    have hc := isLetter_of_not_isSeparator (not_isSeparator_of_dropWhile hs) hc hdigit
    have hd : isDigit d := by
      by_contra h
      exact hletter (isLetter_of_not_isSeparator (not_isSeparator_of_dropWhile ht) hd h)
    rw [hs, ht, tokens_letter hc, tokens_digit hd]
    rfl

lemma compare_eq (a b : String) :
    compare a b = compareTokens (tokens a.toUTF8.toList) (tokens b.toUTF8.toList) :=
  walk_eq ..

/-! ### The order -/

/-- Where a token stands, or the end of a list: the kind, then the value. -/
def standing : Option Token → Nat × Nat × List UInt8
  | some .tilde => (0, 0, [])
  | none => (1, 0, [])
  | some (.word s) => (2, 0, s)
  | some (.number n) => (3, n, [])

/-- The order of tokens and the end of a list. -/
def compareStanding : Option Token → Option Token → Ordering :=
  compareLex (compareOn fun a => (standing a).1)
    (compareLex (compareOn fun a => (standing a).2.1) (compareOn fun a => (standing a).2.2))

instance : TransCmp compareStanding :=
  inferInstanceAs (TransCmp (compareLex _ (compareLex _ _)))

lemma compareStanding_some (a b : Token) : compareStanding (some a) (some b) = a.compare b := by
  cases a <;> cases b <;> try rfl
  · rename_i s t
    exact (compareBytes_eq s t).symm
  · exact Ordering.then_eq

/-- A list of tokens with its end. -/
def ended (s : List Token) : List (Option Token) := s.map some ++ [none]

/-- With the ends in them, lists of tokens compare entry by entry. -/
lemma compareTokens_eq (s t : List Token) :
    compareTokens s t = List.compareLex compareStanding (ended s) (ended t) := by
  induction s generalizing t with
  | nil =>
    rcases t with _ | ⟨b, t⟩
    · rfl
    · cases b <;> rfl
  | cons a s ih =>
    rcases t with _ | ⟨b, t⟩
    · cases a <;> rfl
    · rw [compareTokens_cons, ih, ← compareStanding_some]
      exact List.compareLex_cons_cons.symm

/-- An order of what is read off is an order. -/
lemma transCmp_on {α β : Type} {cmp : β → β → Ordering} [TransCmp cmp] (f : α → β) :
    TransCmp fun a b => cmp (f a) (f b) where
  eq_swap {a b} := (OrientedCmp.eq_swap : cmp (f a) (f b) = _)
  isLE_trans hab hbc := (TransCmp.isLE_trans hab hbc : (cmp _ _).isLE)

instance : TransCmp compareTokens := by
  rw [funext₂ compareTokens_eq]
  exact transCmp_on ended

/-- **Versions are ordered** totally and transitively. -/
instance : TransCmp compare := by
  rw [funext₂ compare_eq]
  exact transCmp_on fun a : String => tokens a.toUTF8.toList

end TagSync.Version

namespace TagSync.BuildEntry

open Std

/-! ### Builds -/

instance : TransCmp compare := by
  have : TransCmp fun a b : BuildEntry => Version.compare a.version b.version :=
    Version.transCmp_on BuildEntry.version
  have : TransCmp fun a b : BuildEntry => Version.compare a.release b.release :=
    Version.transCmp_on BuildEntry.release
  exact inferInstanceAs (TransCmp (compareLex _ _))

instance : TransCmp compareStrict :=
  inferInstanceAs (TransCmp (compareLex compare (compareOn BuildEntry.nvr)))

instance : TransCmp compareListed :=
  inferInstanceAs (TransCmp (compareLex (compareOn BuildEntry.packageName) compareStrict))

lemma nvr_eq_of_compareStrict {a b : BuildEntry} (h : compareStrict a b = .eq) :
    a.nvr = b.nvr :=
  LawfulEqOrd.eq_of_compare (Ordering.then_eq_eq.mp h).2

end TagSync.BuildEntry
