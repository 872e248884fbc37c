import TagSync.Proofs.VersionOrder

/-!
The loop that compares two version texts, round by round.

A round skips separators and settles on one token of each text. It either tells the texts apart
or leaves what follows the two tokens to the next round. The loop ends on every two texts, with
the order of their tokens.
-/

namespace TagSync.Version

open Std

/-! ### One round -/

/-- What counts as the same run as a byte: digits for a digit, letters otherwise. -/
def sameRun (c : UInt8) : UInt8 → Bool := if isDigit c then isDigit else isLetter

/-- The order of two runs of the kind the first byte of the first one has. -/
def compareRuns (c : UInt8) (s t : List UInt8) : Ordering :=
  if isDigit c then compareNumbers s t else compareBytes s t

/-- An order that tells two texts apart ends the loop; otherwise what is left goes on. -/
def settle (o : Ordering) (rest : List UInt8 × List UInt8) :
    Ordering ⊕ List UInt8 × List UInt8 :=
  match o with
  | .eq => .inr rest
  | o => .inl o

/-- One round of the loop: the order it tells, or what is left of the two texts. -/
def round (s t : List UInt8) : Ordering ⊕ List UInt8 × List UInt8 :=
  match s.dropWhile isSeparator, t.dropWhile isSeparator with
  | [], [] => .inl .eq
  | [], d :: _ => .inl (if d = tilde then .gt else .lt)
  | c :: _, [] => .inl (if c = tilde then .lt else .gt)
  | c :: cs, d :: ds =>
    if c = tilde then
      if d = tilde then .inr (cs, ds) else .inl .lt
    else if d = tilde then .inl .gt
    else if sameRun c d then
      settle
        (compareRuns c ((c :: cs).takeWhile (sameRun c)) ((d :: ds).takeWhile (sameRun c)))
        ((c :: cs).dropWhile (sameRun c), (d :: ds).dropWhile (sameRun c))
    else .inl (if isDigit c then .gt else .lt)

lemma eq_of_settle {o : Ordering} {rest rest' : List UInt8 × List UInt8}
    (h : settle o rest = .inr rest') : rest = rest' := by
  cases o <;> cases h
  rfl

lemma length_lt_of_dropWhile {p : UInt8 → Bool} {s cs : List UInt8} {c : UInt8}
    (h : s.dropWhile p = c :: cs) : cs.length < s.length := by
  have := length_dropWhile_le p s
  rw [h, List.length_cons] at this
  omega

lemma sameRun_self {c : UInt8} (h : isSeparator c = false) (hne : c ≠ tilde) : sameRun c c := by
  by_cases hdigit : isDigit c
  · simp [sameRun, hdigit]
  · simp [sameRun, hdigit, isLetter_of_not_isSeparator h hne hdigit]

/-- **A round that goes on has used up** a byte of either text. -/
theorem length_lt_of_round {s t s' t' : List UInt8} (h : round s t = .inr (s', t')) :
    s'.length < s.length ∧ t'.length < t.length := by
  unfold round at h
  split at h
  case h_1 | h_2 | h_3 => cases h
  case h_4 c cs d ds hs ht =>
    have hcs := length_lt_of_dropWhile hs
    have hds := length_lt_of_dropWhile ht
    split at h
    · split at h
      · cases h
        exact ⟨hcs, hds⟩
      · cases h
    split at h
    · cases h
    rename_i hc _
    split at h
    · rename_i hrun
      have hself := sameRun_self (not_isSeparator_of_dropWhile hs) hc
      rw [List.dropWhile_cons_of_pos hself, List.dropWhile_cons_of_pos hrun] at h
      cases eq_of_settle h
      exact ⟨(length_dropWhile_le _ cs).trans_lt hcs, (length_dropWhile_le _ ds).trans_lt hds⟩
    · cases h

lemma settle_elim (o : Ordering) (rest : List UInt8 × List UInt8) :
    (settle o rest).elim id (fun rest => walk rest.1 rest.2) =
      o.then (walk rest.1 rest.2) := by
  cases o <;> rfl

/-- **The walk is its first round** and, if that leaves the order open, the walk over the rest. -/
theorem walk_eq_round (s t : List UInt8) :
    walk s t = (round s t).elim id fun rest => walk rest.1 rest.2 := by
  rw [walk, round]
  split
  case h_1 hs ht => rw [hs, ht]; rfl
  case h_2 hs ht => rw [hs, ht]; rfl
  case h_3 ht hs => rw [hs, ht]; rfl
  case h_4 c cs d ds hs ht =>
    simp only [hs, ht]
    split
    · split <;> rfl
    split
    · rfl
    rename_i hc hd
    have hself := sameRun_self (not_isSeparator_of_dropWhile hs) hc
    split
    · rename_i hdigit
      have hrun : sameRun c = isDigit := if_pos hdigit
      rw [hrun] at hself ⊢
      split
      · rename_i hdd
        rw [settle_elim, compareRuns, if_pos hdigit]
        simp [List.takeWhile_cons_of_pos, hself, hdd]
      · rfl
    · rename_i hdigit
      have hrun : sameRun c = isLetter := if_neg hdigit
      rw [hrun] at hself ⊢
      split
      · rename_i hdd
        rw [settle_elim, compareRuns, if_neg hdigit]
        simp [List.takeWhile_cons_of_pos, hself, hdd]
      · rfl

/-! ### The loop -/

/-- So many rounds of the loop, and the order if they settle it. -/
def rounds : Nat → List UInt8 → List UInt8 → Option Ordering
  | 0, _, _ => none
  | n + 1, s, t =>
    match round s t with
    | .inl o => some o
    | .inr rest => rounds n rest.1 rest.2

/-- **The loop ends**: more rounds than the shorter text has bytes always settle the order. -/
theorem rounds_eq {n : Nat} {s t : List UInt8} (h : min s.length t.length < n) :
    rounds n s t = some (walk s t) := by
  induction n generalizing s t with
  | zero => cases h
  | succ n ih =>
    rw [rounds, walk_eq_round]
    cases hround : round s t with
    | inl o => rfl
    | inr rest =>
      obtain ⟨hs, ht⟩ := length_lt_of_round hround
      exact ih (by omega)

/-! ### Ties -/

lemma Token.compare_eq_eq {a b : Token} : a.compare b = .eq ↔ a = b := by
  cases a <;> cases b <;> simp [Token.compare, compareBytes_eq]

/-- Only lists of the same tokens tie. -/
lemma compareTokens_eq_eq {s t : List Token} : compareTokens s t = .eq ↔ s = t := by
  induction s generalizing t with
  | nil =>
    rcases t with _ | ⟨b, t⟩
    · simp [compareTokens]
    · cases b <;> simp [compareTokens]
  | cons a s ih =>
    rcases t with _ | ⟨b, t⟩
    · cases a <;> simp [compareTokens]
    · rw [compareTokens_cons, Ordering.then_eq_eq, Token.compare_eq_eq, ih, List.cons.injEq]

/-- **The order of version texts.** It is the order of the two token lists, each text read on
its own. So it is reversed with its arguments, transitive, and a tie exactly between texts of
the same tokens; and its loop ends on every two texts. -/
theorem compare_tokenwise (a b c : String) :
    compare a b = compareTokens (tokens a.toUTF8.toList) (tokens b.toUTF8.toList) ∧
    compare b a = (compare a b).swap ∧
    ((compare a b).isLE → (compare b c).isLE → (compare a c).isLE) ∧
    (compare a b = .eq ↔ tokens a.toUTF8.toList = tokens b.toUTF8.toList) ∧
    ∀ n, min a.toUTF8.toList.length b.toUTF8.toList.length < n →
      rounds n a.toUTF8.toList b.toUTF8.toList = some (compare a b) := by
  refine ⟨compare_eq a b, OrientedCmp.eq_swap, TransCmp.isLE_trans, ?_, fun n hn => rounds_eq hn⟩
  rw [compare_eq, compareTokens_eq_eq]

/-- A candidate, the version it is for, and another spelling of that version. -/
theorem compare_tokenwise_candidate :
    (compare "1.0~rc1" "1.0").isLE ∧ (compare "1.0" "1.00").isLE ∧
      (compare "1.0~rc1" "1.00").isLE := by
  obtain ⟨-, -, htrans, -, hloop⟩ := compare_tokenwise "1.0~rc1" "1.0" "1.00"
  obtain ⟨-, -, -, -, hspelling⟩ := compare_tokenwise "1.0" "1.00" "1.0~rc1"
  have hrc : compare "1.0~rc1" "1.0" = .lt :=
    Option.some.inj ((hloop 4 (by decide +kernel)).symm.trans (by decide +kernel))
  have hsame : compare "1.0" "1.00" = .eq :=
    Option.some.inj ((hspelling 4 (by decide +kernel)).symm.trans (by decide +kernel))
  have hle : (compare "1.0~rc1" "1.0").isLE := by rw [hrc]; rfl
  have hle' : (compare "1.0" "1.00").isLE := by rw [hsame]; rfl
  exact ⟨hle, hle', htrans hle hle'⟩

end TagSync.Version
