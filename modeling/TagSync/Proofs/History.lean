import Mathlib.Tactic.Common
import TagSync.Hub.History

/-!
How writes change a history, seen through the rows of a kind.

A write that is about other records leaves the rows of a kind as they are (`rowsOf`). Of the
records that count now the first one of a kind is what a look-up takes (`current`).
-/

namespace TagSync

@[simp] lemma Versioned.isActive_none {α : Type} (r : Versioned α) :
    r.isActive none = r.revoked.isNone := rfl

namespace History

variable {α : Type}

/-- The rows whose records are of a kind, whether they count or not. -/
def rowsOf (h : History α) (q : α → Bool) : History α := h.filter fun r => q r.record

/-- The first record of a kind that counts now. -/
def current (h : History α) (q : α → Bool) : Option α := (h.active none).find? q

/-! ### Writes about other records -/

lemma rowsOf_add {h : History α} {event : EventId} {a : α} {q : α → Bool} (hq : q a = false) :
    (h.add event a).rowsOf q = h.rowsOf q := by
  simp [rowsOf, add, hq]

lemma record_revoke (event : EventId) (r : Versioned α) :
    (r.revoke event).record = r.record := by
  unfold Versioned.revoke
  split <;> rfl

lemma record_ite_revoke (event : EventId) (p : α → Bool) (r : Versioned α) :
    (if p r.record then r.revoke event else r).record = r.record := by
  split
  · exact record_revoke event r
  · rfl

lemma rowsOf_revoke {h : History α} {event : EventId} {p q : α → Bool}
    (hpq : ∀ a, q a → p a = false) : (h.revoke event p).rowsOf q = h.rowsOf q := by
  induction h with
  | nil => rfl
  | cons r rest ih =>
    simp only [rowsOf, revoke, List.map_cons, List.filter_cons, record_ite_revoke] at ih ⊢
    by_cases hq : q r.record = true
    · simp [hq, hpq _ hq, ih]
    · simp [hq, ih]

lemma rowsOf_replace {h : History α} {event : EventId} {p q : α → Bool} {a : α}
    (hpq : ∀ b, q b → p b = false) (hq : q a = false) :
    (h.replace event p a).rowsOf q = h.rowsOf q := by
  rw [replace, rowsOf_add hq, rowsOf_revoke hpq]

/-- The records of a kind that count at an event are those of its rows. -/
lemma filter_active (h : History α) (event : Option EventId) (q : α → Bool) :
    (h.active event).filter q = (h.rowsOf q).active event := by
  simp [active, rowsOf, List.filter_map, List.filter_filter, Function.comp_def, Bool.and_comm]

lemma current_eq_head? (h : History α) (q : α → Bool) :
    h.current q = ((h.rowsOf q).active none).head? := by
  rw [current, ← filter_active, List.head?_filter]

lemma current_congr {h h' : History α} {q : α → Bool} (e : h'.rowsOf q = h.rowsOf q) :
    h'.current q = h.current q := by
  rw [current_eq_head?, current_eq_head?, e]

/-! ### What counts after a write -/

lemma hasActive_eq (h : History α) (q : α → Bool) : h.hasActive q = (h.current q).isSome := by
  rw [Bool.eq_iff_iff]
  simp [hasActive, current]

lemma active_add (h : History α) (event : EventId) (a : α) :
    (h.add event a).active none = h.active none ++ [a] := by
  simp [active, add, List.filter_cons]

lemma active_revoke (h : History α) (event : EventId) (p : α → Bool) :
    (h.revoke event p).active none = (h.active none).filter fun a => !p a := by
  induction h with
  | nil => rfl
  | cons r rest ih =>
    obtain ⟨a, created, revoked⟩ := r
    simp only [active, revoke, List.map_cons, List.filter_cons] at ih ⊢
    rcases revoked with _ | x <;> by_cases hp : p a = true <;>
      simp [Versioned.revoke, hp, ← ih]

lemma active_replace (h : History α) (event : EventId) (p : α → Bool) (a : α) :
    (h.replace event p a).active none = (h.active none).filter (fun b => !p b) ++ [a] := by
  rw [replace, active_add, active_revoke]

lemma current_revoke_eq_none {h : History α} {event : EventId} {p q : α → Bool}
    (hpq : ∀ a, q a → p a) : (h.revoke event p).current q = none := by
  rw [current, active_revoke, List.find?_eq_none]
  intro a ha hq
  have := (List.mem_filter.mp ha).2
  simp [hpq a hq] at this

lemma current_replace_self {h : History α} {event : EventId} {p : α → Bool} {a : α}
    (ha : p a) : (h.replace event p a).current p = some a := by
  rw [current, active_replace, List.find?_append]
  have : ((h.active none).filter fun b => !p b).find? p = none := by
    rw [List.find?_eq_none]
    intro b hb hp
    have := (List.mem_filter.mp hb).2
    simp [hp] at this
  rw [this, Option.none_or, List.find?_cons_of_pos ha]

/-! ### Stamps -/

/-- All rows were made, and revoked if they were, at an event up to `n`. -/
def StampedTo (n : EventId) (h : History α) : Prop :=
  ∀ r ∈ h, r.created ≤ n ∧ ∀ x, r.revoked = some x → x ≤ n

namespace StampedTo

variable {n m : EventId} {h : History α}

lemma nil : StampedTo n ([] : History α) := fun _ hr => nomatch hr

lemma mono (hs : StampedTo n h) (hnm : n ≤ m) : StampedTo m h := fun r hr =>
  ⟨Int.le_trans (hs r hr).1 hnm, fun x hx => Int.le_trans ((hs r hr).2 x hx) hnm⟩

lemma add (hs : StampedTo n h) {event : EventId} (he : event ≤ n) (a : α) :
    StampedTo n (h.add event a) := by
  intro r hr
  rcases List.mem_append.mp hr with hr | hr
  · exact hs r hr
  · obtain rfl := List.mem_singleton.mp hr
    exact ⟨he, fun x hx => nomatch hx⟩

lemma revoke (hs : StampedTo n h) {event : EventId} (he : event ≤ n) (p : α → Bool) :
    StampedTo n (h.revoke event p) := by
  intro r hr
  obtain ⟨q, hq, rfl⟩ := List.mem_map.mp hr
  by_cases hp : p q.record = true
  · simp only [hp, if_true, Versioned.revoke]
    split
    · refine ⟨(hs q hq).1, fun x hx => ?_⟩
      cases hx
      exact he
    · exact hs q hq
  · simp only [hp]
    exact hs q hq

lemma replace (hs : StampedTo n h) {event : EventId} (he : event ≤ n) (p : α → Bool) (a : α) :
    StampedTo n (h.replace event p a) :=
  (hs.revoke he p).add he a

/-- From the last stamp on, what counts at an event is what counts now. -/
lemma active_eq (hs : StampedTo n h) (hnm : n ≤ m) : h.active (some m) = h.active none := by
  refine congrArg (List.map Versioned.record) (List.filter_congr fun r hr => ?_)
  obtain ⟨hc, hx⟩ := hs r hr
  have hcm : r.created ≤ m := Int.le_trans hc hnm
  rcases hrev : r.revoked with _ | x
  · simp [Versioned.isActive, hrev, hcm]
  · have : ¬ m < x := Int.not_lt.mpr (Int.le_trans (hx x hrev) hnm)
    simp [Versioned.isActive, hrev, this]

end StampedTo

end History

end TagSync
