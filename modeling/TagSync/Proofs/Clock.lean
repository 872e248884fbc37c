import Mathlib.Tactic.Common
import TagSync.Hub.Tables

/-!
The order of times, and clocks on which events never run back.

Times are floating-point numbers: `≤` is transitive, and total on the numbers, which are the
values that it relates to themselves.
-/

namespace TagSync

namespace Time

open Float.Model

/-- The place of a number in the order: its class between the infinities, then exponent and
mantissa with the sign of the number. -/
def place : UnpackedFloat → Int × Int × Int
  | .infinity .negative => (-2, 0, 0)
  | .finite .negative m e _ => (-1, -e, -m)
  | .zero _ => (0, 0, 0)
  | .finite .positive m e _ => (1, e, m)
  | .infinity .positive => (2, 0, 0)
  | .notANumber => (0, 0, 0)

def isNumber : UnpackedFloat → Bool
  | .notANumber => false
  | _ => true

/-- The order of places, the first difference counts. -/
def Before (p q : Int × Int × Int) : Prop :=
  p.1 < q.1 ∨ p.1 = q.1 ∧ (p.2.1 < q.2.1 ∨ p.2.1 = q.2.1 ∧ p.2.2 ≤ q.2.2)

lemma isLE_then_compare (e e' : Int) (m m' : Nat) :
    ((compare e e').then (compare m m')).isLE = true ↔ e < e' ∨ e = e' ∧ m ≤ m' := by
  rcases Int.lt_trichotomy e e' with h | h | h
  · rw [Int.compare_eq_lt.mpr h]
    simp [h]
  · rw [Int.compare_eq_eq.mpr h, Ordering.then, Nat.isLE_compare]
    omega
  · rw [Int.compare_eq_gt.mpr h]
    simp only [Ordering.then, Ordering.isLE_gt, Bool.false_eq_true, false_iff]
    omega

lemma isLE_swap_then_compare (e e' : Int) (m m' : Nat) :
    ((compare e e').then (compare m m')).swap.isLE = true ↔ e' < e ∨ e' = e ∧ m' ≤ m := by
  rw [Ordering.swap_then, Int.compare_swap, Nat.compare_swap, isLE_then_compare]

lemma compare_sign (s s' : UnpackedFloat.Sign) :
    compare s s' =
      match s, s' with
      | .negative, .positive => .lt
      | .positive, .negative => .gt
      | _, _ => .eq := by
  cases s <;> cases s' <;> rfl

lemma unpacked_le_iff (a b : UnpackedFloat) :
    a.le b = true ↔ isNumber a ∧ isNumber b ∧ Before (place a) (place b) := by
  rcases a with (_ | _) | _ | _ | ⟨_ | _, m, e, hm⟩ <;>
    rcases b with (_ | _) | _ | _ | ⟨_ | _, m', e', hm'⟩ <;>
    dsimp only [UnpackedFloat.le, UnpackedFloat.compare, Option.any_some, Option.any_none, place,
      Before, isNumber] <;>
    simp only [isLE_then_compare, isLE_swap_then_compare, compare_sign] <;>
    simp
  all_goals omega

lemma le_iff (a b : Float) :
    a ≤ b ↔ isNumber a.toModel.unpack ∧ isNumber b.toModel.unpack ∧
      Before (place a.toModel.unpack) (place b.toModel.unpack) := by
  rw [← unpacked_le_iff]
  exact decide_eq_true_iff

theorem le_trans {a b c : Float} (hab : a ≤ b) (hbc : b ≤ c) : a ≤ c := by
  rw [le_iff] at hab hbc ⊢
  obtain ⟨ha, -, hab⟩ := hab
  obtain ⟨-, hc, hbc⟩ := hbc
  refine ⟨ha, hc, ?_⟩
  unfold Before at hab hbc ⊢
  omega

theorem le_total {a b : Float} (ha : a ≤ a) (hb : b ≤ b) : a ≤ b ∨ b ≤ a := by
  rw [le_iff] at ha hb ⊢
  rw [le_iff]
  obtain ⟨ha, -⟩ := ha
  obtain ⟨hb, -⟩ := hb
  simp only [ha, hb, true_and]
  unfold Before
  omega

end Time

/-! ### Clocks -/

/-- A clock that shows numbers, and whose later readings are passed over when they lie before
an earlier one. -/
structure Clock.Forward (c : Clock) : Prop where
  number : ∀ i, c.reading i ≤ c.reading i
  notBack : ∀ i j, i < j → c.horizon j ≤ c.reading i ∨ c.reading i ≤ c.reading j

/-- Whatever it shows, a clock on a wall is one of them. -/
lemma Clock.forward_wall {reading : EventId → Float} (h : ∀ i, reading i ≤ reading i) :
    (Clock.wall reading).Forward :=
  ⟨h, fun i j _ => (Time.le_total (h i) (h j)).symm⟩

namespace Tables

variable {t : Tables} {c : Clock}

lemma foldl_later (l : List EventInfo) (h : l.Pairwise fun a b => a.ts ≤ b.ts)
    (best : Option EventInfo) (hbest : ∀ b ∈ best, ∀ e ∈ l, b.ts ≤ e.ts) :
    l.foldl later best = l.getLast?.or best := by
  induction l generalizing best with
  | nil => simp
  | cons e rest ih =>
    obtain ⟨hfirst, hrest⟩ := List.pairwise_cons.mp h
    have hlater : later best e = some e := by
      rcases best with _ | b
      · rfl
      · simp [later, hbest b rfl e (.head _)]
    rw [List.foldl_cons, hlater, ih hrest (some e) fun b hb => by cases hb; exact hfirst]
    rw [List.getLast?_cons]
    rcases rest.getLast? with _ | x <;> simp

/-- The events bear times that the clock has shown, and the times never run back. -/
structure Timed (c : Clock) (t : Tables) : Prop where
  shown : ∀ e ∈ t.events, ∃ i ≤ (t.events.length : Int), e.ts = c.reading i
  ascending : t.events.Pairwise fun a b => a.ts ≤ b.ts

lemma Timed.congr {t' : Tables} (h : t'.events = t.events) (ht : t.Timed c) : t'.Timed c :=
  ⟨by rw [h]; exact ht.shown, by rw [h]; exact ht.ascending⟩

lemma timed_empty (c : Clock) : empty.Timed c := ⟨fun _ he => (nomatch he), .nil⟩

lemma nextTime_shown (hc : c.Forward) (ht : t.Timed c) (id : EventId)
    (hid : (t.events.length : Int) < id) :
    (∃ i ≤ id, t.nextTime c id = c.reading i) ∧ ∀ e ∈ t.events, e.ts ≤ t.nextTime c id := by
  rw [nextTime, foldl_later _ ht.ascending none fun _ hb => (nomatch hb), Option.or_none]
  rcases hlast : t.events.getLast? with _ | last
  · rw [List.getLast?_eq_none_iff] at hlast
    exact ⟨⟨id, Int.le_refl _, rfl⟩, fun e he => by simp [hlast] at he⟩
  · obtain ⟨before, hsplit⟩ := List.getLast?_eq_some_iff.mp hlast
    have hmem : last ∈ t.events := by simp [hsplit]
    obtain ⟨i, hi, hts⟩ := ht.shown last hmem
    have hlt : i < id := Int.lt_of_le_of_lt hi hid
    have hnumber : last.ts ≤ last.ts := by rw [hts]; exact hc.number i
    have hbelow : ∀ e ∈ t.events, e.ts ≤ last.ts := by
      intro e he
      have hasc := ht.ascending
      rw [hsplit] at he hasc
      rcases List.mem_append.mp he with he | he
      · exact (List.pairwise_append.mp hasc).2.2 e he last (.head _)
      · rw [List.mem_singleton.mp he]
        exact hnumber
    by_cases hahead : c.horizon id ≤ last.ts
    · simp only [hahead, if_true]
      exact ⟨⟨i, Int.le_of_lt hlt, hts⟩, hbelow⟩
    · simp only [hahead, if_false]
      have hle : last.ts ≤ c.reading id := by
        rw [hts] at hahead ⊢
        exact (hc.notBack i id hlt).resolve_left hahead
      exact ⟨⟨id, Int.le_refl _, rfl⟩, fun e he => Time.le_trans (hbelow e he) hle⟩

lemma timed_newEvent (hc : c.Forward) (ht : t.Timed c) : (t.newEvent c).1.Timed c := by
  obtain ⟨⟨i, hi, hts⟩, hbelow⟩ :=
    nextTime_shown hc ht (t.events.length + 1) (Int.lt_succ _)
  constructor
  · intro e he
    simp only [newEvent, List.length_append, List.length_singleton, Int.natCast_add,
      Int.natCast_one] at he ⊢
    rcases List.mem_append.mp he with he | he
    · obtain ⟨j, hj, hjs⟩ := ht.shown e he
      exact ⟨j, by omega, hjs⟩
    · rw [List.mem_singleton.mp he]
      exact ⟨i, hi, hts⟩
  · refine List.pairwise_append.mpr ⟨ht.ascending, List.pairwise_singleton _ _, ?_⟩
    intro a ha b hb
    rw [List.mem_singleton.mp hb]
    exact hbelow a ha

/-! ### The same point of history on a later day -/

/-- When only events were added, a point of history means the event it meant before, or a new
one; then it meant the last one before. -/
theorem resolveEvent_later {t' : Tables} {new : List EventInfo} {asOf : AsOf} {e : EventInfo}
    (ht : t'.Timed c) (hevents : t'.events = t.events ++ new) (hrepos : t'.repos = t.repos)
    (h : t.resolveEvent asOf = some e) :
    ∃ e', t'.resolveEvent asOf = some e' ∧
      (e' = e ∨ t.events.getLast? = some e ∧ e' ∈ new) := by
  have hfind : ∀ id x, t.event? id = some x → t'.event? id = some x := by
    intro id x hx
    simp only [event?] at hx
    rw [event?, hevents, List.find?_append, hx, Option.some_or]
  cases asOf with
  | event id => exact ⟨e, hfind id e h, .inl rfl⟩
  | repo id =>
    simp only [resolveEvent, hrepos] at h ⊢
    obtain ⟨r, hr, he⟩ := Option.bind_eq_some_iff.mp h
    exact ⟨e, by rw [hr]; exact hfind _ _ he, .inl rfl⟩
  | timestamp x =>
    have hasc := ht.ascending
    rw [hevents] at hasc
    obtain ⟨hold, hnew, hcross⟩ := List.pairwise_append.mp hasc
    simp only [resolveEvent] at h ⊢
    rw [foldl_later _ (hold.filter _) none fun _ hb => (nomatch hb), Option.or_none] at h
    rw [hevents, foldl_later _ (hasc.filter _) none fun _ hb => (nomatch hb), Option.or_none,
      List.filter_append, List.getLast?_append]
    rcases hlast : (new.filter fun e => decide (e.ts ≤ x)).getLast? with _ | e'
    · exact ⟨e, by rw [hlast, h, Option.none_or], .inl rfl⟩
    · -- a new event counts, so all events before it count, too
      have he' := List.mem_filter.mp (List.mem_of_getLast? hlast)
      have hall : t.events.filter (fun e => decide (e.ts ≤ x)) = t.events := by
        rw [List.filter_eq_self]
        intro a ha
        exact decide_eq_true (Time.le_trans (hcross a ha e' he'.1) (of_decide_eq_true he'.2))
      rw [hall] at h
      exact ⟨e', by rw [hlast, Option.some_or], .inr ⟨h, he'.1⟩⟩

end Tables

end TagSync
