import Mathlib.Tactic.Common

/-!
Computations with known faults.

A loop whose steps may fail is a loop that cannot fail, behind the first fault of its steps.
-/

namespace TagSync

/-- A value, unless there is a fault. -/
def barring {ε α : Type} : Option ε → α → Except ε α
  | some e, _ => .error e
  | none, a => .ok a

section

variable {ε α β : Type} {fault : Option ε} {a b : α}

@[simp] lemma barring_none (a : α) : barring (none : Option ε) a = .ok a := rfl

@[simp] lemma barring_eq_ok : barring fault a = .ok b ↔ fault = none ∧ a = b := by
  rcases fault with _ | e <;> simp [barring]

/-- A loop whose steps have known faults: the first fault counts. -/
lemma foldlM_eq_barring {I : List α → β → Prop} {fault : α → Option ε} {f : β → α → Except ε β}
    {g : β → α → β}
    (step : ∀ a rest b, I (a :: rest) b → f b a = barring (fault a) (g b a))
    (keeps : ∀ a rest b, I (a :: rest) b → fault a = none → I rest (g b a))
    {l : List α} {b : β} (hb : I l b) :
    l.foldlM f b = barring (l.findSome? fault) (l.foldl g b) := by
  induction l generalizing b with
  | nil => rfl
  | cons a rest ih =>
    rw [List.foldlM_cons, step a rest b hb, List.findSome?_cons, List.foldl_cons]
    rcases hfault : fault a with _ | e
    · exact ih (keeps a rest b hb hfault)
    · rfl

/-- A loop that adds what has a key of its own, and fails where the key is taken. -/
lemma foldlM_insertNew {κ : Type} {key : α → κ} (has : β → κ → Prop) [∀ b k, Decidable (has b k)]
    {taken : α → ε} {f : β → α → Except ε β} {g : β → α → β} {l : List α} {b : β}
    (step : ∀ a ∈ l, ∀ b, f b a = if has b (key a) then .error (taken a) else .ok (g b a))
    (grows : ∀ a b k, has (g b a) k ↔ has b k ∨ key a = k) (unique : (l.map key).Nodup) :
    l.foldlM f b =
      barring (l.findSome? fun a => if has b (key a) then some (taken a) else none)
        (l.foldl g b) := by
  refine foldlM_eq_barring (I := fun rest b' => (rest.map key).Nodup ∧ rest ⊆ l ∧
    ∀ a ∈ rest, has b' (key a) ↔ has b (key a)) (fun a rest b' hb' => ?_)
    (fun a rest b' hb' _ => ?_) ⟨unique, fun _ => id, fun _ _ => .rfl⟩
  · obtain ⟨-, hsub, hsame⟩ := hb'
    rw [step a (hsub (.head _)) b']
    by_cases htaken : has b (key a)
    · rw [if_pos htaken, if_pos ((hsame a (.head _)).mpr htaken)]
      rfl
    · rw [if_neg htaken, if_neg fun h => htaken ((hsame a (.head _)).mp h)]
      rfl
  · obtain ⟨hunique, hsub, hsame⟩ := hb'
    obtain ⟨hnew, hrest⟩ := List.nodup_cons.mp hunique
    refine ⟨hrest, fun x hx => hsub (.tail _ hx), fun x hx => ?_⟩
    have hother : key a ≠ key x := fun heq => hnew (heq ▸ List.mem_map_of_mem hx)
    rw [grows, hsame x (.tail _ hx), or_iff_left hother]

end

end TagSync
