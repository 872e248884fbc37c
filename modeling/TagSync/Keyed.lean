/-!
Finite maps from text keys, kept as lists in ascending key order.

The order is the order of code points, which is also the order of the UTF-8 bytes. Two maps
with the same keys and values are equal, since the order leaves one list for them.
-/

namespace TagSync

/-- A finite map from text keys, listed by ascending key. -/
structure Keyed (α : Type) where
  entries : List (String × α)
  ascending : entries.Pairwise fun a b => a.1 < b.1

namespace Keyed

variable {α β : Type}

theorem ext_entries {m n : Keyed α} (h : m.entries = n.entries) : m = n := by
  obtain ⟨_, _⟩ := m
  obtain ⟨_, _⟩ := n
  cases h
  rfl

instance [DecidableEq α] : DecidableEq (Keyed α) := fun m n =>
  if h : m.entries = n.entries then isTrue (ext_entries h)
  else isFalse fun e => h (congrArg entries e)

instance [Repr α] : Repr (Keyed α) := ⟨fun m k => reprPrec m.entries k⟩

def empty : Keyed α := ⟨[], .nil⟩

instance : Inhabited (Keyed α) := ⟨empty⟩

def keys (m : Keyed α) : List String := m.entries.map (·.1)

def values (m : Keyed α) : List α := m.entries.map (·.2)

def size (m : Keyed α) : Nat := m.entries.length

def find? (m : Keyed α) (key : String) : Option α :=
  (m.entries.find? (·.1 == key)).map (·.2)

def contains (m : Keyed α) (key : String) : Bool := m.entries.any (·.1 == key)

/-! ### Insertion -/

/-- Puts `value` at its place; `merge` decides what stays when the key is there already. -/
def place (merge : α → α → α) (key : String) (value : α) :
    List (String × α) → List (String × α)
  | [] => [(key, value)]
  | (k, v) :: rest =>
    if key < k then (key, value) :: (k, v) :: rest
    else if key = k then (k, merge v value) :: rest
    else (k, v) :: place merge key value rest

theorem key_of_mem_place {merge : α → α → α} {key : String} {value : α}
    {l : List (String × α)} {p : String × α} (h : p ∈ place merge key value l) :
    p.1 = key ∨ ∃ q ∈ l, q.1 = p.1 := by
  induction l with
  | nil => simp only [place, List.mem_singleton] at h; exact .inl (by rw [h])
  | cons q rest ih =>
    obtain ⟨k, v⟩ := q
    simp only [place] at h
    split at h
    · rcases List.mem_cons.mp h with rfl | h
      · exact .inl rfl
      · exact .inr ⟨p, h, rfl⟩
    · split at h
      · rcases List.mem_cons.mp h with rfl | h
        · exact .inr ⟨(k, v), .head _, rfl⟩
        · exact .inr ⟨p, .tail _ h, rfl⟩
      · rcases List.mem_cons.mp h with rfl | h
        · exact .inr ⟨(k, v), .head _, rfl⟩
        · rcases ih h with h | ⟨q, hq, e⟩
          · exact .inl h
          · exact .inr ⟨q, .tail _ hq, e⟩

theorem ascending_place (merge : α → α → α) (key : String) (value : α)
    {l : List (String × α)} (h : l.Pairwise fun a b => a.1 < b.1) :
    (place merge key value l).Pairwise fun a b => a.1 < b.1 := by
  induction l with
  | nil => simp [place]
  | cons q rest ih =>
    obtain ⟨k, v⟩ := q
    obtain ⟨hk, hrest⟩ := List.pairwise_cons.mp h
    simp only [place]
    split
    · rename_i hlt
      refine List.pairwise_cons.mpr ⟨fun p hp => ?_, h⟩
      rcases List.mem_cons.mp hp with rfl | hp
      · exact hlt
      · exact String.lt_trans hlt (hk p hp)
    · rename_i hlt
      split
      · exact List.pairwise_cons.mpr ⟨hk, hrest⟩
      · rename_i hne
        refine List.pairwise_cons.mpr ⟨fun p hp => ?_, ih hrest⟩
        rcases key_of_mem_place hp with e | ⟨q, hq, e⟩
        · rcases Std.lt_trichotomy key k with h' | h' | h'
          · exact absurd h' hlt
          · exact absurd h' hne
          · simpa [e] using h'
        · simpa [e] using hk q hq

/-- Adds an entry, or replaces the value of its key. -/
def insert (m : Keyed α) (key : String) (value : α) : Keyed α :=
  ⟨place (fun _ new => new) key value m.entries, ascending_place _ key value m.ascending⟩

/-- Adds an entry unless its key is there already. -/
def insertNew (m : Keyed α) (key : String) (value : α) : Keyed α :=
  ⟨place (fun old _ => old) key value m.entries, ascending_place _ key value m.ascending⟩

/-- The map of a list in which the first entry of a key counts. -/
def ofList (l : List (String × α)) : Keyed α :=
  l.foldl (fun m p => m.insertNew p.1 p.2) empty

/-! ### Change of the values -/

def map (f : α → β) (m : Keyed α) : Keyed β :=
  ⟨m.entries.map fun p => (p.1, f p.2), by
    rw [List.pairwise_map]
    exact m.ascending⟩

/-- Changes the value of one key, if the map has it. -/
def modify (m : Keyed α) (key : String) (f : α → α) : Keyed α :=
  ⟨m.entries.map fun p => (p.1, if p.1 = key then f p.2 else p.2), by
    rw [List.pairwise_map]
    exact m.ascending⟩

end Keyed

end TagSync
