import Mathlib.Data.List.Sort
import TagSync.Keyed

/-!
Looking keys up in finite maps.

A map is known by what it finds under its keys: `find?` after an insertion, in the map of a
list, and after a change of the values.
-/

namespace TagSync.Keyed

variable {α β : Type}

lemma find?_eq_none_of_lt {l : List (String × α)} {key : String}
    (h : ∀ p ∈ l, key < p.1) : l.find? (·.1 == key) = none := by
  rw [List.find?_eq_none]
  intro p hp heq
  have hlt := h p hp
  rw [show p.1 = key by simpa using heq] at hlt
  exact String.lt_irrefl _ hlt

lemma find?_place (merge : α → α → α) (key k : String) (value : α) {l : List (String × α)}
    (h : l.Pairwise fun a b => a.1 < b.1) :
    (place merge key value l).find? (·.1 == k) =
      if key = k then
        some (key, ((l.find? (·.1 == key)).map fun p => merge p.2 value).getD value)
      else l.find? (·.1 == k) := by
  induction l with
  | nil => by_cases hk : key = k <;> simp [place, hk]
  | cons q rest ih =>
    obtain ⟨k', v⟩ := q
    obtain ⟨hfirst, hrest⟩ := List.pairwise_cons.mp h
    simp only [place]
    split
    · -- the key is below all others
      rename_i hlt
      have hnone : ((k', v) :: rest).find? (·.1 == key) = none :=
        find?_eq_none_of_lt fun p hp => by
          rcases List.mem_cons.mp hp with rfl | hp
          · exact hlt
          · exact String.lt_trans hlt (hfirst p hp)
      rw [hnone]
      by_cases hk : key = k <;> simp [hk]
    · split
      · rename_i heq
        subst heq
        by_cases hk : key = k <;> simp [hk]
      · rename_i hne
        rw [List.find?_cons]
        by_cases hk' : k' = k
        · have : key ≠ k := fun e => hne (e.trans hk'.symm)
          simp [hk', this]
        · have hne' : (k' == key) = false := by simpa using fun e => hne e.symm
          have hk'' : (k' == k) = false := by simpa using hk'
          simp only [hk'', ih hrest, List.find?_cons, hne']

/-! ### What a map finds -/

@[simp] lemma find?_empty (key : String) : (empty : Keyed α).find? key = none := rfl

@[simp] lemma find?_insert (m : Keyed α) (key k : String) (value : α) :
    (m.insert key value).find? k = if key = k then some value else m.find? k := by
  simp only [find?, insert, find?_place _ _ _ _ m.ascending]
  split
  · cases m.entries.find? fun p => p.1 == key <;> simp
  · rfl

@[simp] lemma find?_insertNew (m : Keyed α) (key k : String) (value : α) :
    (m.insertNew key value).find? k =
      if key = k then some ((m.find? key).getD value) else m.find? k := by
  simp only [find?, insertNew, find?_place _ _ _ _ m.ascending]
  split
  · cases m.entries.find? fun p => p.1 == key <;> simp
  · rfl

@[simp] lemma find?_map (f : α → β) (m : Keyed α) (key : String) :
    (m.map f).find? key = (m.find? key).map f := by
  simp [find?, map, List.find?_map, Function.comp_def]

/-- Taking in a list: what the map has counts first, then the first element of the name. -/
lemma find?_foldl_insertNew (name : β → String) (value : β → α) (l : List β) (m : Keyed α)
    (key : String) :
    (l.foldl (fun m b => m.insertNew (name b) (value b)) m).find? key =
      (m.find? key).or ((l.find? (name · == key)).map value) := by
  induction l generalizing m with
  | nil => simp
  | cons b rest ih =>
    rw [List.foldl_cons, ih, find?_insertNew, List.find?_cons]
    by_cases hk : name b = key
    · subst hk
      rcases m.find? (name b) with _ | a <;> simp
    · have : (name b == key) = false := by simpa using hk
      simp [hk, this]

lemma find?_ofList (l : List (String × α)) (key : String) :
    (ofList l).find? key = (l.find? (·.1 == key)).map (·.2) := by
  simp [ofList, find?_foldl_insertNew]

/-- Takes an entry away, if there is one. -/
def erase (m : Keyed α) (key : String) : Keyed α :=
  ⟨m.entries.filter fun p => p.1 != key, m.ascending.filter _⟩

@[simp] lemma find?_erase (m : Keyed α) (key k : String) :
    (m.erase key).find? k = if key = k then none else m.find? k := by
  rw [find?, erase, List.find?_filter]
  split
  · rename_i h
    subst h
    simp
  · rename_i h
    rw [find?]
    congr 2
    funext p
    by_cases hp : p.1 = k <;> simp [hp, Ne.symm h]

/-! ### Entries and values -/

lemma find?_eq_some_iff {m : Keyed α} {key : String} {a : α} :
    m.find? key = some a ↔ (key, a) ∈ m.entries := by
  obtain ⟨l, hl⟩ := m
  simp only [find?]
  constructor
  · intro h
    obtain ⟨p, hp, rfl⟩ := Option.map_eq_some_iff.mp h
    have hk : p.1 = key := by simpa using List.find?_some hp
    have := List.mem_of_find?_eq_some hp
    rwa [← hk]
  · intro h
    induction l with
    | nil => cases h
    | cons q rest ih =>
      obtain ⟨hfirst, hrest⟩ := List.pairwise_cons.mp hl
      rcases List.mem_cons.mp h with rfl | h
      · simp
      · have hne : (q.1 == key) = false := by
          have := hfirst _ h
          simp only [beq_eq_false_iff_ne]
          rintro rfl
          exact String.lt_irrefl _ this
        rw [List.find?_cons, hne]
        exact ih hrest h

lemma mem_values_iff {m : Keyed α} {a : α} : a ∈ m.values ↔ ∃ key, m.find? key = some a := by
  simp [values, find?_eq_some_iff]

lemma mem_map_filter_values_iff {m : Keyed α} {p : α → Bool} {f : α → β} {b : β} :
    b ∈ (m.values.filter p).map f ↔ ∃ key, ((m.find? key).filter p).map f = some b := by
  simp only [List.mem_map, List.mem_filter, mem_values_iff, Option.map_eq_some_iff,
    Option.filter_eq_some_iff]
  constructor
  · rintro ⟨a, ⟨⟨key, ha⟩, hp⟩, rfl⟩
    exact ⟨key, a, ⟨ha, hp⟩, rfl⟩
  · rintro ⟨key, a, ⟨ha, hp⟩, rfl⟩
    exact ⟨a, ⟨⟨key, ha⟩, hp⟩, rfl⟩

lemma contains_eq_isSome (m : Keyed α) (key : String) :
    m.contains key = (m.find? key).isSome := by
  rw [Bool.eq_iff_iff]
  simp [contains, find?]

lemma contains_iff {m : Keyed α} {key : String} :
    m.contains key = true ↔ ∃ a, m.find? key = some a := by
  rw [contains_eq_isSome, Option.isSome_iff_exists]

/-- Every value lies under its own name. -/
def NamedBy (name : α → String) (m : Keyed α) : Prop :=
  ∀ key a, m.find? key = some a → name a = key

namespace NamedBy

variable {name : α → String} {m : Keyed α}

lemma mem_values (h : m.NamedBy name) {a : α} : a ∈ m.values ↔ m.find? (name a) = some a := by
  rw [mem_values_iff]
  constructor
  · rintro ⟨key, hk⟩
    rwa [h key a hk]
  · exact fun hk => ⟨_, hk⟩

/-- The list of all values finds the same as the map. -/
lemma find?_values (h : m.NamedBy name) (key : String) :
    m.values.find? (name · == key) = m.find? key := by
  have hname : ∀ p ∈ m.entries, name p.2 = p.1 := fun p hp => h _ _ (find?_eq_some_iff.mpr hp)
  rw [values, List.find?_map, find?]
  congr 1
  generalize m.entries = l at hname
  induction l with
  | nil => rfl
  | cons p rest ih =>
    rw [List.find?_cons, List.find?_cons, ih fun q hq => hname q (.tail _ hq)]
    simp [hname p (.head _)]

lemma foldl_insertNew (value : β → α) (l : List β) (hm : m.NamedBy name) :
    (l.foldl (fun m b => m.insertNew (name (value b)) (value b)) m).NamedBy name := by
  intro key a h
  rw [find?_foldl_insertNew (fun b => name (value b)) value] at h
  rcases hk : m.find? key with _ | b
  · rw [hk, Option.none_or] at h
    obtain ⟨b, hb, rfl⟩ := Option.map_eq_some_iff.mp h
    simpa using List.find?_some hb
  · rw [hk] at h
    cases h
    exact hm key a hk

lemma empty : (empty : Keyed α).NamedBy name := fun _ _ h => nomatch h

lemma insert (hm : m.NamedBy name) {key : String} {a : α} (ha : name a = key) :
    (m.insert key a).NamedBy name := by
  intro k b hb
  rw [find?_insert] at hb
  split at hb
  · rename_i hk
    rw [← Option.some.inj hb, ha, hk]
  · exact hm k b hb

lemma erase (hm : m.NamedBy name) (key : String) : (m.erase key).NamedBy name := by
  intro k b hb
  rw [find?_erase] at hb
  split at hb
  · cases hb
  · exact hm k b hb

end NamedBy

lemma nodup_keys (m : Keyed α) : (m.entries.map (·.1)).Nodup := by
  rw [List.Nodup, List.pairwise_map]
  refine m.ascending.imp fun h e => ?_
  rw [e] at h
  exact String.lt_irrefl _ h

/-! ### The order of a map -/

/-- A list in the order of its keys is known by its members. -/
lemma eq_of_ascending {key : α → String} {l l' : List α}
    (hl : l.Pairwise fun a b => key a < key b) (hl' : l'.Pairwise fun a b => key a < key b)
    (h : ∀ a, a ∈ l ↔ a ∈ l') : l = l' := by
  have : Std.Irrefl fun a b : α => key a < key b := ⟨fun _ => String.lt_irrefl _⟩
  have : Std.Antisymm fun a b : α => key a < key b :=
    ⟨fun _ _ hab hba => absurd (String.lt_trans hab hba) (String.lt_irrefl _)⟩
  exact hl.eq_of_mem_iff hl' h

/-- A map is known by what it finds. -/
lemma ext_find? {m m' : Keyed α} (h : ∀ key, m.find? key = m'.find? key) : m = m' := by
  refine ext_entries (eq_of_ascending m.ascending m'.ascending fun p => ?_)
  rw [← find?_eq_some_iff, h, find?_eq_some_iff]

lemma values_map (f : α → β) (m : Keyed α) : (m.map f).values = m.values.map f := by
  simp [values, map, Function.comp_def]

/-- The values come in the order of their names. -/
lemma NamedBy.pairwise_values {name : α → String} {m : Keyed α} (h : m.NamedBy name) :
    m.values.Pairwise fun a b => name a < name b := by
  rw [values, List.pairwise_map]
  refine m.ascending.imp_of_mem fun {p q} hp hq hpq => ?_
  rwa [h p.1 p.2 (find?_eq_some_iff.mpr hp), h q.1 q.2 (find?_eq_some_iff.mpr hq)]

/-- No two values have the same name. -/
lemma NamedBy.nodup_values {name : α → String} {m : Keyed α} (h : m.NamedBy name) :
    (m.values.map name).Nodup := by
  have hkeys : m.values.map name = m.entries.map (·.1) := by
    rw [values, List.map_map]
    exact List.map_congr_left fun p hp => h p.1 p.2 (find?_eq_some_iff.mpr hp)
  rw [hkeys]
  exact nodup_keys m

/-! ### Changing what lies under one key -/

/-- Sets what a map finds under one key: a value, or nothing. -/
def put (m : Keyed α) (key : String) : Option α → Keyed α
  | some a => m.insert key a
  | none => m.erase key

@[simp] lemma find?_put (m : Keyed α) (key k : String) (o : Option α) :
    (m.put key o).find? k = if key = k then o else m.find? k := by
  cases o with
  | none => exact find?_erase m key k
  | some a => exact find?_insert m key k a

@[simp] lemma find?_modify (m : Keyed α) (key k : String) (f : α → α) :
    (m.modify key f).find? k = if key = k then (m.find? k).map f else m.find? k := by
  simp only [find?, modify, List.find?_map, Function.comp_def, Option.map_map]
  split
  · rename_i hk
    refine Option.map_congr fun p hp => if_pos ?_
    rw [hk]
    simpa using List.find?_some hp
  · rename_i hk
    refine Option.map_congr fun p hp => if_neg fun hp' => hk ?_
    rw [← hp']
    simpa using List.find?_some hp

lemma modify_congr {m : Keyed α} {key : String} {f f' : α → α}
    (h : ∀ a, m.find? key = some a → f a = f' a) :
    m.modify key f = m.modify key f' := by
  refine ext_find? fun k => ?_
  rw [find?_modify, find?_modify]
  split
  · rename_i hk
    exact Option.map_congr fun a ha => h a (hk ▸ ha)
  · rfl

end TagSync.Keyed
