import Mathlib.Tactic.Common
import TagSync.CommandLine

/-!
Opening hubs.

Whatever address a command line names, a hub that lies in a file keeps its content while
directories are made and hubs are opened. If it is the one that is opened, its content is what the
work starts from, and what is durable after the work is what its file holds then.
-/

namespace TagSync

namespace FileTree

variable {f : FileTree} {l place : Location} {e : FileEntry} {t : Tables}

/-! ### Changes of one place -/

lemma lookup_filter_of_ne {entries : List (Location × FileEntry)} (h : place ≠ l) :
    (entries.filter fun p => p.1 != l).lookup place = entries.lookup place := by
  induction entries with
  | nil => rfl
  | cons p rest ih =>
    obtain ⟨k, a⟩ := p
    by_cases hk : k = l
    · have hne : (place == k) = false := by simpa [hk] using h
      rw [List.filter_cons_of_neg (by simp [hk]), ih, List.lookup_cons, hne]
    · rw [List.filter_cons_of_pos (by simp [hk]), List.lookup_cons, List.lookup_cons, ih]

lemma lookup_filter_self {entries : List (Location × FileEntry)} :
    (entries.filter fun p => p.1 != l).lookup l = none := by
  rw [List.lookup_eq_none_iff]
  intro p hp
  have hne : p.1 ≠ l := by simpa using (List.mem_filter.mp hp).2
  simpa using hne.symm

lemma find?_put_of_ne (h : place ≠ l) (e : FileEntry) :
    (f.put l e).find? place = f.find? place := by
  have hlast : [(l, e)].lookup place = none := by simpa [List.lookup_eq_none_iff] using h
  simp only [find?, put, List.lookup_append, lookup_filter_of_ne h, hlast, Option.or_none]

/-- What is put at a place is found there, unless the place is one of those that are always
there. -/
lemma find?_put_self (h : l.isPrefixOf f.home = false) (e : FileEntry) :
    (f.put l e).find? l = some e := by
  simp [find?, put, h, List.lookup_append, lookup_filter_self]

/-! ### Files that hold hubs -/

/-- The content of the hub in the file at a place. -/
def tables? (f : FileTree) (place : Location) : Option Tables :=
  match f.find? place with
  | some (.hub t _) => some t
  | _ => none

/-- A file holds a hub with some tables. -/
def Holds (f : FileTree) (place : Location) (t : Tables) : Prop := f.tables? place = some t

lemma holds_iff : f.Holds place t ↔ ∃ logged, f.find? place = some (.hub t logged) := by
  unfold Holds tables?
  split <;> simp_all

lemma Holds.isPrefixOf (h : f.Holds place t) : place.isPrefixOf f.home = false := by
  obtain ⟨logged, hfind⟩ := holds_iff.mp h
  by_contra hprefix
  rw [find?, if_pos (by simpa using hprefix)] at hfind
  cases hfind

/-- A file holds one hub. -/
lemma Holds.unique {t' : Tables} (h : f.Holds place t) (h' : f.Holds place t') : t = t' :=
  Option.some.inj (h.symm.trans h')

lemma Holds.put_of_ne (h : f.Holds place t) (hne : place ≠ l) (e : FileEntry) :
    (f.put l e).Holds place t := by
  rwa [Holds, tables?, find?_put_of_ne hne]

/-- What was not there is no hub. -/
lemma Holds.put_missing (h : f.Holds place t) (hl : f.find? l = none) (e : FileEntry) :
    (f.put l e).Holds place t := by
  refine h.put_of_ne ?_ e
  rintro rfl
  obtain ⟨logged, hfind⟩ := holds_iff.mp h
  cases hl.symm.trans hfind

lemma Holds.put_hub (h : f.Holds place t) (t' : Tables) (logged : Bool) :
    (f.put place (.hub t' logged)).Holds place t' :=
  holds_iff.mpr ⟨logged, find?_put_self h.isPrefixOf _⟩

/-- Directories are only made where nothing is. -/
lemma Holds.makeDirectories (h : f.Holds place t) (here : Location) (names : List String) :
    (f.makeDirectories here names).1.Holds place t := by
  induction names generalizing f here with
  | nil => exact h
  | cons name rest ih =>
    rw [FileTree.makeDirectories]
    split
    · exact h
    · split
      · exact ih h _
      · exact h
      · rename_i hnone
        exact ih (h.put_missing hnone _) _

lemma Holds.makeParents (h : f.Holds place t) (path : String) :
    (f.makeParents path).1.Holds place t := by
  unfold FileTree.makeParents
  dsimp only
  split
  · exact h
  · exact h.makeDirectories ..

end FileTree

namespace CommandLine

variable {f f' : FileTree} {place : Location} {t : Tables} {o : OpenHub} {a : HubAddress}
  {address user : String} {s : Surroundings}

/-! ### Opening -/

/-- A hub that was opened has the content of its file. -/
def OpenHub.FromFile (o : OpenHub) (place : Location) (t : Tables) : Prop :=
  o.place = some place → o.tables = t

lemma fromFile_of_openKept {logged : Bool} {l : Location} {t' : Tables}
    (hopen : openKept l a t' logged = .ok o) : o.place = some l ∧ o.tables = t' := by
  unfold openKept at hopen
  split at hopen
  · split at hopen
    · cases hopen
    · split at hopen <;> cases hopen
      exact ⟨rfl, rfl⟩
  · split at hopen <;> cases hopen
    exact ⟨rfl, rfl⟩

lemma place_of_newHub {l : Location} (hopen : newHub l a = .ok o) : o.place = some l := by
  unfold newHub at hopen
  split at hopen
  · cases hopen
  · split at hopen <;> cases hopen
    rfl

lemma place_of_openEntry {l : Location} {e : FileEntry}
    (hopen : openEntry l a address e = .ok o) : o.place = some l := by
  unfold openEntry at hopen
  split at hopen
  · exact (fromFile_of_openKept hopen).1
  · split at hopen
    · exact place_of_newHub hopen
    · cases hopen
  · cases hopen
  · split at hopen <;> cases hopen

lemma holds_openPlace (h : f.Holds place t) (l : Location) :
    (openPlace f l a address).1.Holds place t ∧
      ∀ o, (openPlace f l a address).2 = .ok o → o.FromFile place t := by
  unfold openPlace
  split
  · exact ⟨h, nofun⟩
  split
  · rename_i e he
    refine ⟨h, fun o hopen hplace => ?_⟩
    obtain rfl : l = place := Option.some.inj ((place_of_openEntry hopen).symm.trans hplace)
    obtain ⟨logged, hfind⟩ := FileTree.holds_iff.mp h
    cases he.symm.trans hfind
    exact (fromFile_of_openKept hopen).2
  · rename_i hnone
    split
    · refine ⟨h.put_missing hnone _, fun o hopen hplace => ?_⟩
      obtain rfl : l = place := Option.some.inj ((place_of_newHub hopen).symm.trans hplace)
      obtain ⟨logged, hfind⟩ := FileTree.holds_iff.mp h
      cases hnone.symm.trans hfind
    · exact ⟨h, nofun⟩

lemma holds_openAt (h : f.Holds place t) (a : HubAddress) (address : String) :
    (openAt f a address).1.Holds place t ∧
      ∀ o, (openAt f a address).2 = .ok o → o.FromFile place t := by
  unfold openAt
  split
  · refine ⟨h, fun o hopen hplace => ?_⟩
    unfold openVolatile at hopen
    split at hopen
    · cases hopen
    · split at hopen <;> cases hopen
      cases hplace
  · split
    · exact ⟨h, nofun⟩
    · exact holds_openPlace h _

/-- Storing changes the file of the hub that is open for writing, and no other. -/
lemma holds_store (h : f.Holds place t) (o : OpenHub) (t' : Tables) :
    (o.store f t').Holds place
      (if o.place = some place ∧ o.readOnly = false then t' else t) := by
  unfold OpenHub.store
  rcases hplace : o.place with _ | l
  · simpa using h
  · rcases hread : o.readOnly with _ | _
    · by_cases hl : l = place
      · subst hl
        simpa using h.put_hub t' o.logged
      · simp only [Option.some.injEq, hl, false_and, if_false, Bool.false_eq_true]
        exact h.put_of_ne (Ne.symm hl) _
    · simpa using h

/-- **Opening a hub** leaves every hub its content, and what is opened has the content of its
file. -/
theorem holds_openHub (h : f.Holds place t) (address : String) :
    (openHub f address).1.Holds place t ∧
      ∀ o, (openHub f address).2 = .ok o → o.FromFile place t := by
  have hparents := h.makeParents address
  unfold openHub
  rcases hmade : f.makeParents address with ⟨f', e | _⟩ <;> rw [hmade] at hparents <;> dsimp only
  · exact ⟨hparents, nofun⟩
  rcases HubAddress.parse address with message | a <;> dsimp only
  · exact ⟨hparents, nofun⟩
  obtain ⟨hfiles, hopened⟩ := holds_openAt hparents a address
  rcases hopen : openAt f' a address with ⟨f'', e | o⟩ <;> rw [hopen] at hfiles hopened <;>
    dsimp only
  · exact ⟨hfiles, nofun⟩
  have hfrom := hopened o rfl
  refine ⟨?_, fun o' ho' => Except.ok.inj ho' ▸ hfrom⟩
  have hstore := holds_store hfiles o o.tables
  split at hstore
  · rename_i hhere
    rwa [← hfrom hhere.1]
  · exact hstore

/-! ### Working on a hub -/

/-- The hub in the file at a place is opened, and may be written. -/
structure Opens (f : FileTree) (address : String) (place : Location) (f' : FileTree)
    (o : OpenHub) : Prop where
  opened : openHub f address = (f', .ok o)
  here : o.place = some place
  writable : o.readOnly = false

/-- The hub that a command starts from. -/
def Surroundings.hub (s : Surroundings) (t : Tables) (user : String) : Hub :=
  { tables := t, user, clock := s.clock }

/-- **What a hub holds after a command** that worked on some hub: what the work has left durable
if it was opened for writing, and otherwise what it held before. -/
theorem holds_onHub (h : s.files.Holds place t) (address user : String)
    (work : OpenHub → FileTree → Hub → Printed × Hub) :
    ((onHub s address user work).2.Holds place t ∧ ∀ f o, ¬ Opens s.files address place f o) ∨
      ∃ f o, Opens s.files address place f o ∧
        let outcome := work o f (s.hub t user)
        (onHub s address user work).1 = outcome.1 ∧
          (onHub s address user work).2.Holds place outcome.2.durable := by
  obtain ⟨hfiles, hopened⟩ := holds_openHub h address
  unfold onHub
  rcases hopen : openHub s.files address with ⟨f, e | o⟩ <;> rw [hopen] at hfiles hopened <;>
    dsimp only
  · refine .inl ⟨hfiles, fun f' o hopens => ?_⟩
    cases hopen.symm.trans hopens.opened
  have hstore := holds_store hfiles o (work o f (s.hub o.tables user)).2.durable
  by_cases hhere : o.place = some place ∧ o.readOnly = false
  · have hfrom := hopened o rfl hhere.1
    rw [if_pos hhere, hfrom] at hstore
    rw [hfrom]
    exact .inr ⟨f, o, ⟨hopen, hhere.1, hhere.2⟩, rfl, hstore⟩
  · rw [if_neg hhere] at hstore
    refine .inl ⟨hstore, fun f' o' hopens => hhere ?_⟩
    cases hopen.symm.trans hopens.opened
    exact ⟨hopens.here, hopens.writable⟩

end CommandLine

end TagSync
