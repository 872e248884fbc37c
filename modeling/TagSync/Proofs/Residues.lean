import TagSync.Proofs.Opening
import TagSync.Proofs.Refusals
import TagSync.Proofs.SeedFiles

/-!
What refused command lines leave behind.

A command line that ends with the status 2 has changed nothing in a hub unless it came to what is
refused after something else: after seed files that it had imported, or after a destination that
it had made. What stays then is said exactly.
-/

namespace TagSync

namespace Clone

open CommandLine

variable {h h' : Hub} {o : CloneOptions} {id : String} {json : Bool}

/-- The names of a run make no difference to whether it is refused. -/
lemma code_cloneTagOn (h : Hub) (o : CloneOptions) (id : String) (json : Bool) :
    (cloneTagOn Hub.session id o json h).2 = (Dialog.outcome Hub.session (stages id o) h).2 ∧
      ((cloneTagOn Hub.session id o json h).1.status.code = 2 ↔
        ∃ f, (Dialog.outcome Hub.session (stages id o) h).1 = .error f ∧ f.isUsage = true) := by
  obtain ⟨hresult, hstate⟩ := run_eq ⟨id, none⟩ o h
  unfold cloneTagOn
  dsimp only
  rcases hout : (Dialog.outcome Hub.session (stages id o) h).1 with f | r <;>
    rw [hout] at hresult <;> rw [hresult, hstate]
  · refine ⟨rfl, ?_⟩
    simp only [Except.mapError, Printed.ofFailure, code_ofFailure]
    simp [inContext, Failure.isUsage]
  · refine ⟨rfl, ?_⟩
    simp only [Except.mapError, printClone]
    split <;> simp [Status.code]

section

variable (free : h.tables.tag? (h.tables.tags.length + 1) = none) (closed : h.before = none)

include free closed

lemma state_of_refused_clone
    (refused : (cloneTagOn Hub.session id o json h).1.status.code = 2) :
    (cloneTagOn Hub.session id o json h).2 = h ∨
      MadeInVain o h (cloneTagOn Hub.session id o json h).2 := by
  obtain ⟨hstate, hcode⟩ := code_cloneTagOn h o id json
  obtain ⟨f, hf, husage⟩ := hcode.mp refused
  rw [hstate]
  exact state_of_refused_stages free closed id (Prod.ext hf rfl) husage

lemma MadeInVain.refused (vain : MadeInVain o h h') :
    (cloneTagOn Hub.session id o json h).1.status.code = 2 ∧
      (cloneTagOn Hub.session id o json h).2 = h' := by
  obtain ⟨hstate, hcode⟩ := code_cloneTagOn h o id json
  obtain ⟨f, hrun, husage⟩ := stages_of_madeInVain free closed vain id
  rw [hstate, hcode, hrun]
  exact ⟨⟨f, rfl, husage⟩, rfl⟩

end

lemma MadeInVain.before_eq (vain : MadeInVain o h h') : h'.before = h.before := by
  cases vain
  rfl

/-- The destination is there now. -/
lemma MadeInVain.tables_ne (vain : MadeInVain o h h') : h'.tables ≠ h.tables := by
  cases vain
  intro heq
  have htags := congrArg (fun t => t.tags.length) heq
  simp [Tables.tags_withTag] at htags

end Clone

namespace CommandLine

variable {s : Surroundings} {place : Location} {t t' : Tables} {address user : String}

/-- What a refused command line leaves in the hub at a place. -/
inductive Residue (s : Surroundings) (i : Invocation) (place : Location) (t : Tables) :
    Tables → Prop where
  /-- Seed files before the refused one. -/
  | imported {f : FileTree} {o : OpenHub} {path : String} {h : Hub}
    (opens : Opens s.files i.db place f o) (command : i.command = .importSeed path)
    (part : ImportedInPart o f (s.hub t "") (seedPaths f path) h) : Residue s i place t h.tables
  /-- A destination that was made in vain. -/
  | made {f : FileTree} {o : OpenHub} {options : CloneOptions} {json : Bool} {user : String}
    {h : Hub} (opens : Opens s.files i.db place f o)
    (command : i.command = .cloneTag options json) (named : i.user = some user)
    (vain : Clone.MadeInVain options (s.hub t user) h) : Residue s i place t h.tables

/-- Work on a hub is refused and changes it exactly in the ways in which it leaves something. -/
lemma onHub_refused_iff {work : OpenHub → FileTree → Hub → Printed × Hub}
    (Leaves : OpenHub → FileTree → Hub → Prop) (kept : s.files.Holds place t)
    (refused : ∀ o f, o.readOnly = false → (work o f (s.hub t user)).1.status.code = 2 →
      (work o f (s.hub t user)).2 = s.hub t user ∨ Leaves o f (work o f (s.hub t user)).2)
    (leaves : ∀ o f h, o.readOnly = false → Leaves o f h →
      ((work o f (s.hub t user)).1.status.code = 2 ∧ (work o f (s.hub t user)).2 = h) ∧
        h.before = none ∧ h.tables ≠ t) :
    ((onHub s address user work).1.status.code = 2 ∧
        (onHub s address user work).2.Holds place t' ∧ t' ≠ t) ↔
      ∃ f o h, Opens s.files address place f o ∧ Leaves o f h ∧ h.tables = t' := by
  rcases holds_onHub kept address user work with ⟨hsame, hnone⟩ | ⟨f, o, hopens, hprinted, hholds⟩
  · constructor
    · rintro ⟨-, hholds, hne⟩
      exact absurd (hholds.unique hsame) hne
    · rintro ⟨f, o, h, hopens, -, -⟩
      exact absurd hopens (hnone f o)
  · rw [hprinted]
    constructor
    · rintro ⟨hcode, hholds', hne⟩
      obtain rfl := hholds'.unique hholds
      rcases refused o f hopens.writable hcode with hstate | hleaves
      · exact absurd (by rw [hstate]; rfl) hne
      · obtain ⟨-, hclosed, -⟩ := leaves o f _ hopens.writable hleaves
        exact ⟨f, o, _, hopens, hleaves, by rw [Hub.durable, hclosed]; rfl⟩
    · rintro ⟨f', o', h, hopens', hleaves, rfl⟩
      cases hopens.opened.symm.trans hopens'.opened
      obtain ⟨⟨hcode, rfl⟩, hclosed, hne⟩ := leaves o f h hopens.writable hleaves
      rw [Hub.durable, hclosed] at hholds
      exact ⟨hcode, hholds, hne⟩

/-! ### Whole command lines -/

lemma holds_run (kept : s.files.Holds place t) (i : Invocation) :
    ∃ t', (i.run s).2.Holds place t' := by
  have honHub : ∀ (user : String) (work : OpenHub → FileTree → Hub → Printed × Hub),
      ∃ t', (onHub s i.db user work).2.Holds place t' := by
    intro user work
    rcases holds_onHub kept i.db user work with ⟨hsame, -⟩ | ⟨f, o, -, -, hholds⟩
    · exact ⟨t, hsame⟩
    · exact ⟨_, hholds⟩
  unfold Invocation.run
  split
  · exact honHub ..
  · split
    · exact ⟨t, kept⟩
    · exact honHub ..

section

variable {i : Invocation}

lemma importSeed_refused_iff (kept : s.files.Holds place t) {path : String}
    (command : i.command = .importSeed path) :
    ((i.run s).1.status.code = 2 ∧ (i.run s).2.Holds place t' ∧ t' ≠ t) ↔
      Residue s i place t t' := by
  unfold Invocation.run
  rw [command]
  dsimp only
  rw [onHub_refused_iff (fun o f h => ImportedInPart o f (s.hub t "") (seedPaths f path) h) kept
    (fun o f writable => state_of_refused_import writable)
    (fun o f h writable part => ⟨part.refused writable, part.before_eq writable,
      part.tables_ne writable⟩)]
  constructor
  · rintro ⟨f, o, h, hopens, part, rfl⟩
    exact .imported hopens command part
  · rintro (⟨hopens, hcommand, part⟩ | ⟨-, hcommand, -, -⟩) <;> cases command.symm.trans hcommand
    exact ⟨_, _, _, hopens, part, rfl⟩

lemma cloneTag_refused_iff (kept : s.files.Holds place t)
    (free : t.tag? (t.tags.length + 1) = none) {options : CloneOptions} {json : Bool}
    (command : i.command = .cloneTag options json) :
    ((i.run s).1.status.code = 2 ∧ (i.run s).2.Holds place t' ∧ t' ≠ t) ↔
      Residue s i place t t' := by
  unfold Invocation.run
  rw [command]
  dsimp only
  rcases huser : i.user with _ | user <;> dsimp only
  · constructor
    · rintro ⟨-, hholds, hne⟩
      exact absurd (hholds.unique kept) hne
    · rintro (⟨-, hcommand, -⟩ | ⟨-, -, hnamed, -⟩)
      · cases command.symm.trans hcommand
      · cases huser.symm.trans hnamed
  · have hsession (o : OpenHub) (writable : o.readOnly = false) : o.session = Hub.session := by
      rw [OpenHub.session, writable]
      rfl
    rw [onHub_refused_iff (fun _ _ h => Clone.MadeInVain options (s.hub t user) h) kept
      (fun o f writable hcode => by
        rw [hsession o writable] at hcode ⊢
        exact Clone.state_of_refused_clone free rfl hcode)
      (fun o f h writable vain => by
        rw [hsession o writable]
        exact ⟨vain.refused free rfl, vain.before_eq, vain.tables_ne⟩)]
    constructor
    · rintro ⟨f, o, h, hopens, vain, rfl⟩
      exact .made hopens command huser vain
    · rintro (⟨-, hcommand, -⟩ | ⟨hopens, hcommand, hnamed, vain⟩) <;>
        cases command.symm.trans hcommand
      cases huser.symm.trans hnamed
      exact ⟨_, _, _, hopens, vain, rfl⟩

end

/-- Words that ask for no work leave the files alone. -/
lemma files_run_of_stop {words : List String} {stop : Stop}
    (stops : Invocation.parse s.env words = .error stop) : (run s words).2 = s.files := by
  unfold run
  rw [stops]
  cases stop <;> rfl

/-- **What refused command lines leave**: a hub in a file is still there after any command line,
and its content is other than before after the status 2 exactly if seed files were imported before
the one that is refused, or a destination was made in vain. Of the tables it is only asked that the
number of the next tag is not taken. -/
theorem refused_with_residue_iff (kept : s.files.Holds place t)
    (free : t.tag? (t.tags.length + 1) = none) (words : List String) :
    (∃ t', (run s words).2.Holds place t') ∧
      ∀ t', ((run s words).1.status.code = 2 ∧ (run s words).2.Holds place t' ∧ t' ≠ t) ↔
        ∃ i, Invocation.parse s.env words = .ok i ∧ Residue s i place t t' := by
  rcases hparse : Invocation.parse s.env words with stop | i
  · rw [files_run_of_stop hparse]
    refine ⟨⟨t, kept⟩, fun t' => ⟨?_, fun ⟨_, hi, _⟩ => nomatch hi⟩⟩
    rintro ⟨-, hholds, hne⟩
    exact absurd (hholds.unique kept) hne
  · have hrun : run s words = i.run s := by
      unfold run
      rw [hparse]
    rw [hrun]
    refine ⟨holds_run kept i, fun t' => ?_⟩
    have hinvocation : ((i.run s).1.status.code = 2 ∧ (i.run s).2.Holds place t' ∧ t' ≠ t) ↔
        Residue s i place t t' := by
      rcases hcommand : i.command with path | ⟨options, json⟩
      · exact importSeed_refused_iff kept hcommand
      · exact cloneTag_refused_iff kept free hcommand
    rw [hinvocation]
    exact ⟨fun residue => ⟨i, rfl, residue⟩, fun ⟨_, hi, residue⟩ => Except.ok.inj hi ▸ residue⟩

/-- A new hub and two seed files, of which the second one cannot be read. -/
def twoSeeds : Surroundings where
  files := { entries := [(["hub.db"], .hub .empty true), (["seeds"], .directory),
    (["seeds", "a.yaml"], .text "schema_version: 0"), (["seeds", "b.yaml"], .text "[")] }
  env := fun _ => none
  requestId := ""

/-- A refused import of a directory leaves the event of its first file. -/
theorem refused_with_residue_twoSeeds :
    let words := ["--db", "hub.db", "seed", "import", "seeds"]
    ∃ t', (run twoSeeds words).1.status.code = 2 ∧ (run twoSeeds words).2.Holds ["hub.db"] t' ∧
      t'.events.length = 1 ∧
      ∃ i, Invocation.parse twoSeeds.env words = .ok i ∧
        Residue twoSeeds i ["hub.db"] .empty t' := by
  intro words
  have kept : twoSeeds.files.Holds ["hub.db"] .empty := rfl
  have hcode : (run twoSeeds words).1.status.code = 2 := by decide +kernel
  have hlength : ((run twoSeeds words).2.tables? ["hub.db"]).map (·.events.length) = some 1 := by
    decide +kernel
  obtain ⟨⟨t', hholds⟩, hiff⟩ := refused_with_residue_iff kept (by decide) words
  rw [hholds, Option.map_some, Option.some.injEq] at hlength
  have hne : t' ≠ .empty := by
    rintro rfl
    cases hlength
  exact ⟨t', hcode, hholds, hlength, (hiff t').mp ⟨hcode, hholds, hne⟩⟩

end CommandLine

end TagSync
