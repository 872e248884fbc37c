import TagSync.Proofs.Exchanges

/-!
What runs do to the tables of a hub, however they end.

A dry run only asks. Any other run leaves the tables as they are until it has its destination,
which it may have to make; from then on it changes nothing but that tag.
-/

namespace TagSync

namespace Clone

open Dialog

variable {h h' mid : Hub} {o : CloneOptions} {id : String} {src dst tag : TagInfo}
  {size : BatchSize} {event : Option EventInfo} {state : DestinationState}

/-! ### Dry runs -/

lemma readOnly_fetch (tag : TagInfo) (event : Option EventId) (scope : FetchScope) :
    ReadOnly Hub.session (Snapshot.fetch tag event scope) := by
  refine .ite (.bind (.ask fun _ => rfl) fun packages => ?_)
      (.bind (.pure _) fun packages => ?_) <;>
    refine .ite (.bind (.ask fun _ => rfl) fun builds => ?_) (.bind (.pure _) fun builds => ?_) <;>
    refine .ite (.bind (.ask fun _ => rfl) fun groups => ?_) (.bind (.pure _) fun groups => ?_) <;>
    exact .bind (.report _) fun _ => .pure _

lemma readOnly_checkLock (tag : TagInfo) (flags : CallFlags) :
    ReadOnly Hub.session (checkLock tag flags) :=
  .ite (.refuse _) (.pure _)

lemma readOnly_reconcile (o : CloneOptions) (event : Option EventId) (src dst : TagInfo)
    (state : DestinationState) : ReadOnly Hub.session (reconcile o event src dst state) := by
  refine .bind (readOnly_fetch _ _ _) fun s => ?_
  refine .ite (.bind (.pure _) fun d => ?_) (.bind (readOnly_fetch _ _ _) fun d => ?_) <;>
    exact .bind (.report _) fun _ => .pure _

section

variable (dry : o.dryRun = true)

include dry

lemma readOnly_createDestination (src : TagInfo) :
    ReadOnly Hub.session (createDestination o src) := by
  unfold createDestination
  rw [dry]
  cases o.dst with
  | byId id => exact .refuse _
  | byName name => exact .ite (.refuse _) (.pure _)

lemma readOnly_findDestination (src : TagInfo) :
    ReadOnly Hub.session (findDestination o src) := by
  refine .bind (.ask fun _ => rfl) fun found => ?_
  rcases found with _ | dst
  · exact .bind (readOnly_createDestination dry src) fun _ => .ite (.refuse _) (.pure _)
  · exact .bind (readOnly_checkLock _ _) fun _ => .bind (.pure _) fun _ =>
      .ite (.refuse _) (.pure _)

lemma readOnly_proceed (id : String) (size : BatchSize) (event : Option EventInfo)
    (src dst : TagInfo) (state : DestinationState) :
    ReadOnly Hub.session (proceed id o size event src dst state) := by
  unfold proceed
  rw [dry]
  exact .bind (readOnly_reconcile _ _ _ _ _) fun _ => .bind (.pure _) fun _ => .pure _

/-- **A dry run only asks.** -/
theorem readOnly_stages (id : String) : ReadOnly Hub.session (stages id o) := by
  rw [stages_eq]
  exact .bind (readOnly_lookUp o) fun _ =>
    .bind (readOnly_findDestination dry _) fun _ => readOnly_proceed dry _ _ _ _ _ _

end

/-! ### The destination -/

/-- The tag that a run may write to: its destination, or where that is missing the next tag to be
made. -/
def destinationId (o : CloneOptions) (t : Tables) : TagId :=
  ((t.getTag o.dst none).map TagInfo.id).getD (t.tags.length + 1)

lemma Found.id_eq (hf : Found o h src dst mid) : dst.id = destinationId o h.tables := by
  cases hf with
  | existing found => simp [destinationId, found]
  | @created name byName missing closed selected =>
    have hmissing : h.tables.getTag o.dst none = none := by
      rw [byName, Tables.getTag_none, Tables.row?, missing, Option.map_none]
    simp [destinationId, hmissing]

/-- A run that does not get a destination leaves the hub as it is. -/
lemma state_of_findDestination_error (hr : h.Reachable) (hl : LookedUp o h size event src)
    (wet : o.dryRun = false) {e : Failure}
    (hfind : outcome Hub.session (findDestination o src) h = (.error e, mid)) : mid = h := by
  rcases found : h.tables.getTag o.dst none with _ | dst
  · have hask : outcome Hub.session (ask (.getTag o.dst none)) h = (.ok none, h) := by
      rw [outcome_getTag, found]
    have hrefused : ∀ e', outcome Hub.session (createDestination o src) h = (.error e', h) →
        mid = h := by
      intro e' hcreate
      have hstops : outcome Hub.session (findDestination o src) h = (.error e', h) := by
        refine (outcome_bind_of_ok hask).trans ?_
        exact outcome_bind_of_error hcreate
      exact congrArg Prod.snd (hfind.symm.trans hstops)
    rcases byName : o.dst with id | name
    · refine hrefused (SyncError.tagNotFound (TagRef.byId id).display).toFailure ?_
      unfold createDestination
      rw [byName]
      rfl
    rcases selected : o.selection.config with _ | _
    · refine hrefused (SyncError.destinationMissing name).toFailure ?_
      unfold createDestination
      rw [byName, selected]
      rfl
    have missing : h.tables.tagNamed? name = none := by
      rwa [byName, Tables.getTag_none, Option.map_eq_none_iff] at found
    by_cases closed : h.before = none
    · -- a new tag is a destination, so this is no failure
      have hf : Found o h src _ _ := .created byName missing closed selected
      obtain ⟨state, -, hok⟩ := hf.outcome_findDestination hr hl wet
      rw [hok] at hfind
      cases hfind
    · refine hrefused
        (Hub.storageFailure "cannot start a transaction within a transaction") ?_
      unfold createDestination
      rw [byName, selected, wet]
      exact outcome_bind_of_error (outcome_createTag_of_open missing closed src.config)
  · rw [outcome_findDestination found] at hfind
    exact (congrArg Prod.snd hfind).symm

/-! ### Whole runs -/

/-- Applying a plan changes nothing but its destination, whatever comes of it. -/
lemma confined_apply (found : h.tables.getTag (.byId tag.id) none = some tag) (p : Plan)
    (size : BatchSize) (flags : CallFlags) :
    h.tables.Confined h.clock tag.id
      (outcome Hub.session (p.apply tag.id size flags) h).2.tables := by
  have hanswers := (h.confined_answers tag flags p.operations).1
  rw [TagSync.outcome_apply flags found]
  rcases p.config with _ | config
  · exact hanswers
  · have hclock : (p.answered h tag size flags).2.clock = h.clock :=
      (h.answers_keeps tag flags p.operations).2
    dsimp only
    rcases (p.answered h tag size flags).2.editTag_cases tag.id config with ⟨e, hedit⟩ | hedit <;>
      rw [hedit] <;> dsimp only
    · exact hanswers
    · rw [hclock]
      exact hanswers.trans (Tables.confined_copyConfig _ _ _ _)

lemma confined_proceed (hr : h.Reachable) (hsrc : (h.tables.tag? src.id).isSome)
    (found : h.tables.getTag (.byId dst.id) none = some dst) (hstate : state ≠ .wouldCreate)
    (id : String) (size : BatchSize) (event : Option EventInfo) :
    h.tables.Confined h.clock dst.id
      (outcome Hub.session (proceed id o size event src dst state) h).2.tables := by
  have hdst := hr.sound.isSome_tag?_of_getTag found
  have happly := confined_apply found
    (planOn o h.tables (event.map EventInfo.id) src dst) size o.flags
  rw [outcome_proceed hr.sound hsrc hdst hstate]
  split
  · exact .refl ..
  · split
    · rename_i heq
      rwa [heq] at happly
    · rename_i heq
      rwa [heq] at happly

end Clone

/-- What a run may make of the tables: nothing else than one tag is changed, which is there or is
made first. -/
inductive Tables.Reworked (c : Clock) (d : TagId) (t : Tables) : Tables → Prop where
  | untouched : Reworked c d t t
  | edited {t' : Tables} (found : (t.tag? d).isSome) (confined : t.Confined c d t') :
    Reworked c d t t'
  | made {t' : Tables} {name : String} {config : TagConfig} (new : d = t.tags.length + 1)
      (missing : t.tagNamed? name = none) (confined : (t.withTag c name config).Confined c d t') :
    Reworked c d t t'

namespace Clone

open Dialog

/-- **A run changes nothing but its destination**, whether it succeeds or fails. -/
theorem reworked_of_run {h : Hub} (hr : h.Reachable) (c : RunContext) (o : CloneOptions) :
    h.tables.Reworked h.clock (destinationId o h.tables)
      ((run c o).run Hub.session h).state.tables := by
  rw [(run_eq c o h).2]
  rcases wet : o.dryRun with _ | _
  · rw [stages_eq]
    have hlookUp := readOnly_lookUp o h
    rcases hlook : outcome Hub.session (lookUp o) h with ⟨e | ⟨size, event, src⟩, h₁⟩
    · rw [hlook] at hlookUp
      rw [outcome_bind_of_error hlook, hlookUp]
      exact .untouched
    obtain ⟨hl, rfl⟩ := outcome_lookUp_eq_ok.mp hlook
    rw [outcome_bind_of_ok hlook]
    dsimp only
    rcases hfind : outcome Hub.session (findDestination o src) h₁ with ⟨e | ⟨dst, state⟩, mid⟩
    · rw [outcome_bind_of_error hfind, state_of_findDestination_error hr hl wet hfind]
      exact .untouched
    obtain ⟨hf, hstate⟩ := found_of_findDestination hr.sound wet hfind
    have hsrc := hf.isSome_tag? (hr.sound.isSome_tag?_of_getTag hl.source)
    have hproceed := confined_proceed (o := o) (hf.reachable hr) hsrc (hf.getTag_destination hr)
      hstate c.requestId size event
    rw [outcome_bind_of_ok hfind, ← hf.id_eq]
    cases hf with
    | existing found => exact .edited (hr.sound.isSome_tag?_of_getTag found) hproceed
    | created byName missing => exact .made rfl missing hproceed
  · rw [readOnly_stages wet]
    exact .untouched

end Clone

end TagSync
