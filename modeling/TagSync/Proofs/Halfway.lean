import TagSync.Proofs.Rehearsals

/-!
Runs that fail.

A run that fails has changed nothing, except in one case: it has made calls on a destination that
was there, some of them were accepted, and its settings could not be copied at last because a
transaction was open.
-/

namespace TagSync

namespace Hub

variable {h : Hub} {tag : TagInfo} {flags : CallFlags} {operations : List Operation}

/-- Calls change the tables exactly if one of them is accepted. -/
lemma tables_answers_eq_iff :
    (h.answers tag flags operations).2.tables = h.tables ↔
      acceptances (operations.zip (h.answers tag flags operations).1) = [] := by
  have hcalls := h.callEach_acceptances tag flags operations
  constructor
  · intro hsame
    have hevents := Tables.length_events_of_callEach hcalls
    rw [hsame] at hevents
    exact List.length_eq_zero_iff.mp (by omega)
  · intro hnone
    rw [hnone] at hcalls
    exact (Except.ok.inj hcalls).symm

/-- **What can be asked about a tag that exists is answered**, and all calls for it are; only its
settings cannot be copied while a transaction is open. -/
lemma answers_of_isSome_tag? (hr : h.Reachable) {id : TagId} (there : (h.tables.tag? id).isSome) :
    (∀ inherited event, ∃ l, (h.session (.listPackages id inherited event)).answer = .ok l) ∧
    (∀ inherited latestOnly event,
      ∃ l, (h.session (.listBuilds id inherited latestOnly event)).answer = .ok l) ∧
    (∀ event, ∃ l, (h.session (.listGroups id event)).answer = .ok l) ∧
    (∀ operations flags, ∃ results, (h.session (.multicall id operations flags)).answer =
      .ok results ∧ results.length = operations.length) ∧
    ∀ config, (h.session (.editTag id config)).answer = .ok () ↔ h.before = none := by
  have hlisting : ∀ {α : Type} (a : Except Failure α), h.listing id a = a := fun a => if_pos there
  refine ⟨fun _ _ => ⟨_, hlisting _⟩,
    fun _ _ _ => ⟨_, (hlisting _).trans (Tables.listBuilds_eq hr.sound ..)⟩,
    fun _ => ⟨_, hlisting _⟩, fun operations flags => ?_, fun config => ?_⟩
  · obtain ⟨row, hrow⟩ := Option.isSome_iff_exists.mp there
    have found : h.tables.getTag (.byId id) none = some row.info :=
      Tables.getTag_eq_some_iff.mpr ⟨row, hrow, nofun, rfl⟩
    exact ⟨_, (multicall_eq found operations flags).1, h.length_answers ..⟩
  · have hedit : (h.session (.editTag id config)).answer = (h.editTag id config).1 := rfl
    rw [hedit]
    by_cases closed : h.before = none
    · rw [editTag_of_closed closed there]
      exact iff_of_true rfl closed
    · rw [editTag_of_open closed]
      exact iff_of_false nofun closed

end Hub

namespace Clone

open Dialog

variable {h mid : Hub} {o : CloneOptions} {src dst : TagInfo} {size : BatchSize}
  {event : Option EventInfo}

/-- A plan for a tag that was just made copies no settings. -/
lemma Found.existing_of_settings (hf : Found o h src dst mid) {m : Option EventId}
    (settings : (planOn o mid.tables m src dst).config ≠ none) :
    mid = h ∧ h.tables.getTag o.dst none = some dst := by
  cases hf with
  | existing found => exact ⟨rfl, found⟩
  | created =>
    refine absurd ?_ settings
    have hsame : ∀ id name, Diff.config src ⟨id, name, src.config⟩ = none := fun _ _ => if_pos rfl
    rw [planOn_config, hsame, ite_self]

/-- A dry run makes no calls. -/
lemma quiet_stages (dry : o.dryRun = true) (id : String) : Quiet Hub.session (stages id o) := by
  rw [stages_eq]
  refine .bind (quiet_lookUp o) fun _ => .bind (quiet_findDestination o _) fun _ => ?_
  unfold proceed
  rw [dry]
  exact .bind (quiet_reconcile _ _ _ _ _) fun _ => .bind (.pure _) fun _ => .pure _

/-- **A run that is stranded**: its destination is there, one of its calls is accepted, and then its
settings cannot be copied. -/
inductive Stranded (o : CloneOptions) (h : Hub) : Prop where
  | mk {size : BatchSize} {event : Option EventInfo} {src dst : TagInfo} {x : Operation}
    (wet : o.dryRun = false) (looked : LookedUp o h size event src)
    (found : h.tables.getTag o.dst none = some dst)
    (unlocked : (dst.isLocked && !o.flags.force) = false) (apart : src.id ≠ dst.id)
    (stalls : Stalls o.flags h dst (planOn o h.tables (event.map EventInfo.id) src dst))
    (may : h.mayWrite dst = true)
    (planned : x ∈ (planOn o h.tables (event.map EventInfo.id) src dst).operations)
    (accepted : ¬ h.tables.Refuses dst.id o.flags.force x)

section

variable (hr : h.Reachable) (hl : LookedUp o h size event src) (hf : Found o h src dst mid)

include hr hl hf

/-- Of the calls of a plan one is accepted if the user may make it, and it is not refused. -/
lemma Found.acceptances_ne_nil_iff :
    let operations := (planOn o mid.tables (event.map EventInfo.id) src dst).operations
    acceptances (operations.zip (mid.answers dst o.flags operations).1) ≠ [] ↔
      mid.mayWrite dst = true ∧
        ∃ x ∈ operations, ¬ mid.tables.Refuses dst.id o.flags.force x := by
  intro operations
  have hlength := mid.length_answers dst o.flags operations
  rw [ne_eq, acceptances_eq_nil_iff hlength]
  by_cases may : mid.mayWrite dst = true
  · have haccepted := exists_mem_zip_iff hlength
      (p := fun x => ¬ mid.tables.Refuses dst.id o.flags.force x)
      (q := fun result => result = .ok ()) (hf.answers_eq_ok_iff hr hl may rfl)
    rw [and_iff_right may, ← haccepted]
    simp
  · have hnone : ∀ result ∈ (mid.answers dst o.flags operations).1, result ≠ .ok () := by
      rw [Hub.answers, if_neg may]
      intro result hresult
      obtain ⟨-, -, rfl⟩ := List.mem_map.mp hresult
      simp
    exact iff_of_false (not_not.mpr hnone) fun h => may h.1

end

/-- **How a run fails**: it has made no calls and leaves the hub as it is, or the settings of its
destination, which was there, cannot be copied at last. -/
lemma stages_error_cases (hr : h.Reachable) {id : String} {f : Failure}
    (failed : (outcome Hub.session (stages id o) h).1 = .error f) :
    (calls Hub.session (stages id o) h = [] ∧ (outcome Hub.session (stages id o) h).2 = h) ∨
    ∃ size event src dst, o.dryRun = false ∧ LookedUp o h size event src ∧ Found o h src dst h ∧
      h.tables.getTag o.dst none = some dst ∧ f = Hub.nested ∧
      let plan := planOn o h.tables (event.map EventInfo.id) src dst
      Stalls o.flags h dst plan ∧
        (outcome Hub.session (stages id o) h).2 = (h.answers dst o.flags plan.operations).2 := by
  rcases wet : o.dryRun with _ | _
  swap
  · exact .inl ⟨quiet_stages wet id h, readOnly_stages wet id h⟩
  rcases hlook : outcome Hub.session (lookUp o) h with ⟨e | ⟨size, event, src⟩, h₁⟩
  · refine .inl ⟨?_, ?_⟩
    · rw [stages_eq, calls_bind_of_error hlook, quiet_lookUp]
    · rw [outcome_stages_of_error hlook, ← readOnly_lookUp o h, hlook]
  obtain ⟨hl, rfl⟩ := outcome_lookUp_eq_ok.mp hlook
  rw [hl.outcome_stages] at failed ⊢
  rcases hfind : outcome Hub.session (findDestination o src) h₁ with ⟨e | ⟨dst, state⟩, mid⟩
  · refine .inl ⟨?_, ?_⟩
    · rw [stages_eq, calls_bind_of_quiet_left (quiet_lookUp o) hlook]
      dsimp only
      rw [calls_bind_of_error hfind, quiet_findDestination]
    · rw [outcome_bind_of_error hfind]
      exact state_of_findDestination_error hr hl wet hfind
  obtain ⟨hf, hstate⟩ := found_of_findDestination hr.sound wet hfind
  rw [outcome_bind_of_ok hfind] at failed ⊢
  obtain ⟨hstalls, hgoes⟩ := hf.outcome_proceed hr hl wet hstate id
  by_cases stalls : Stalls o.flags mid dst (planOn o mid.tables (event.map EventInfo.id) src dst)
  · obtain ⟨rfl, found⟩ := hf.existing_of_settings stalls.1
    dsimp only at failed ⊢
    rw [hstalls stalls] at failed ⊢
    exact .inr ⟨size, event, src, dst, rfl, hl, hf, found, (Except.error.inj failed).symm, stalls,
      rfl⟩
  · obtain ⟨a, h', hproceed⟩ := hgoes stalls
    dsimp only at failed
    rw [hproceed] at failed
    cases failed

/-- A run that is stranded fails, and has changed the tables. -/
lemma Stranded.outcome_stages (stranded : Stranded o h) (hr : h.Reachable) (id : String) :
    (outcome Hub.session (stages id o) h).1 = .error Hub.nested ∧
      (outcome Hub.session (stages id o) h).2.tables ≠ h.tables := by
  obtain ⟨wet, hl, found, unlocked, apart, stalls, may, planned, accepted⟩ := stranded
  have hf : Found o h _ _ h := .existing found unlocked apart
  have hexisting : DestinationState.existing ≠ .wouldCreate := nofun
  rw [Clone.outcome_stages id hl found unlocked apart,
    (hf.outcome_proceed hr hl wet hexisting id).1 stalls]
  refine ⟨rfl, ?_⟩
  rw [ne_eq, Hub.tables_answers_eq_iff]
  exact (hf.acceptances_ne_nil_iff hr hl).mpr ⟨may, _, planned, accepted⟩

/-- **A run that fails leaves the tables as they were, unless it is stranded**; and where it does
not, no tag has been made, and no settings copied. Once it has made calls it only fails because of
an open transaction, since all that is asked about a tag that exists is answered. -/
theorem unchanged_of_failed_run (hr : h.Reachable) (c : RunContext) (o : CloneOptions) :
    let ran := (run c o).run Hub.session h
    (∀ f, ran.result = .error f →
      (ran.state.tables ≠ h.tables ↔ Stranded o h) ∧ ran.state.tables.tags = h.tables.tags ∧
      (ran.calls ≠ [] → f = inContext c Hub.nested)) ∧
    (Stranded o h → ran.result = .error (inContext c Hub.nested)) ∧
    ∀ id, (h.tables.tag? id).isSome →
      (∀ inherited event, ∃ l, (h.session (.listPackages id inherited event)).answer = .ok l) ∧
      (∀ inherited latestOnly event,
        ∃ l, (h.session (.listBuilds id inherited latestOnly event)).answer = .ok l) ∧
      (∀ event, ∃ l, (h.session (.listGroups id event)).answer = .ok l) ∧
      (∀ operations flags, ∃ results, (h.session (.multicall id operations flags)).answer =
        .ok results ∧ results.length = operations.length) ∧
      ∀ config, (h.session (.editTag id config)).answer = .ok () ↔ h.before = none := by
  intro ran
  obtain ⟨hresult, hstate⟩ : ran.result = _ ∧ ran.state = _ := run_eq c o h
  refine ⟨fun f hf => ?_, fun stranded => ?_, fun id there => Hub.answers_of_isSome_tag? hr there⟩
  · obtain ⟨e, he, rfl⟩ : ∃ e, (outcome Hub.session (stages c.requestId o) h).1 = .error e ∧
        inContext c e = f := by
      rw [hresult] at hf
      rcases hout : (outcome Hub.session (stages c.requestId o) h).1 with e | r
      · rw [hout] at hf
        exact ⟨e, rfl, Except.error.inj hf⟩
      · rw [hout] at hf
        cases hf
    rw [hstate, show ran.calls = _ from calls_run_eq c o h]
    have hchanged := fun stranded : Stranded o h => (stranded.outcome_stages hr c.requestId).2
    rcases stages_error_cases hr he with ⟨hcalls, hsame⟩ |
      ⟨size, event, src, dst, wet, hl, there, found, rfl, stalls, hlast⟩
    · rw [hcalls, hsame]
      rw [hsame] at hchanged
      exact ⟨⟨fun h => absurd rfl h, hchanged⟩, rfl, fun h => absurd rfl h⟩
    · refine ⟨⟨fun h => ?_, hchanged⟩, ?_, fun _ => rfl⟩
      · rw [hlast, ne_eq, Hub.tables_answers_eq_iff] at h
        obtain ⟨may, x, planned, accepted⟩ := (there.acceptances_ne_nil_iff hr hl).mp h
        exact .mk wet hl found (there.unlocked hl) (there.ne hr hl) stalls may planned accepted
      · rw [hlast]
        exact (h.confined_answers dst o.flags _).2
  · rw [hresult, (stranded.outcome_stages hr c.requestId).1]
    rfl

/-- The run copies the package `a` and its build to `d`, and then fails to copy the settings, since
the build of `b` is refused. -/
theorem unchanged_of_failed_run_contested :
    let ran := (run ⟨"r", none⟩ contestedOptions).run Hub.session contestedHub
    ran.result = .error (inContext ⟨"r", none⟩ Hub.nested) ∧
      ran.state.tables ≠ contestedHub.tables ∧
      ran.state.tables.tags = contestedHub.tables.tags := by
  intro ran
  obtain ⟨hfailed, hstranded, -⟩ :=
    unchanged_of_failed_run reachable_contestedHub ⟨"r", none⟩ contestedOptions
  have hl : LookedUp contestedOptions contestedHub ⟨1000⟩ none
      ⟨1, "s", { arches := some "i686" }⟩ :=
    ⟨rfl, by decide +kernel, rfl, by decide +kernel, rfl⟩
  have found : contestedHub.tables.getTag contestedOptions.dst none = some ⟨2, "d", {}⟩ := by
    decide +kernel
  have refused : .tagBuild "b-1-1" ∈ (planOn contestedOptions contestedHub.tables none
      ⟨1, "s", { arches := some "i686" }⟩ ⟨2, "d", {}⟩).operations := by decide +kernel
  have planned : .tagBuild "a-1-1" ∈ (planOn contestedOptions contestedHub.tables none
      ⟨1, "s", { arches := some "i686" }⟩ ⟨2, "d", {}⟩).operations := by decide +kernel
  have stranded : Stranded contestedOptions contestedHub :=
    .mk rfl hl found rfl (by decide) ⟨by decide +kernel, .inr ⟨rfl, _, refused, by decide +kernel⟩⟩
      rfl planned (by decide +kernel)
  have hran := hstranded stranded
  obtain ⟨hchanged, htags, -⟩ := hfailed _ hran
  exact ⟨hran, hchanged.mpr stranded, htags⟩

end Clone

end TagSync
