import TagSync.Proofs.Courses

/-!
The calls of a dialog, with their results.

They are read off the trace: whatever else a dialog asks for, and however it groups its calls,
only the answers to its calls count. The calls of a run are those of its plan.
-/

namespace TagSync

variable {σ α β : Type}

/-- The calls of a request that was answered, with their results. -/
def TraceEntry.calls : TraceEntry → List (Operation × CallResult)
  | .exchanged (.multicall _ operations _) (.ok results) => operations.zip results
  | _ => []

/-- All calls that were answered, with their results. -/
def Outcome.calls (o : Outcome σ α) : List (Operation × CallResult) :=
  o.trace.flatMap TraceEntry.calls

lemma Outcome.calls_after (earlier : List TraceEntry) (o : Outcome σ α) :
    (o.after earlier).calls = earlier.flatMap TraceEntry.calls ++ o.calls :=
  List.flatMap_append

lemma Script.calls_bind (session : Session σ) (d : Script α) (f : α → Script β) (s : σ) :
    ((d >>= f).run session s).calls = (d.run session s).calls ++
      ((f (d.run session s).result).run session (d.run session s).state).calls := by
  induction d generalizing s with
  | done a => rfl
  | report e next ih =>
    have hrun : ((Script.report e next >>= f).run session s) =
        ((next >>= f).run session s).after [.reported e] := rfl
    simp only [hrun, Script.run, Outcome.calls_after, ih, List.append_assoc]
    rfl
  | ask r next ih =>
    have hrun : ((Script.ask r next >>= f).run session s) =
        ((next (session s r).answer >>= f).run session (session s r).state).after
          (.exchanged r (session s r).answer :: (session s r).log.map .noted) := rfl
    simp only [hrun, Script.run, Outcome.calls_after, ih, List.append_assoc]
    rfl

namespace Dialog

/-- The calls of a dialog with a session. -/
def calls (session : Session σ) (d : Dialog α) (s : σ) : List (Operation × CallResult) :=
  (Script.run session d.run s).calls

variable {session : Session σ} {s s' : σ} {d : Dialog α}

lemma calls_bind_of_ok {f : α → Dialog β} {a : α} (h : outcome session d s = (.ok a, s')) :
    calls session (d >>= f) s = calls session d s ++ calls session (f a) s' := by
  have hbind := Script.calls_bind session d.run (ExceptT.bindCont f) s
  simp only [outcome, Prod.mk.injEq] at h
  obtain ⟨hresult, rfl⟩ := h
  rw [hresult] at hbind
  exact hbind

lemma calls_bind_of_error {f : α → Dialog β} {e : Failure}
    (h : outcome session d s = (.error e, s')) :
    calls session (d >>= f) s = calls session d s := by
  have hbind := Script.calls_bind session d.run (ExceptT.bindCont f) s
  simp only [outcome, Prod.mk.injEq] at h
  obtain ⟨hresult, rfl⟩ := h
  rw [hresult] at hbind
  exact hbind.trans (List.append_nil _)

/-- Where a dialog ends well, what would be done otherwise makes no calls. -/
lemma calls_tryCatch_of_ok {f : Failure → Dialog α} {a : α}
    (h : outcome session d s = (.ok a, s')) :
    calls session (tryCatch d f) s = calls session d s := by
  simp only [outcome, Prod.mk.injEq] at h
  rw [calls, run_tryCatch, Script.calls_bind, h.1]
  exact List.append_nil _

lemma calls_ask (r : Request) :
    calls session (ask r) s = (TraceEntry.exchanged r (session s r).answer).calls := by
  have hnoted : ((session s r).log.map TraceEntry.noted).flatMap TraceEntry.calls = [] := by
    simp [TraceEntry.calls]
  have hrun : (Script.run session (ask r).run s).trace =
      .exchanged r (session s r).answer :: (session s r).log.map .noted ++ [] := rfl
  rw [calls, Outcome.calls, hrun, List.append_nil, List.flatMap_cons, hnoted, List.append_nil]

/-! ### Dialogs without calls -/

/-- A dialog that makes no calls. -/
def Quiet (session : Session σ) (d : Dialog α) : Prop := ∀ s, calls session d s = []

namespace Quiet

lemma pure (a : α) : Quiet session (Pure.pure a) := fun _ => rfl

lemma refuse (e : SyncError) : Quiet session (Dialog.refuse e : Dialog α) := fun _ => rfl

lemma report (e : LogEvent) : Quiet session (Dialog.report e) := fun _ => rfl

lemma bind {f : α → Dialog β} (hd : Quiet session d) (hf : ∀ a, Quiet session (f a)) :
    Quiet session (d >>= f) := by
  intro s
  rcases hout : outcome session d s with ⟨e | a, s'⟩
  · rw [calls_bind_of_error hout, hd s]
  · rw [calls_bind_of_ok hout, hd s, hf a s', List.nil_append]

lemma ite {c : Prop} [Decidable c] {d d' : Dialog α} (hd : Quiet session d)
    (hd' : Quiet session d') : Quiet session (if c then d else d') := by
  split
  · exact hd
  · exact hd'

lemma ask {r : Request} (h : ∀ answer, (TraceEntry.exchanged r answer).calls = []) :
    Quiet session (Dialog.ask r) := fun s => by rw [calls_ask, h]

end Quiet

lemma calls_bind_of_quiet {f : α → Dialog β} (hf : ∀ a, Quiet session (f a)) :
    calls session (d >>= f) s = calls session d s := by
  rcases hout : outcome session d s with ⟨e | a, s'⟩
  · exact calls_bind_of_error hout
  · rw [calls_bind_of_ok hout, hf a s', List.append_nil]

lemma calls_map (f : α → β) : calls session (f <$> d) s = calls session d s := by
  rw [← bind_pure_comp]
  exact calls_bind_of_quiet fun _ => .pure _

lemma calls_bind_of_quiet_left {f : α → Dialog β} {a : α} (hd : Quiet session d)
    (h : outcome session d s = (.ok a, s')) :
    calls session (d >>= f) s = calls session (f a) s' := by
  rw [calls_bind_of_ok h, hd s, List.nil_append]

end Dialog

open Dialog

/-! ### The requests of a plan -/

lemma quiet_record {session : Session σ} (r : ApplyReport) (l : List (Operation × CallResult)) :
    Quiet session (record r l) := by
  induction l generalizing r with
  | nil => exact .pure _
  | cons p rest ih =>
    obtain ⟨o, fault | u⟩ := p
    · exact .bind (.report _) fun _ => ih _
    · exact ih _

section

variable {h : Hub} {tag : TagInfo} {flags : CallFlags} {dest : TagId}
  (found : h.tables.getTag (.byId dest) none = some tag)

include found

lemma calls_multicall (operations : List Operation) :
    calls Hub.session (ask (.multicall dest operations flags)) h =
      operations.zip (h.answers tag flags operations).1 := by
  rw [calls_ask]
  have hanswer := (Hub.multicall_eq found operations flags).1
  have hsession : (Hub.session h (.multicall dest operations flags)).answer = _ := hanswer
  rw [hsession]
  rfl

lemma calls_call (o : Operation) :
    calls Hub.session (call dest flags o) h = [o].zip (h.answers tag flags [o]).1 := by
  obtain ⟨result, hresult, -⟩ := outcome_call found o
  rw [call, calls_bind_of_ok (outcome_multicall found [o]), calls_multicall found, hresult]
  rfl

lemma calls_singly (operations : List Operation) :
    calls Hub.session (operations.mapM (call dest flags)) h =
      operations.zip (h.answers tag flags operations).1 := by
  induction operations generalizing h with
  | nil => rfl
  | cons o rest ih =>
    obtain ⟨result, hresult, houtcome⟩ := outcome_call found o
    have found' : (h.answers tag flags [o]).2.tables.getTag (.byId dest) none = some tag := by
      rw [Hub.getTag_answers]
      exact found
    have happend := h.answers_append tag flags [o] rest
    rw [List.singleton_append, hresult] at happend
    rw [List.mapM_cons, calls_bind_of_ok houtcome, calls_bind_of_quiet fun _ => .pure _,
      calls_call found, ih found', hresult, happend]
    rfl

/-- **However a request travels**, its calls and their results are the same. -/
theorem calls_deliver (b : Batch) :
    calls Hub.session (deliver dest flags b) h =
      b.operations.zip (h.answers tag flags b.operations).1 := by
  unfold deliver
  rcases b.dispatch with _ | _
  · exact (calls_bind_of_quiet fun _ => .ite (.pure _) (.refuse _)).trans (calls_multicall found _)
  · exact (calls_bind_of_quiet fun _ => .ite (.pure _) (.refuse _)).trans (calls_singly found _)

lemma calls_applyBatches (batches : List Batch) (r : ApplyReport) :
    let operations := batches.flatMap Batch.operations
    calls Hub.session (applyBatches dest flags batches r) h =
      operations.zip (h.answers tag flags operations).1 := by
  induction batches generalizing h r with
  | nil => rfl
  | cons b rest ih =>
    have found' : (h.answers tag flags b.operations).2.tables.getTag (.byId dest) none =
        some tag := by
      rw [Hub.getTag_answers]
      exact found
    have hdeliver : outcome Hub.session (deliver dest flags b) h = _ := outcome_deliver found b
    have hcatch : outcome Hub.session (tryCatch (deliver dest flags b) fun f => do
        Dialog.report (.batchUndelivered b.entityClass b.operations.length r.roundTrips r.applied
          r.failed.length)
        throw (undelivered r f)) h = _ := (outcome_tryCatch ..).trans (by rw [hdeliver])
    simp only [applyBatches]
    rw [calls_bind_of_ok hcatch, calls_tryCatch_of_ok hdeliver, calls_deliver found,
      calls_bind_of_ok (outcome_report _), calls_bind_of_ok (outcome_record _ _),
      Quiet.report, quiet_record, ih found', List.flatMap_cons, Hub.answers_append,
      List.zip_append (h.length_answers ..).symm]
    rfl

/-- **The calls of a plan** reach the hub one after the other. -/
theorem calls_apply (p : Plan) (size : BatchSize) :
    calls Hub.session (p.apply dest size flags) h =
      p.operations.zip (h.answers tag flags p.operations).1 := by
  rw [Plan.apply, calls_bind_of_quiet fun r => ?_, calls_applyBatches found, p.flatMap_batches]
  split
  · exact .bind (.ask fun _ => rfl) fun _ => .pure _
  · exact .pure _

end

/-! ### Whole runs -/

namespace Clone

variable {h mid : Hub} {o : CloneOptions} {id : String} {src dst : TagInfo} {size : BatchSize}
  {event : Option EventInfo} {state : DestinationState}

lemma quiet_resolveTag (tag : TagRef) (event : Option EventId) :
    Quiet Hub.session (resolveTag tag event) := by
  refine .bind (.ask fun _ => rfl) fun tag => ?_
  rcases tag with _ | t
  · exact .refuse _
  · exact .pure _

lemma quiet_checkLock (tag : TagInfo) (flags : CallFlags) :
    Quiet Hub.session (checkLock tag flags) := .ite (.refuse _) (.pure _)

lemma quiet_pinEvent (o : CloneOptions) : Quiet Hub.session (pinEvent o) := by
  unfold pinEvent
  rcases o.asOf with _ | asOf
  · exact .pure _
  · exact .bind (.ask fun _ => rfl) fun e => .bind (.report _) fun _ => .pure _

lemma quiet_checkPermission : Quiet Hub.session checkPermission :=
  .bind (.ask fun _ => rfl) fun _ => .ite
    (.bind (.pure _) fun _ => .ite (.pure _) (.refuse _))
    (.bind (.ask fun _ => rfl) fun _ => .ite (.pure _) (.refuse _))

lemma quiet_lookUp (o : CloneOptions) : Quiet Hub.session (lookUp o) :=
  .bind (fun _ => rfl) fun _ => .bind quiet_checkPermission fun _ =>
    .bind (quiet_pinEvent o) fun _ => .bind (quiet_resolveTag _ _) fun _ =>
      .bind (quiet_checkLock _ _) fun _ => .pure _

lemma quiet_createDestination (o : CloneOptions) (src : TagInfo) :
    Quiet Hub.session (createDestination o src) := by
  unfold createDestination
  rcases o.dst with id | name
  · exact .refuse _
  · exact .ite (.refuse _) (.ite (.pure _) (.bind (.ask fun _ => rfl) fun _ =>
      .bind (.report _) fun _ => .bind (quiet_resolveTag _ _) fun _ => .pure _))

lemma quiet_findDestination (o : CloneOptions) (src : TagInfo) :
    Quiet Hub.session (findDestination o src) := by
  refine .bind (.ask fun _ => rfl) fun found => ?_
  rcases found with _ | dst
  · exact .bind (quiet_createDestination o src) fun _ => .ite (.refuse _) (.pure _)
  · exact .bind (quiet_checkLock _ _) fun _ => .bind (.pure _) fun _ => .ite (.refuse _) (.pure _)

lemma quiet_fetch (tag : TagInfo) (event : Option EventId) (scope : FetchScope) :
    Quiet Hub.session (Snapshot.fetch tag event scope) := by
  refine .ite (.bind (.ask fun _ => rfl) fun packages => ?_)
      (.bind (.pure _) fun packages => ?_) <;>
    refine .ite (.bind (.ask fun _ => rfl) fun builds => ?_) (.bind (.pure _) fun builds => ?_) <;>
    refine .ite (.bind (.ask fun _ => rfl) fun groups => ?_) (.bind (.pure _) fun groups => ?_) <;>
    exact .bind (.report _) fun _ => .pure _

lemma quiet_reconcile (o : CloneOptions) (event : Option EventId) (src dst : TagInfo)
    (state : DestinationState) : Quiet Hub.session (reconcile o event src dst state) := by
  refine .bind (quiet_fetch _ _ _) fun s => ?_
  refine .ite (.bind (.pure _) fun d => ?_) (.bind (quiet_fetch _ _ _) fun d => ?_) <;>
    exact .bind (.report _) fun _ => .pure _

/-- **The calls of a run** that may write, from its stages on. -/
lemma calls_proceed (ht : h.tables.Sound) (hsrc : (h.tables.tag? src.id).isSome)
    (found : h.tables.getTag (.byId dst.id) none = some dst) (hstate : state ≠ .wouldCreate)
    (wet : o.dryRun = false) :
    let plan := planOn o h.tables (event.map EventInfo.id) src dst
    calls Hub.session (proceed id o size event src dst state) h =
      plan.operations.zip (h.answers dst o.flags plan.operations).1 := by
  intro plan
  have hdst := ht.isSome_tag?_of_getTag found
  unfold proceed
  rw [calls_bind_of_quiet_left (quiet_reconcile _ _ _ _ _)
    (outcome_reconcile ht hsrc hdst hstate _)]
  dsimp only
  rw [if_neg (by rw [wet]; decide), calls_bind_of_quiet fun _ => .pure _, calls_map,
    calls_apply found]

/-- A run makes a destination that is missing, when nothing is in the way. -/
lemma outcome_findDestination_of_missing (hr : h.Reachable) (hl : LookedUp o h size event src)
    (wet : o.dryRun = false) {name : String} (byName : o.dst = .byName name)
    (missing : h.tables.tagNamed? name = none) (closed : h.before = none)
    (selected : o.selection.config = true) :
    outcome Hub.session (findDestination o src) h =
      (.ok (⟨h.tables.tags.length + 1, name, src.config⟩, .created),
        { h with tables := h.tables.withTag h.clock name src.config }) := by
  have hf : Found o h src _ _ := .created byName missing closed selected
  have hask : outcome Hub.session (ask (.getTag o.dst none)) h = (.ok none, h) := by
    rw [outcome_getTag, byName, Tables.getTag_none, Tables.row?, missing]
    rfl
  have hcreate : outcome Hub.session (createDestination o src) h =
      (.ok (⟨h.tables.tags.length + 1, name, src.config⟩, .created),
        { h with tables := h.tables.withTag h.clock name src.config }) := by
    unfold createDestination
    rw [byName]
    dsimp only
    rw [if_neg (by simp [selected]), if_neg (by simp [wet])]
    refine (outcome_bind_of_ok (outcome_createTag missing closed src.config)).trans ?_
    refine (outcome_bind_of_ok (outcome_report _)).trans ?_
    refine (outcome_bind_of_ok ((outcome_resolveTag _ _ _).trans ?_)).trans rfl
    rw [hr.sound.getTag_withTag]
  refine (outcome_bind_of_ok hask).trans ?_
  refine (outcome_bind_of_ok hcreate).trans ?_
  simp [hf.ne hr hl]

/-- A run finds its destination, or makes it, when nothing is in the way. -/
lemma Found.outcome_findDestination (hf : Found o h src dst mid) (hr : h.Reachable)
    (hl : LookedUp o h size event src) (wet : o.dryRun = false) :
    ∃ state, state ≠ .wouldCreate ∧
      outcome Hub.session (findDestination o src) h = (.ok (dst, state), mid) := by
  cases hf with
  | existing found unlocked apart =>
    refine ⟨.existing, nofun, ?_⟩
    rw [Clone.outcome_findDestination found, unlocked, if_neg apart]
    rfl
  | created byName missing closed selected =>
    exact ⟨.created, nofun,
      outcome_findDestination_of_missing hr hl wet byName missing closed selected⟩

lemma calls_run_eq (c : RunContext) (o : CloneOptions) (h : Hub) :
    ((run c o).run Hub.session h).calls = calls Hub.session (stages c.requestId o) h := by
  have hending : ∀ r s, ((ending c r).run Hub.session s).calls = [] := by
    rintro (f | r) s <;> rfl
  have hrun : ((run c o).run Hub.session h).calls =
      (((stages c.requestId o).run >>= ending c).run Hub.session h).calls := rfl
  rw [hrun, Script.calls_bind, hending, List.append_nil]
  rfl

/-- **The calls of a run** are those of its plan, answered one after the other. -/
theorem calls_run (hr : h.Reachable) (wet : o.dryRun = false) (hl : LookedUp o h size event src)
    (hf : Found o h src dst mid) (c : RunContext) :
    let plan := planOn o mid.tables (event.map EventInfo.id) src dst
    ((run c o).run Hub.session h).calls =
      plan.operations.zip (mid.answers dst o.flags plan.operations).1 := by
  obtain ⟨state, hstate, houtcome⟩ := hf.outcome_findDestination hr hl wet
  have hsrc := hf.isSome_tag? (hr.sound.isSome_tag?_of_getTag hl.source)
  have hlook : outcome Hub.session (lookUp o) h = (.ok (size, event, src), h) :=
    outcome_lookUp_eq_ok.mpr ⟨hl, rfl⟩
  rw [calls_run_eq, stages_eq, calls_bind_of_quiet_left (quiet_lookUp o) hlook]
  dsimp only
  rw [calls_bind_of_quiet_left (quiet_findDestination o src) houtcome]
  exact calls_proceed (hf.reachable hr).sound hsrc (hf.getTag_destination hr) hstate wet

/-- Only a run that has passed its checks and has a destination makes calls. -/
theorem found_of_calls (hr : h.Reachable) (wet : o.dryRun = false) {c : RunContext}
    (hcalls : ((run c o).run Hub.session h).calls ≠ []) :
    ∃ size event src dst mid, LookedUp o h size event src ∧ Found o h src dst mid := by
  rw [calls_run_eq, stages_eq] at hcalls
  rcases hlook : outcome Hub.session (lookUp o) h with ⟨e | ⟨size, event, src⟩, h'⟩
  · rw [calls_bind_of_error hlook, quiet_lookUp] at hcalls
    exact absurd rfl hcalls
  obtain ⟨hl, rfl⟩ := outcome_lookUp_eq_ok.mp hlook
  rw [calls_bind_of_quiet_left (quiet_lookUp o) hlook] at hcalls
  dsimp only at hcalls
  rcases hfind : outcome Hub.session (findDestination o src) h' with ⟨e | ⟨dst, state⟩, mid⟩
  · rw [calls_bind_of_error hfind, quiet_findDestination] at hcalls
    exact absurd rfl hcalls
  exact ⟨size, event, src, dst, mid, hl, (found_of_findDestination hr.sound wet hfind).1⟩

end Clone

end TagSync
