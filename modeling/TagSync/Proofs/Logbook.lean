import TagSync.Clone
import TagSync.Proofs.Telling

/-!
What the log of a run says about it.

Between its start and its end a run logs details, deliveries and rejections. The deliveries and the
rejections are those that its result counts, in the same order: this is kept by every step, and so
by every run, whatever the session answers.
-/

namespace TagSync

/-! ### Events -/

namespace LogEvent

/-- The text of a field, if the event has the field. -/
def field? (e : LogEvent) (name : String) : Option String := e.fields.lookup name

def isWarning (e : LogEvent) : Bool := e.level = .warn

/-- Whether a request was answered, with a result for every call. -/
def isDelivery : LogEvent → Bool
  | .batchDelivered .. => true
  | _ => false

/-- An event that changes no count and does not name the run. -/
structure IsDetail (e : LogEvent) : Prop where
  unnamed : e.field? "op" = none
  warning : e.isWarning = false
  delivery : e.isDelivery = false

end LogEvent

open LogEvent

/-- How the rejection of a call is logged. -/
def FailedOperation.event (x : FailedOperation) : LogEvent := .callRejected x.operation x.fault

/-- The events tell how the counts of a run have become others. -/
structure Tallied (r : ApplyReport) (es : List LogEvent) (r' : ApplyReport) : Prop where
  unnamed : ∀ e ∈ es, e.field? "op" = none
  rejections : ∃ new, r'.failed = r.failed ++ new ∧
    es.filter isWarning = new.map FailedOperation.event
  deliveries : r'.roundTrips = r.roundTrips + es.countP isDelivery

namespace Tallied

variable {r r' r'' : ApplyReport} {es es' : List LogEvent} {e : LogEvent}

/-- What is not counted needs no event. -/
lemma silent (hfailed : r'.failed = r.failed) (htrips : r'.roundTrips = r.roundTrips) :
    Tallied r [] r' :=
  ⟨fun _ h => absurd h List.not_mem_nil, ⟨[], by rw [hfailed, List.append_nil], rfl⟩, htrips⟩

lemma refl (r : ApplyReport) : Tallied r [] r := silent rfl rfl

lemma trans (h : Tallied r es r') (h' : Tallied r' es' r'') : Tallied r (es ++ es') r'' where
  unnamed e he := (List.mem_append.mp he).elim (h.unnamed e) (h'.unnamed e)
  rejections := by
    obtain ⟨new, hnew, hes⟩ := h.rejections
    obtain ⟨new', hnew', hes'⟩ := h'.rejections
    refine ⟨new ++ new', ?_, ?_⟩
    · rw [hnew', hnew, List.append_assoc]
    · rw [List.filter_append, hes, hes', List.map_append]
  deliveries := by
    rw [h'.deliveries, h.deliveries, List.countP_append, Nat.add_assoc]

lemma detail (he : e.IsDetail) (r : ApplyReport) : Tallied r [e] r where
  unnamed e' he' := by rw [List.mem_singleton.mp he', he.unnamed]
  rejections := ⟨[], (List.append_nil _).symm, by simp [he.warning]⟩
  deliveries := by simp [he.delivery]

lemma delivery (r : ApplyReport) (c : EntityClass) (calls : Nat) :
    Tallied r [.batchDelivered c calls] { r with roundTrips := r.roundTrips + 1 } where
  unnamed e' he' := by rw [List.mem_singleton.mp he']; rfl
  rejections := ⟨[], (List.append_nil _).symm, rfl⟩
  deliveries := rfl

lemma rejection (r : ApplyReport) (x : FailedOperation) :
    Tallied r [x.event] { r with failed := r.failed ++ [x] } where
  unnamed e' he' := by rw [List.mem_singleton.mp he']; rfl
  rejections := ⟨[x], rfl, rfl⟩
  deliveries := rfl

end Tallied

/-! ### Dialogs -/

namespace Dialog

variable {α β : Type} {r : ApplyReport} {d : Dialog α} {after : α → ApplyReport}

/-- A dialog that starts with some counts logs what it adds to them. One that fails only leaves the
run unnamed. -/
def Logs (r : ApplyReport) (d : Dialog α) (after : α → ApplyReport) : Prop :=
  Tells d fun es result =>
    match result with
    | .ok a => Tallied r es (after a)
    | .error _ => ∀ e ∈ es, e.field? "op" = none

namespace Logs

lemma pure {a : α} (h : Tallied r [] (after a)) : Logs r (Pure.pure a) after := Tells.pure h

lemma throw (f : Failure) : Logs r (MonadExcept.throw f) after :=
  Tells.throw fun _ he => absurd he List.not_mem_nil

lemma refuse (e : SyncError) : Logs r (Dialog.refuse e) after := throw _

lemma ask (q : Request) : Logs r (Dialog.ask q) fun _ => r :=
  Tells.ask fun answer => by
    rcases answer with f | a
    · exact fun _ he => absurd he List.not_mem_nil
    · exact .refl r

lemma mk_pure (x : Except Failure α) : Logs r (ExceptT.mk (Pure.pure x)) fun _ => r :=
  Tells.mk_pure (by
    rcases x with f | a
    · exact fun _ he => absurd he List.not_mem_nil
    · exact .refl r)

lemma report {e : LogEvent} {r' : ApplyReport} (h : Tallied r [e] r') :
    Logs r (Dialog.report e) fun _ => r' := Tells.report h

lemma bind {f : α → Dialog β} {m : α → ApplyReport} {after : β → ApplyReport}
    (hd : Logs r d m) (hf : ∀ a, Logs (m a) (f a) after) : Logs r (d >>= f) after := by
  refine Tells.bind (Tells.mono hd fun es result hes => ?_)
  rcases result with e | a
  · exact hes
  · refine Tells.mono (hf a) fun es' result hes' => ?_
    rcases result with e | b
    · -- the counts are lost, but all events are known to leave the run unnamed
      exact fun e he => (List.mem_append.mp he).elim (hes.unnamed e) (hes' e)
    · exact hes.trans hes'

/-- A change that needs no event may come before the dialog. -/
lemma resume {r' : ApplyReport} (hr : Tallied r [] r') (hd : Logs r' d after) : Logs r d after := by
  refine Tells.mono hd fun es result hes => ?_
  rcases result with f | a
  · exact hes
  · exact hr.trans hes

lemma ite {c : Prop} [Decidable c] {d' : Dialog α} (hd : Logs r d after)
    (hd' : Logs r d' after) : Logs r (if c then d else d') after := by
  split
  · exact hd
  · exact hd'

/-- A choice before the rest of a dialog is a choice between two dialogs. -/
lemma join {c : Prop} [Decidable c] {d' : Dialog α} {f : α → Dialog β} {m : α → ApplyReport}
    {after : β → ApplyReport} (hd : Logs r d m) (hd' : Logs r d' m)
    (hf : ∀ a, Logs (m a) (f a) after) : Logs r (if c then d >>= f else d' >>= f) after :=
  ite (hd.bind hf) (hd'.bind hf)

lemma map {f : α → β} {after : β → ApplyReport} (hd : Logs r d fun a => after (f a)) :
    Logs r (f <$> d) after := by
  rw [← bind_pure_comp]
  exact hd.bind fun a => pure (.refl _)

/-- A failure may be logged and passed on. -/
lemma passOn {event : Failure → LogEvent} {change : Failure → Failure} (hd : Logs r d after)
    (hevent : ∀ f, (event f).field? "op" = none) :
    Logs r (MonadExcept.tryCatch d fun f => do
      Dialog.report (event f)
      MonadExcept.throw (change f)) after := by
  refine Tells.tryCatch (Tells.mono hd fun es result hes => ?_)
  rcases result with f | a
  · refine Tells.bind (Tells.report (Tells.throw fun e he => ?_))
    simp only [List.append_nil, List.mem_append, List.mem_singleton] at he
    rcases he with he | rfl
    · exact hes e he
    · exact hevent f
  · exact hes

end Logs

end Dialog

open Dialog

/-! ### The requests of a plan -/

variable {r : ApplyReport}

lemma logs_record (r : ApplyReport) (l : List (Operation × CallResult)) :
    Logs r (record r l) id := by
  induction l generalizing r with
  | nil => exact .pure (.refl r)
  | cons p rest ih =>
    obtain ⟨o, fault | u⟩ := p
    · exact .bind (.report (.rejection r ⟨o, fault⟩)) fun _ => ih _
    · have haccepted : Tallied r [] { r with applied := r.applied + 1 } := .silent rfl rfl
      exact .resume haccepted (ih _)

lemma logs_call (dest : TagId) (flags : CallFlags) (o : Operation) :
    Logs r (call dest flags o) fun _ => r := by
  refine .bind (.ask _) fun results => ?_
  split
  · exact .pure (.refl r)
  · exact .throw _

lemma logs_deliver (dest : TagId) (flags : CallFlags) (b : Batch) :
    Logs r (deliver dest flags b) fun _ => r := by
  have hsingly : ∀ operations : List Operation,
      Logs r (operations.mapM (call dest flags)) fun _ => r := by
    intro operations
    induction operations with
    | nil => exact .pure (.refl r)
    | cons o rest ih =>
      rw [List.mapM_cons]
      exact .bind (logs_call dest flags o) fun _ => .bind ih fun _ => .pure (.refl r)
  unfold deliver
  rcases b.dispatch with _ | _
  · exact .bind (.ask _) fun _ => .ite (.pure (.refl r)) (.refuse _)
  · exact .bind (hsingly _) fun _ => .ite (.pure (.refl r)) (.refuse _)

/-- **Every request that is answered is logged**, and so is every call that is rejected. -/
theorem logs_applyBatches (dest : TagId) (flags : CallFlags) (batches : List Batch)
    (r : ApplyReport) : Logs r (applyBatches dest flags batches r) id := by
  induction batches generalizing r with
  | nil => exact .pure (.refl r)
  | cons b rest ih =>
    refine .bind (.passOn (logs_deliver dest flags b) fun _ => rfl) fun results => ?_
    exact .bind (.report (.delivery r _ _)) fun _ => .bind (logs_record _ _) fun r => ih r

lemma logs_apply (p : Plan) (dest : TagId) (size : BatchSize) (flags : CallFlags) :
    Logs {} (p.apply dest size flags) id := by
  refine .bind (logs_applyBatches dest flags _ _) fun r => ?_
  split
  · exact .bind (.ask _) fun _ => .pure (.silent rfl rfl)
  · exact .pure (.refl r)

/-! ### The stages of a run -/

namespace Clone

variable {o : CloneOptions}

lemma logs_checkPermission : Logs r checkPermission fun _ => r :=
  .bind (.ask _) fun _ => .join (.pure (.refl r)) (.ask _) fun _ =>
    .ite (.pure (.refl r)) (.refuse _)

lemma logs_checkLock (tag : TagInfo) (flags : CallFlags) :
    Logs r (checkLock tag flags) fun _ => r := .ite (.refuse _) (.pure (.refl r))

lemma logs_pinEvent (o : CloneOptions) : Logs r (pinEvent o) fun _ => r := by
  unfold pinEvent
  rcases o.asOf with _ | asOf
  · exact .pure (.refl r)
  · exact .bind (.ask _) fun e =>
      .bind (.report (.detail ⟨rfl, rfl, rfl⟩ r)) fun _ => .pure (.refl r)

lemma logs_resolveTag (tag : TagRef) (event : Option EventId) :
    Logs r (resolveTag tag event) fun _ => r := by
  refine .bind (.ask _) fun found => ?_
  rcases found with _ | t
  · exact .refuse _
  · exact .pure (.refl r)

lemma logs_createDestination (o : CloneOptions) (src : TagInfo) :
    Logs r (createDestination o src) fun _ => r := by
  unfold createDestination
  rcases o.dst with id | name
  · exact .refuse _
  · refine .ite (.refuse _) (.ite (.pure (.refl r)) (.bind (.ask _) fun tag => ?_))
    exact .bind (.report (.detail ⟨rfl, rfl, rfl⟩ r)) fun _ =>
      .bind (logs_resolveTag _ _) fun _ => .pure (.refl r)

lemma logs_findDestination (o : CloneOptions) (src : TagInfo) :
    Logs r (findDestination o src) fun _ => r := by
  refine .bind (.ask _) fun found => ?_
  rcases found with _ | dst
  · exact .bind (logs_createDestination o src) fun _ => .ite (.refuse _) (.pure (.refl r))
  · exact .bind (logs_checkLock _ _) fun _ => .bind (.pure (.refl r)) fun _ =>
      .ite (.refuse _) (.pure (.refl r))

lemma logs_fetch (tag : TagInfo) (event : Option EventId) (scope : FetchScope) :
    Logs r (Snapshot.fetch tag event scope) fun _ => r :=
  .join (.ask _) (.pure (.refl r)) fun _ => .join (.ask _) (.pure (.refl r)) fun _ =>
    .join (.ask _) (.pure (.refl r)) fun _ =>
      .bind (.report (.detail ⟨rfl, rfl, rfl⟩ r)) fun _ => .pure (.refl r)

lemma logs_reconcile (o : CloneOptions) (event : Option EventId) (src dst : TagInfo)
    (state : DestinationState) : Logs r (reconcile o event src dst state) fun _ => r :=
  .bind (logs_fetch _ _ _) fun _ => .join (.pure (.refl r)) (logs_fetch _ _ _) fun _ =>
    .bind (.report (.detail ⟨rfl, rfl, rfl⟩ r)) fun _ => .pure (.refl r)

end Clone

/-- What the sending of a plan has come to; nothing after a dry run. -/
def CloneResult.sent (r : CloneResult) : ApplyReport := r.applied.getD {}

lemma CloneResult.faultCount_eq (r : CloneResult) : r.faultCount = r.sent.failed.length := by
  unfold faultCount sent
  rcases r.applied with _ | a <;> rfl

namespace Clone

variable {σ : Type} {c : RunContext} {o : CloneOptions}

/-- **The stages of a run log what its result counts.** -/
theorem logs_stages (requestId : String) (o : CloneOptions) :
    Logs {} (stages requestId o) CloneResult.sent := by
  refine .bind (.mk_pure _) fun size => .bind logs_checkPermission fun _ => ?_
  refine .bind (logs_pinEvent o) fun event => .bind (logs_resolveTag _ _) fun src => ?_
  refine .bind (logs_checkLock _ _) fun _ => .bind (logs_findDestination o src) fun found => ?_
  refine .bind (logs_reconcile _ _ _ _ _) fun plan => ?_
  refine .join (m := fun applied => applied.getD {}) (.pure (.refl _)) ?_ fun applied =>
    .pure (.refl _)
  exact .map (logs_apply plan _ size o.flags)

/-! ### Whole runs -/

/-- The first event of a run. -/
def opening (c : RunContext) (o : CloneOptions) : LogEvent :=
  .runStarted c.requestId o.src o.dst o.dryRun

/-- The last event of a run. -/
def closing (c : RunContext) : Except Failure CloneResult → LogEvent
  | .ok r => .runEnded c.requestId r.plan.operationCount r.faultCount
  | .error f => .runFailed c.requestId f

/-- The events of a run say what it did. -/
structure Told (c : RunContext) (o : CloneOptions) (es : List LogEvent)
    (result : Except Failure CloneResult) : Prop where
  /-- Nothing comes before the start of a run, and nothing after its end. -/
  ends : ∃ between, es = opening c o :: (between ++ [closing c result])
  /-- The ends of a run, and nothing else, name it. -/
  named : es.filter (·.field? "op" = some "clone_tag") = [opening c o, closing c result]
  requestId : ∀ e ∈ [opening c o, closing c result], e.field? "request_id" = some c.requestId
  started : (opening c o).field? "event" = some "start"
  ended : (closing c result).field? "event" = some "end" ↔ ∃ r, result = .ok r
  failed : (closing c result).field? "event" = some "end_error" ↔ ∃ f, result = .error f
  counts : ∀ r, result = .ok r →
    (closing c result).field? "op_count" = some (toString r.plan.operationCount) ∧
      (closing c result).field? "fault_count" = some (toString r.sent.failed.length)
  failure : ∀ f, result = .error f →
    (closing c result).field? "err.kind" = some f.kind.name ∧
      (closing c result).field? "err.code" = some f.code ∧
      f.requestId = some c.requestId ∧ ∀ id, c.traceId = some id → f.traceId = some id
  /-- Every failed call has its warning, in the order of the result. -/
  warnings : ∀ r, result = .ok r →
    es.filter isWarning = r.sent.failed.map fun x => .callRejected x.operation x.fault
  deliveries : ∀ r, result = .ok r → es.countP isDelivery = r.sent.roundTrips

lemma event_closing (c : RunContext) (result : Except Failure CloneResult) :
    (closing c result).field? "event" = some (if result.isOk then "end" else "end_error") := by
  rcases result with f | r <;> rfl

lemma told {es : List LogEvent} {result : Except Failure CloneResult}
    (hunnamed : ∀ e ∈ es, e.field? "op" = none)
    (htallied : ∀ r, result = .ok r → Tallied {} es r.sent)
    (hcontext : ∀ f, result = .error f → f.requestId = some c.requestId ∧
      ∀ id, c.traceId = some id → f.traceId = some id) :
    Told c o (opening c o :: (es ++ [closing c result])) result where
  ends := ⟨es, rfl⟩
  named := by
    have hbetween : es.filter (·.field? "op" = some "clone_tag") = [] :=
      List.filter_eq_nil_iff.mpr fun e he => by simp [hunnamed e he]
    have hclosing : (closing c result).field? "op" = some "clone_tag" := by
      rcases result with f | r <;> rfl
    have hopening : (opening c o).field? "op" = some "clone_tag" := rfl
    simp [hopening, hclosing, hbetween]
  requestId := by
    rw [List.forall_mem_cons, List.forall_mem_singleton]
    rcases result with f | r <;> exact ⟨rfl, rfl⟩
  started := rfl
  ended := by
    rw [event_closing]
    rcases result with f | r <;> simp [Except.isOk, Except.toBool]
  failed := by
    rw [event_closing]
    rcases result with f | r <;> simp [Except.isOk, Except.toBool]
  counts := by
    rintro r rfl
    rw [← r.faultCount_eq]
    exact ⟨rfl, rfl⟩
  failure := by
    rintro f rfl
    exact ⟨rfl, rfl, hcontext f rfl⟩
  warnings := by
    rintro r rfl
    obtain ⟨new, hnew, hes⟩ := (htallied r rfl).rejections
    rw [List.nil_append] at hnew
    rw [List.filter_cons_of_neg Bool.false_ne_true, List.filter_append, hes, hnew]
    exact List.append_nil _
  deliveries := by
    rintro r rfl
    have hdeliveries := (htallied r rfl).deliveries
    rw [List.countP_cons_of_neg Bool.false_ne_true, List.countP_append, hdeliveries]
    exact (Nat.zero_add _).symm

/-- **The log tells what the run did**, whatever the session answers. -/
theorem run_told (session : Session σ) (c : RunContext) (o : CloneOptions) (s : σ) :
    Told c o ((run c o).run session s).reports ((run c o).run session s).result := by
  -- the start comes before the stages, whose result decides which end comes after them
  have htells : (run c o).Tells (Told c o) := by
    refine Script.tells_bind.mpr ?_
    refine Script.tells_bind.mpr (Script.Tells.mono (logs_stages c.requestId o) ?_)
    intro es result hes
    rcases result with f | r
    · have hcontext : (inContext c f).requestId = some c.requestId ∧
          ∀ id, c.traceId = some id → (inContext c f).traceId = some id :=
        ⟨rfl, fun id hid => by simp [inContext, hid]⟩
      change Told c o (opening c o :: (es ++ [closing c (.error (inContext c f))]))
        (.error (inContext c f))
      exact told hes (fun r h => by cases h) fun f' h => by cases h; exact hcontext
    · change Told c o (opening c o :: (es ++ [closing c (.ok r)])) (.ok r)
      exact told hes.unnamed (fun r' h => by cases h; exact hes) fun f h => by cases h
  exact htells.run session s

end Clone

end TagSync
