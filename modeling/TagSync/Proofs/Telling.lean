import TagSync.Proofs.Dialog

/-!
What a script reports, whatever it is told.

A relation between the reports of a script and its result is followed through the script: through
every report, and through all answers to a request. What is found that way holds of every run, and
what a session reports on its own does not count.
-/

namespace TagSync

variable {σ α β : Type}

def TraceEntry.reported? : TraceEntry → Option LogEvent
  | .reported e => some e
  | _ => none

/-- All reports of the script itself, in order. -/
def Outcome.reports (o : Outcome σ α) : List LogEvent := o.trace.filterMap TraceEntry.reported?

namespace Script

/-- **The reports and the result of a script satisfy a relation**, whatever the answers are. -/
def Tells : Script α → (List LogEvent → α → Prop) → Prop
  | .done a, P => P [] a
  | .report e next, P => next.Tells fun es a => P (e :: es) a
  | .ask _ next, P => ∀ answer, (next answer).Tells P

variable {d : Script α} {P Q : List LogEvent → α → Prop}

/-- **What a script tells holds of all of its runs.** -/
theorem Tells.run (h : d.Tells P) (session : Session σ) (s : σ) :
    P (d.run session s).reports (d.run session s).result := by
  induction d generalizing P s with
  | done a => exact h
  | report e next ih => exact ih h s
  | ask r next ih =>
    have hnoted : ((session s r).log.map TraceEntry.noted).filterMap TraceEntry.reported? = [] := by
      simp [List.filterMap_map, TraceEntry.reported?, Function.comp_def]
    have hreports : ((Script.ask r next).run session s).reports =
        ((next (session s r).answer).run session (session s r).state).reports := by
      simp only [Script.run, Outcome.reports, Outcome.after, List.cons_append,
        List.filterMap_append, List.filterMap_cons, hnoted]
      rfl
    rw [hreports]
    exact ih _ (h _) _

lemma Tells.mono (h : d.Tells P) (hPQ : ∀ es a, P es a → Q es a) : d.Tells Q := by
  induction d generalizing P Q with
  | done a => exact hPQ _ _ h
  | report e next ih => exact ih h fun es a => hPQ (e :: es) a
  | ask r next ih => exact fun answer => ih answer (h answer) hPQ

/-- The reports of two scripts come one after the other. -/
lemma tells_bind {f : α → Script β} {P : List LogEvent → β → Prop} :
    (d >>= f).Tells P ↔ d.Tells fun es a => (f a).Tells fun es' b => P (es ++ es') b := by
  induction d generalizing P with
  | done a => exact Iff.rfl
  | report e next ih => exact ih
  | ask r next ih => exact forall_congr' fun answer => ih answer

end Script

namespace Dialog

/-- The reports of a dialog, and its result or failure, satisfy a relation, whatever the answers
are. -/
def Tells (d : Dialog α) (P : List LogEvent → Except Failure α → Prop) : Prop := d.run.Tells P

namespace Tells

variable {d : Dialog α} {P Q : List LogEvent → Except Failure α → Prop}

lemma mono (h : Tells d P) (hPQ : ∀ es r, P es r → Q es r) : Tells d Q := Script.Tells.mono h hPQ

lemma pure {a : α} (h : P [] (.ok a)) : Tells (Pure.pure a) P := h

lemma throw {e : Failure} (h : P [] (.error e)) : Tells (MonadExcept.throw e) P := h

lemma mk_pure {r : Except Failure α} (h : P [] r) : Tells (ExceptT.mk (Pure.pure r)) P := h

lemma report {e : LogEvent} {P : List LogEvent → Except Failure Unit → Prop} (h : P [e] (.ok ())) :
    Tells (Dialog.report e) P := h

lemma ask {q : Request} {P : List LogEvent → Except Failure q.Answer → Prop} (h : ∀ r, P [] r) :
    Tells (Dialog.ask q) P := h

/-- Of two dialogs the second one reports unless the first one fails. -/
lemma bind {f : α → Dialog β} {P : List LogEvent → Except Failure β → Prop}
    (h : Tells d fun es r =>
      match r with
      | .ok a => Tells (f a) fun es' b => P (es ++ es') b
      | .error e => P es (.error e)) :
    Tells (d >>= f) P := by
  refine Script.tells_bind.mpr (Script.Tells.mono h fun es r hr => ?_)
  rcases r with e | a
  · change P (es ++ []) (.error e)
    rwa [List.append_nil]
  · exact hr

/-- What is reported instead comes after the reports of the dialog that has failed. -/
lemma tryCatch {f : Failure → Dialog α}
    (h : Tells d fun es r =>
      match r with
      | .ok a => P es (.ok a)
      | .error e => Tells (f e) fun es' r => P (es ++ es') r) :
    Tells (MonadExcept.tryCatch d f) P := by
  rw [Tells, run_tryCatch]
  refine Script.tells_bind.mpr (Script.Tells.mono h fun es r hr => ?_)
  rcases r with e | a
  · exact hr
  · change P (es ++ []) (.ok a)
    rwa [List.append_nil]

end Tells

end Dialog

end TagSync
