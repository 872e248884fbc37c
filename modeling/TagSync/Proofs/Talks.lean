import TagSync.Proofs.Dialog

/-!
What a script asks, and what it is told.

A talk lists the requests of a script with their answers. The answers are arbitrary: no session is
mentioned. Every run of a script with a session is a talk (`Script.talks_run`), so what holds of all
talks holds whatever the session does.
-/

namespace TagSync

variable {σ α β : Type}

/-- A request with the answer to it. -/
structure Exchange where
  request : Request
  answer : Except Failure request.Answer

def TraceEntry.exchange? : TraceEntry → Option Exchange
  | .exchanged r answer => some ⟨r, answer⟩
  | _ => none

/-- All requests with their answers, in order. -/
def Outcome.exchanges (o : Outcome σ α) : List Exchange := o.trace.filterMap TraceEntry.exchange?

namespace Script

/-- **The script can come to a result through these exchanges.** -/
inductive Talks : Script α → List Exchange → α → Prop where
  | done (a : α) : Talks (.done a) [] a
  | report {e : LogEvent} {next : Script α} {xs : List Exchange} {a : α}
      (rest : Talks next xs a) : Talks (.report e next) xs a
  | ask {r : Request} {next : Except Failure r.Answer → Script α} {xs : List Exchange} {a : α}
      (answer : Except Failure r.Answer) (rest : Talks (next answer) xs a) :
    Talks (.ask r next) (⟨r, answer⟩ :: xs) a

/-- **Every run is a talk.** -/
theorem talks_run (session : Session σ) (d : Script α) (s : σ) :
    Talks d (d.run session s).exchanges (d.run session s).result := by
  induction d generalizing s with
  | done a => exact .done a
  | report e next ih => exact .report (ih s)
  | ask r next ih =>
    have hnoted : ((session s r).log.map TraceEntry.noted).filterMap TraceEntry.exchange? = [] := by
      simp [List.filterMap_map, TraceEntry.exchange?, Function.comp_def]
    have hexchanges : ((Script.ask r next).run session s).exchanges =
        ⟨r, (session s r).answer⟩ ::
          ((next (session s r).answer).run session (session s r).state).exchanges := by
      simp only [run, Outcome.exchanges, Outcome.after, List.cons_append, List.filterMap_append,
        List.filterMap_cons, hnoted]
      rfl
    rw [hexchanges]
    exact .ask _ (ih _ _)

lemma Talks.of_bind {d : Script α} {f : α → Script β} {zs : List Exchange} {b : β}
    (h : Talks (d >>= f) zs b) :
    ∃ xs ys a, zs = xs ++ ys ∧ Talks d xs a ∧ Talks (f a) ys b := by
  induction d generalizing zs with
  | done a => exact ⟨[], zs, a, rfl, .done a, h⟩
  | report e next ih =>
    cases h with
    | report rest =>
      obtain ⟨xs, ys, a, rfl, hd, hf⟩ := ih rest
      exact ⟨xs, ys, a, rfl, .report hd, hf⟩
  | ask r next ih =>
    cases h with
    | ask answer rest =>
      obtain ⟨xs, ys, a, rfl, hd, hf⟩ := ih answer rest
      exact ⟨⟨r, answer⟩ :: xs, ys, a, rfl, .ask answer hd, hf⟩

end Script

namespace Dialog

/-- **The dialog can come to a result, or to a failure, through these exchanges.** -/
def Talks (d : Dialog α) (xs : List Exchange) (r : Except Failure α) : Prop :=
  Script.Talks d.run xs r

namespace Talks

variable {xs zs : List Exchange} {a : α} {r : Except Failure α} {d : Dialog α}

lemma of_pure (h : Talks (pure a) xs r) : xs = [] ∧ r = .ok a := by
  cases h with
  | done => exact ⟨rfl, rfl⟩

lemma of_refuse {e : SyncError} (h : Talks (refuse e : Dialog α) xs r) :
    xs = [] ∧ r = .error e.toFailure := by
  cases h with
  | done => exact ⟨rfl, rfl⟩

lemma of_throw {e : Failure} (h : Talks (throw e : Dialog α) xs r) :
    xs = [] ∧ r = .error e := by
  cases h with
  | done => exact ⟨rfl, rfl⟩

lemma of_mk_pure {x : Except Failure α} (h : Talks (ExceptT.mk (pure x)) xs r) :
    xs = [] ∧ r = x := by
  cases h with
  | done => exact ⟨rfl, rfl⟩

lemma of_report {e : LogEvent} {r : Except Failure Unit} (h : Talks (Dialog.report e) xs r) :
    xs = [] ∧ r = .ok () := by
  cases h with
  | report rest =>
    cases rest with
    | done => exact ⟨rfl, rfl⟩

lemma of_ask {q : Request} {r : Except Failure q.Answer} (h : Talks (ask q) xs r) :
    xs = [⟨q, r⟩] := by
  cases h with
  | ask answer rest =>
    cases rest with
    | done => rfl

/-- Of two dialogs the second one takes place unless the first one fails. -/
lemma of_bind {f : α → Dialog β} {b : Except Failure β} (h : Talks (d >>= f) zs b) :
    (∃ e, b = .error e ∧ Talks d zs (.error e)) ∨
      ∃ xs ys a, zs = xs ++ ys ∧ Talks d xs (.ok a) ∧ Talks (f a) ys b := by
  obtain ⟨xs, ys, e | a, rfl, hd, hf⟩ :=
    Script.Talks.of_bind (d := d.run) (f := ExceptT.bindCont f) h
  · cases hf with
    | done =>
      rw [List.append_nil]
      exact .inl ⟨e, rfl, hd⟩
  · exact .inr ⟨xs, ys, a, rfl, hd, hf⟩

/-- Reports do not show. -/
lemma of_report_bind {e : LogEvent} {f : Unit → Dialog α} (h : Talks (Dialog.report e >>= f) xs r) :
    Talks (f ()) xs r := by
  rcases h.of_bind with ⟨_, -, hreport⟩ | ⟨ys, zs, u, rfl, hreport, hrest⟩
  · cases hreport.of_report.2
  · rwa [hreport.of_report.1]

/-- A dialog that fails may be followed by another one instead. -/
lemma of_tryCatch {f : Failure → Dialog α} (h : Talks (tryCatch d f) zs r) :
    (∃ a, r = .ok a ∧ Talks d zs (.ok a)) ∨
      ∃ xs ys e, zs = xs ++ ys ∧ Talks d xs (.error e) ∧ Talks (f e) ys r := by
  rw [Talks, run_tryCatch] at h
  obtain ⟨xs, ys, e | a, rfl, hd, hf⟩ := Script.Talks.of_bind h
  · exact .inr ⟨xs, ys, e, rfl, hd, hf⟩
  · cases hf with
    | done =>
      rw [List.append_nil]
      exact .inl ⟨a, rfl, hd⟩

end Talks

end Dialog

end TagSync
