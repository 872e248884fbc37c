import Mathlib.Tactic.Common
import TagSync.Session

/-!
Running dialogs with a session, piece by piece.

The outcome of a dialog is its result and the state it leaves the session in. A dialog made of
two runs the second one where the first has ended, unless the first has failed.
-/

namespace TagSync

variable {σ α β : Type}

namespace Script

instance : LawfulMonad Script := LawfulMonad.mk' Script
  (fun d => by
    induction d with
    | done a => rfl
    | report e next ih => exact congrArg (Script.report e) ih
    | ask r next ih => exact congrArg (Script.ask r) (funext ih))
  (fun _ _ => rfl)
  (fun d f g => by
    induction d with
    | done a => rfl
    | report e next ih => exact congrArg (Script.report e) ih
    | ask r next ih => exact congrArg (Script.ask r) (funext ih))

lemma run_bind (session : Session σ) (d : Script α) (f : α → Script β) (s : σ) :
    let first := d.run session s
    let second := (f first.result).run session first.state
    ((d >>= f).run session s).result = second.result ∧
      ((d >>= f).run session s).state = second.state := by
  induction d generalizing s with
  | done a => exact ⟨rfl, rfl⟩
  | report e next ih => exact ih s
  | ask r next ih => exact ih _ _

/-- What every request of a session keeps is kept by a whole script. -/
theorem run_induction {session : Session σ} {P : σ → Prop}
    (keeps : ∀ s r, P s → P (session s r).state) (d : Script α) {s : σ} (hs : P s) :
    P (d.run session s).state := by
  induction d generalizing s with
  | done a => exact hs
  | report e next ih => exact ih hs
  | ask r next ih => exact ih _ (keeps s r hs)

end Script

namespace Dialog

/-- The result of a dialog with a session, and the state the session is left in. -/
def outcome (session : Session σ) (d : Dialog α) (s : σ) : Except Failure α × σ :=
  let o := Script.run session d.run s
  (o.result, o.state)

variable {session : Session σ} {s : σ}

@[simp] lemma outcome_pure (a : α) : outcome session (pure a) s = (.ok a, s) := rfl

@[simp] lemma outcome_throw (e : Failure) :
    outcome session (throw e : Dialog α) s = (.error e, s) := rfl

@[simp] lemma outcome_refuse (e : SyncError) :
    outcome session (refuse e : Dialog α) s = (.error e.toFailure, s) := rfl

@[simp] lemma outcome_ask (r : Request) :
    outcome session (ask r) s = ((session s r).answer, (session s r).state) := by
  simp only [outcome, ask, ExceptT.run_mk, Script.run]
  rfl

@[simp] lemma outcome_report (e : LogEvent) :
    outcome session (report e) s = (.ok (), s) := rfl

@[simp] lemma outcome_mk_pure (r : Except Failure α) :
    outcome session (ExceptT.mk (pure r)) s = (r, s) := rfl

@[simp] lemma outcome_bind (d : Dialog α) (f : α → Dialog β) :
    outcome session (d >>= f) s =
      match outcome session d s with
      | (.ok a, s') => outcome session (f a) s'
      | (.error e, s') => (.error e, s') := by
  obtain ⟨hresult, hstate⟩ := Script.run_bind session d.run (ExceptT.bindCont f) s
  have hrun : (d >>= f).run = d.run >>= ExceptT.bindCont f := rfl
  simp only [outcome, hrun, hresult, hstate]
  rcases (Script.run session d.run s).result with e | a <;> rfl

@[simp] lemma outcome_map (d : Dialog α) (f : α → β) :
    outcome session (f <$> d) s =
      match outcome session d s with
      | (.ok a, s') => (.ok (f a), s')
      | (.error e, s') => (.error e, s') := by
  let finish : Except Failure α → Script (Except Failure β)
    | .ok a => pure (.ok (f a))
    | .error e => pure (.error e)
  obtain ⟨hresult, hstate⟩ := Script.run_bind session d.run finish s
  have hrun : (f <$> d).run = d.run >>= finish := by
    simp only [Functor.map, ExceptT.map, ExceptT.run_mk]
    congr 1
    funext r
    cases r <;> rfl
  simp only [outcome, hrun, hresult, hstate]
  rcases (Script.run session d.run s).result with e | a <;> rfl

/-- How a dialog goes on after one that may have failed. -/
def handle (f : Failure → Dialog α) : Except Failure α → Script (Except Failure α)
  | .ok a => pure (.ok a)
  | .error e => (f e).run

lemma run_tryCatch (d : Dialog α) (f : Failure → Dialog α) :
    (tryCatch d f).run = d.run >>= handle f := by
  simp only [tryCatch, tryCatchThe, MonadExceptOf.tryCatch, ExceptT.tryCatch, ExceptT.run_mk]
  congr 1
  funext r
  cases r <;> rfl

@[simp] lemma outcome_tryCatch (d : Dialog α) (f : Failure → Dialog α) :
    outcome session (tryCatch d f) s =
      match outcome session d s with
      | (.ok a, s') => (.ok a, s')
      | (.error e, s') => outcome session (f e) s' := by
  obtain ⟨hresult, hstate⟩ := Script.run_bind session d.run (handle f) s
  simp only [outcome, run_tryCatch, hresult, hstate]
  rcases (Script.run session d.run s).result with e | a <;> rfl

/-! ### Dialogs that succeed -/

/-- Going on after a dialog that has ended well. -/
lemma outcome_bind_of_ok {d : Dialog α} {f : α → Dialog β} {a : α} {s' : σ}
    (h : outcome session d s = (.ok a, s')) :
    outcome session (d >>= f) s = outcome session (f a) s' := by
  rw [outcome_bind, h]

lemma outcome_bind_of_error {d : Dialog α} {f : α → Dialog β} {e : Failure} {s' : σ}
    (h : outcome session d s = (.error e, s')) :
    outcome session (d >>= f) s = (.error e, s') := by
  rw [outcome_bind, h]

lemma outcome_bind_eq_ok {d : Dialog α} {f : α → Dialog β} {b : β} {s'' : σ} :
    outcome session (d >>= f) s = (.ok b, s'') ↔
      ∃ a s', outcome session d s = (.ok a, s') ∧ outcome session (f a) s' = (.ok b, s'') := by
  rw [outcome_bind]
  rcases outcome session d s with ⟨e | a, s'⟩
  · simp
  · simp

/-- A dialog that ends well goes on where its first part has ended well. -/
lemma outcome_bind_eq_ok_of {d : Dialog α} {f : α → Dialog β} {r : Except Failure α} {b : β}
    {s' s'' : σ} (h : outcome session d s = (r, s')) :
    outcome session (d >>= f) s = (.ok b, s'') ↔
      ∃ a, r = .ok a ∧ outcome session (f a) s' = (.ok b, s'') := by
  rw [outcome_bind_eq_ok, h]
  simp only [Prod.mk.injEq]
  exact ⟨fun ⟨a, _, ⟨hr, rfl⟩, hf⟩ => ⟨a, hr, hf⟩, fun ⟨a, hr, hf⟩ => ⟨a, _, ⟨hr, rfl⟩, hf⟩⟩

/-! ### Dialogs that only ask -/

/-- A dialog that leaves the session as it is. -/
def ReadOnly (session : Session σ) (d : Dialog α) : Prop := ∀ s, (outcome session d s).2 = s

namespace ReadOnly

lemma pure (a : α) : ReadOnly session (Pure.pure a) := fun _ => rfl

lemma refuse (e : SyncError) : ReadOnly session (Dialog.refuse e : Dialog α) := fun _ => rfl

lemma report (e : LogEvent) : ReadOnly session (Dialog.report e) := fun _ => rfl

lemma ask {r : Request} (h : ∀ s, (session s r).state = s) : ReadOnly session (Dialog.ask r) :=
  fun s => by rw [outcome_ask, h s]

lemma bind {d : Dialog α} {f : α → Dialog β} (hd : ReadOnly session d)
    (hf : ∀ a, ReadOnly session (f a)) : ReadOnly session (d >>= f) := by
  intro s
  have h := hd s
  rw [outcome_bind]
  rcases hout : outcome session d s with ⟨e | a, s'⟩
  · rwa [hout] at h
  · rw [hout] at h
    simp only at h ⊢
    rw [h]
    exact hf a s

lemma ite {c : Prop} [Decidable c] {d d' : Dialog α} (hd : ReadOnly session d)
    (hd' : ReadOnly session d') : ReadOnly session (if c then d else d') := by
  split
  · exact hd
  · exact hd'

end ReadOnly

end Dialog

end TagSync
