import TagSync.Proofs.Reachable

/-!
Hubs and the seeds they were filled from.

The seeds are listed in the order in which they were imported. An import that fails leaves the hub
as it is, so only those that succeed are listed; and since no import can begin while a transaction
is open, none of them is lost when a hub is opened again.
-/

namespace TagSync.Hub

/-- What may become of a hub by anything but an import. -/
inductive Move (h : Hub) : Hub → Prop where
  | actAs (user : String) : Move h { h with user }
  | request (r : Request) : Move h (h.session r).state
  | newRepo (tag : TagId) : Move h (h.newRepo tag).2
  | settle : Move h h.settle
  | reopen : Move h { h with tables := h.durable, before := none }

/-- **The hubs that can come about by importing some seeds**, in their order, and by whatever else
happens to hubs. -/
inductive Sown : List Seed → Hub → Prop where
  | start (user : String) (clock : Clock) : Sown [] { user, clock }
  | move {seeds : List Seed} {h h' : Hub} (step : h.Move h') (sown : Sown seeds h) : Sown seeds h'
  | importSeed {seeds : List Seed} {h : Hub} {s : Seed} {context : SeedContext}
      {summary : ImportSummary} (checked : s.check context = .ok ())
      (imported : (h.importSeed s).1 = .ok summary) (sown : Sown seeds h) :
    Sown (seeds ++ [s]) (h.importSeed s).2

variable {h h' : Hub} {seeds : List Seed}

lemma Move.reachable (hm : h.Move h') (hr : h.Reachable) : h'.Reachable := by
  cases hm with
  | actAs user => exact .actAs user hr
  | request r => exact .request r hr
  | newRepo tag => exact .newRepo tag hr
  | settle => exact .settle hr
  | reopen => exact .reopen hr

lemma Move.clock_eq (hm : h.Move h') : h'.clock = h.clock := by
  cases hm with
  | request r => exact (session_keeps h r).2
  | newRepo tag => exact (transact_keeps ..).2
  | _ => rfl

lemma Sown.reachable (hs : Sown seeds h) : h.Reachable := by
  induction hs with
  | start user clock => exact .start user clock
  | move step _ ih => exact step.reachable ih
  | importSeed checked _ _ ih => exact .importSeed checked ih

lemma transact_of_error {α : Type} {f : Tables → Except Failure (Tables × α)} {e : Failure}
    (failed : (h.transact f).1 = .error e) : (h.transact f).2 = h := by
  unfold transact at failed ⊢
  split
  · rfl
  · rename_i hclosed
    rw [if_neg hclosed] at failed
    split
    · rename_i heq
      rw [heq] at failed
      cases failed
    · rfl

/-- What changes the tables as a whole begins without an open transaction. -/
lemma transact_of_ok {α : Type} {f : Tables → Except Failure (Tables × α)} {a : α}
    (done : (h.transact f).1 = .ok a) :
    h.before = none ∧ ∃ t, f h.tables = .ok (t, a) ∧ (h.transact f).2 = { h with tables := t } := by
  unfold transact at done ⊢
  by_cases hopen : h.before.isSome = true
  · rw [if_pos hopen] at done
    cases done
  · rw [if_neg hopen] at done ⊢
    refine ⟨by simpa using hopen, ?_⟩
    rcases hf : f h.tables with e | ⟨t, a'⟩ <;> rw [hf] at done <;> cases done
    exact ⟨t, rfl, rfl⟩

/-- **Every hub that can come about was filled from some seeds.** -/
theorem Reachable.exists_sown (hr : h.Reachable) : ∃ seeds, Sown seeds h := by
  induction hr with
  | start user clock => exact ⟨[], .start user clock⟩
  | actAs user _ ih =>
    obtain ⟨seeds, hs⟩ := ih
    exact ⟨seeds, .move (.actAs user) hs⟩
  | @importSeed h s context checked _ ih =>
    obtain ⟨seeds, hs⟩ := ih
    rcases hresult : (h.importSeed s).1 with e | summary
    · have hsame : (h.importSeed s).2 = h := transact_of_error hresult
      exact ⟨seeds, by rwa [hsame]⟩
    · exact ⟨seeds ++ [s], .importSeed checked hresult hs⟩
  | request r _ ih =>
    obtain ⟨seeds, hs⟩ := ih
    exact ⟨seeds, .move (.request r) hs⟩
  | newRepo tag _ ih =>
    obtain ⟨seeds, hs⟩ := ih
    exact ⟨seeds, .move (.newRepo tag) hs⟩
  | settle _ ih =>
    obtain ⟨seeds, hs⟩ := ih
    exact ⟨seeds, .move .settle hs⟩
  | reopen _ ih =>
    obtain ⟨seeds, hs⟩ := ih
    exact ⟨seeds, .move .reopen hs⟩

/-- What every edit keeps is kept whatever happens, imports apart. -/
lemma Holds.move {P : Tables → Prop} (hP : h.Holds P P)
    (edit : ∀ t t', P t → Tables.Edit h.clock t t' → P t') (hm : h.Move h') : h'.Holds P P := by
  cases hm with
  | actAs user => exact hP
  | request r => exact hP.request edit (fun _ => id) r
  | newRepo tag => exact hP.newRepo edit tag
  | settle => exact ⟨hP.1, nofun⟩
  | reopen => exact ⟨hP.durable fun _ => id, nofun⟩

/-- **What edits keep, and imports carry over to one more seed**, holds of all hubs that were
filled from some seeds. -/
theorem Sown.holds {P : List Seed → Tables → Prop} (hs : Sown seeds h) (empty : P [] .empty)
    (edit : ∀ seeds t t', P seeds t → Tables.Edit h.clock t t' → P seeds t')
    (sow : ∀ seeds s context t t' summary, P seeds t → Seed.check s context = .ok () →
      t.importSeed h.clock s = .ok (t', summary) → P (seeds ++ [s]) t') :
    h.Holds (P seeds) (P seeds) := by
  induction hs with
  | start user clock => exact ⟨empty, nofun⟩
  | move step _ ih =>
    rw [step.clock_eq] at edit sow
    exact (ih edit sow).move (edit _) step
  | @importSeed seeds h s context summary checked imported _ ih =>
    rw [show (h.importSeed s).2.clock = h.clock from (transact_keeps ..).2] at edit sow
    obtain ⟨hclosed, t, ht, hnext⟩ := transact_of_ok imported
    have hstate : (h.importSeed s).2 = { h with tables := t } := hnext
    rw [hstate]
    refine ⟨sow _ _ _ _ _ _ (ih edit sow).1 checked ht, fun t' ht' => ?_⟩
    rw [show ({ h with tables := t } : Hub).before = none from hclosed] at ht'
    cases ht'

end TagSync.Hub
