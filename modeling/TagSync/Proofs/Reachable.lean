import TagSync.Hub.Import
import TagSync.Proofs.Calls
import TagSync.Proofs.Dialog
import TagSync.Proofs.Imports
import TagSync.Proofs.Inheritance
import TagSync.Proofs.Tags

/-!
The hubs that can come about.

A hub starts empty. Users come and go, seeds are imported, requests are made, repositories are
noted down, and open transactions are settled or lost. All of this changes the tables in steps
of five kinds (`Tables.Step`), so what these steps keep holds on every hub.
-/

namespace TagSync

namespace Tables

variable {c : Clock} {t t' : Tables}

/-- One change of the tables of a hub that is no import. -/
inductive Edit (c : Clock) (t : Tables) : Tables → Prop where
  | call {tag : TagInfo} {flags : CallFlags} {o : Operation} {t' : Tables}
      (found : t.getTag (.byId tag.id) none = some tag)
      (accepted : t.call c tag flags o = .ok t') : Edit c t t'
  | createTag {name : String} (config : TagConfig) (new : t.tagNamed? name = none) :
    Edit c t ((t.newEvent c).1.addTag name config (t.newEvent c).2).1
  | editTag {id : TagId} (config : TagConfig) (found : (t.tag? id).isSome) :
    Edit c t ((t.setConfig id config).newEvent c).1
  | newRepo {tag : TagId} (found : (t.tag? tag).isSome) :
    Edit c t ((t.newEvent c).1.addRepo tag (t.newEvent c).2).1

/-- One change of the tables of a hub. -/
inductive Step (c : Clock) (t : Tables) : Tables → Prop where
  | call {tag : TagInfo} {flags : CallFlags} {o : Operation} {t' : Tables}
      (found : t.getTag (.byId tag.id) none = some tag)
      (accepted : t.call c tag flags o = .ok t') : Step c t t'
  | createTag {name : String} (config : TagConfig) (new : t.tagNamed? name = none) :
    Step c t ((t.newEvent c).1.addTag name config (t.newEvent c).2).1
  | editTag {id : TagId} (config : TagConfig) (found : (t.tag? id).isSome) :
    Step c t ((t.setConfig id config).newEvent c).1
  | newRepo {tag : TagId} (found : (t.tag? tag).isSome) :
    Step c t ((t.newEvent c).1.addRepo tag (t.newEvent c).2).1
  | importSeed {s : Seed} {context : SeedContext} {t' : Tables} {summary : ImportSummary}
      (checked : s.check context = .ok ()) (imported : t.importSeed c s = .ok (t', summary)) :
    Step c t t'

lemma Edit.step (h : Edit c t t') : Step c t t' := by
  cases h with
  | call found accepted => exact .call found accepted
  | createTag config new => exact .createTag config new
  | editTag config found => exact .editTag config found
  | newRepo found => exact .newRepo found

namespace Step

lemma sound (h : Step c t t') (ht : t.Sound) : t'.Sound := by
  have hevent : (t.newEvent c).1.Sound := (Confined.newEvent c 0 t).sound ht
  cases h with
  | call found accepted => exact (confined_of_call accepted).sound ht
  | createTag config new => exact hevent.addTag ..
  | editTag config found =>
    exact ((Confined.setConfig c _ t config).trans (.newEvent ..)).sound ht
  | newRepo found => exact { hevent with }
  | importSeed checked imported => exact (sound_importSeed hevent checked imported).1

lemma timed (hc : c.Forward) (h : Step c t t') (hs : t.Sound) (ht : t.Timed c) : t'.Timed c := by
  have hevent := timed_newEvent hc ht
  cases h with
  | call found accepted => exact (confined_of_call accepted).timed hc ht
  | createTag config new => exact .congr (t := (t.newEvent c).1) rfl hevent
  | editTag config found =>
    exact ((Confined.setConfig c _ t config).trans (.newEvent ..)).timed hc ht
  | newRepo found => exact .congr (t := (t.newEvent c).1) rfl hevent
  | importSeed checked imported =>
    exact .congr (sound_importSeed ((Confined.newEvent c 0 t).sound hs) checked imported).2 hevent

end Step

/-- An accepted call leaves all tags as they are. -/
lemma tags_of_call {tag : TagInfo} {flags : CallFlags} {o : Operation}
    (h : t.call c tag flags o = .ok t') : t'.tags = t.tags := by
  cases call_eq_ok h with
  | tagBuild => rw [tags_notifyIf]; rfl
  | untagBuild => rw [tags_notifyIf]; rfl
  | _ => rfl

lemma tags_of_callEach {tag : TagInfo} {flags : CallFlags} {operations : List Operation}
    (h : t.callEach c tag flags operations = .ok t') : t'.tags = t.tags := by
  induction operations generalizing t with
  | nil =>
    cases h
    rfl
  | cons o rest ih =>
    obtain ⟨t₁, hcall, hrest⟩ := callEach_cons_eq_ok.mp h
    exact (ih hrest).trans (tags_of_call hcall)

lemma getTag_congr (h : t'.tags = t.tags) : t'.getTag = t.getTag := by
  unfold getTag tag? tagNamed?
  rw [h]

end Tables

namespace Hub

/-- **The hubs that can come about**: from an empty one, by imports of seeds that passed their
checks, by requests of any users, and by notes about repositories. An open transaction may be
settled, or lost when the hub is opened again. -/
inductive Reachable : Hub → Prop where
  | start (user : String) (clock : Clock) : Reachable { user, clock }
  | actAs {h : Hub} (user : String) (reached : Reachable h) : Reachable { h with user }
  | importSeed {h : Hub} {s : Seed} {context : SeedContext}
      (checked : s.check context = .ok ()) (reached : Reachable h) : Reachable (h.importSeed s).2
  | request {h : Hub} (r : Request) (reached : Reachable h) : Reachable (h.session r).state
  | newRepo {h : Hub} (tag : TagId) (reached : Reachable h) : Reachable (h.newRepo tag).2
  | settle {h : Hub} (reached : Reachable h) : Reachable h.settle
  | reopen {h : Hub} (reached : Reachable h) :
    Reachable { h with tables := h.durable, before := none }

variable {h : Hub} {P Q : Tables → Prop}

/-! ### Who acts, and by which clock -/

lemma transact_keeps {α : Type} (h : Hub) (f : Tables → Except Failure (Tables × α)) :
    (h.transact f).2.user = h.user ∧ (h.transact f).2.clock = h.clock := by
  unfold transact
  split
  · exact ⟨rfl, rfl⟩
  · split <;> exact ⟨rfl, rfl⟩

lemma callAll_keeps (h : Hub) (tag : TagInfo) (flags : CallFlags) (operations : List Operation) :
    (h.callAll tag flags operations).2.user = h.user ∧
      (h.callAll tag flags operations).2.clock = h.clock := by
  induction operations generalizing h with
  | nil => exact ⟨rfl, rfl⟩
  | cons o rest ih =>
    simp only [callAll, ih]
    unfold callOne
    split <;> exact ⟨rfl, rfl⟩

lemma session_keeps (h : Hub) (r : Request) :
    (h.session r).state.user = h.user ∧ (h.session r).state.clock = h.clock := by
  cases r with
  | createTag name config =>
    have : (h.createTag name config).2.user = h.user ∧
        (h.createTag name config).2.clock = h.clock := by
      unfold createTag
      split
      · exact ⟨rfl, rfl⟩
      · exact transact_keeps ..
    simp only [session]
    split <;>
    · rename_i heq
      rwa [heq] at this
  | editTag id config =>
    simp only [session, editTag]
    exact transact_keeps ..
  | multicall id operations flags =>
    simp only [session, multicall]
    split
    · exact ⟨rfl, rfl⟩
    · split
      · exact callAll_keeps ..
      · exact ⟨rfl, rfl⟩
  | resolveEvent asOf =>
    simp only [session]
    split <;> exact ⟨rfl, rfl⟩
  | _ => exact ⟨rfl, rfl⟩

/-! ### What holds on all hubs -/

/-- What a run asks for leads to hubs that can come about, too. -/
lemma Reachable.run {α : Type} (hr : h.Reachable) (d : Script α) :
    (d.run session h).state.Reachable :=
  Script.run_induction (fun _ r hs => hs.request r) d hr

/-- `P` holds of the tables of a hub, and `Q` of those before an open transaction. -/
def Holds (P Q : Tables → Prop) (h : Hub) : Prop :=
  P h.tables ∧ ∀ t, h.before = some t → Q t

namespace Holds

lemma durable (hP : h.Holds P Q) (weaken : ∀ t, P t → Q t) : Q h.durable := by
  unfold Hub.durable
  rcases hb : h.before with _ | t
  · exact weaken _ hP.1
  · exact hP.2 t hb

lemma transact (hP : h.Holds P Q) {α : Type} {f : Tables → Except Failure (Tables × α)}
    (keeps : ∀ t a, f h.tables = .ok (t, a) → P t) : (h.transact f).2.Holds P Q := by
  unfold Hub.transact
  split
  · exact hP
  · split
    · rename_i t a hf
      exact ⟨keeps t a hf, hP.2⟩
    · exact hP

lemma importSeed (step : ∀ t t', P t → Tables.Step h.clock t t' → P t') (hP : h.Holds P Q)
    {s : Seed} {context : SeedContext} (checked : s.check context = .ok ()) :
    (h.importSeed s).2.Holds P Q :=
  hP.transact fun _ _ hf => step _ _ hP.1 (.importSeed checked hf)

variable (edit : ∀ t t', P t → Tables.Edit h.clock t t' → P t') (weaken : ∀ t, P t → Q t)

include edit

lemma newRepo (hP : h.Holds P Q) (tag : TagId) : (h.newRepo tag).2.Holds P Q := by
  refine hP.transact fun t a hf => ?_
  split at hf
  · rename_i hfound
    cases hf
    exact edit _ _ hP.1 (.newRepo hfound)
  · cases hf

include weaken

lemma callAll {tag : TagInfo} {flags : CallFlags} {operations : List Operation}
    (found : h.tables.getTag (.byId tag.id) none = some tag) (hP : h.Holds P Q) :
    (h.callAll tag flags operations).2.Holds P Q := by
  induction operations generalizing h with
  | nil => exact hP
  | cons o rest ih =>
    rcases hcall : h.tables.call h.clock tag flags o with fault | t
    · have hnext : h.callOne tag flags o = (.error fault, { h with before := some h.durable }) := by
        unfold callOne
        rw [hcall]
      simp only [Hub.callAll, hnext]
      refine ih edit found ⟨hP.1, fun t ht => ?_⟩
      cases ht
      exact hP.durable weaken
    · have hnext : h.callOne tag flags o = (.ok (), { h with tables := t }) := by
        unfold callOne
        rw [hcall]
      simp only [Hub.callAll, hnext]
      refine ih edit ?_ ⟨edit _ _ hP.1 (.call found hcall), hP.2⟩
      show t.getTag _ _ = _
      rw [Tables.getTag_congr (Tables.tags_of_call hcall)]
      exact found

lemma request (hP : h.Holds P Q) (r : Request) : (h.session r).state.Holds P Q := by
  cases r with
  | createTag name config =>
    simp only [Hub.session]
    have : (h.createTag name config).2.Holds P Q := by
      unfold createTag
      split
      · exact hP
      · rename_i hnew
        refine hP.transact fun t a hf => ?_
        cases hf
        exact edit _ _ hP.1 (.createTag config (by simpa using hnew))
    split
    · rename_i heq
      rwa [heq] at this
    · rename_i heq
      rwa [heq] at this
  | editTag id config =>
    simp only [Hub.session, editTag]
    refine hP.transact fun t a hf => ?_
    split at hf
    · rename_i hfound
      cases hf
      exact edit _ _ hP.1 (.editTag config hfound)
    · cases hf
  | multicall id operations flags =>
    simp only [Hub.session, multicall]
    split
    · exact hP
    · rename_i tag htag
      split
      · have hid := Tables.id_of_getTag htag
        exact hP.callAll edit weaken (by rw [hid]; exact htag)
      · exact hP
  | resolveEvent asOf =>
    simp only [Hub.session]
    split <;> exact hP
  | _ => exact hP

end Holds

/-- **What every step keeps holds on all hubs that can come about.** -/
theorem Reachable.holds (hr : h.Reachable) (empty : P .empty)
    (step : ∀ t t', P t → Tables.Step h.clock t t' → P t') : h.Holds P P := by
  induction hr with
  | start user clock => exact ⟨empty, fun _ ht => nomatch ht⟩
  | actAs user reached ih => exact ih step
  | @importSeed h s context checked reached ih =>
    rw [show (h.importSeed s).2.clock = h.clock from (transact_keeps ..).2] at step
    exact (ih step).importSeed step checked
  | @request h r reached ih =>
    rw [(session_keeps h r).2] at step
    exact (ih step).request (fun t t' ht hedit => step t t' ht hedit.step) (fun _ => id) r
  | @newRepo h tag reached ih =>
    rw [show (h.newRepo tag).2.clock = h.clock from (transact_keeps ..).2] at step
    exact (ih step).newRepo (fun t t' ht hedit => step t t' ht hedit.step) tag
  | settle reached ih => exact ⟨(ih step).1, fun _ ht => nomatch ht⟩
  | reopen reached ih => exact ⟨(ih step).durable fun _ => id, fun _ ht => nomatch ht⟩

/-- **The tables of a hub are sound.** -/
theorem Reachable.sound (hr : h.Reachable) : h.tables.Sound :=
  (hr.holds .empty fun _ _ ht hstep => hstep.sound ht).1

/-- **Times on a hub do not run back** when its clock does not. -/
theorem Reachable.timed (hr : h.Reachable) (hc : h.clock.Forward) : h.tables.Timed h.clock := by
  have h := hr.holds (P := fun t => t.Sound ∧ t.Timed h.clock)
    ⟨.empty, Tables.timed_empty _⟩
    fun t t' ht hstep => ⟨hstep.sound ht.1, hstep.timed hc ht.1 ht.2⟩
  exact h.1.2

end Hub

end TagSync
