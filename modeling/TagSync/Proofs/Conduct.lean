import TagSync.Proofs.Protocol
import TagSync.Proofs.Runs

/-!
Clone runs keep to the protocol.

A dialog carries a run from a stage to the stage its result leads to. Dialogs one after the other do
so if each of them does, so the parts of a run are gone through one by one.
-/

namespace TagSync

namespace Clone

open Dialog Stage

variable {o : CloneOptions} {s : Stage} {α β : Type} {d : Dialog α} {f : α → Dialog β}
  {m next : α → Stage}

/-- **The dialog keeps to the protocol**, whatever it is told, from a stage to the one its result
leads to. -/
def Carries (o : CloneOptions) (s : Stage) (d : Dialog α) (next : α → Stage) : Prop :=
  ∀ xs r, Dialog.Talks d xs r → Passes o s xs (after r next)

namespace Carries

lemma pure {a : α} (h : next a = s) : Carries o s (pure a) next := by
  intro xs r hpure
  obtain ⟨rfl, rfl⟩ := hpure.of_pure
  subst h
  exact .refl _

/-- Where a run gives up, the protocol has come to its end. -/
lemma refuse (e : SyncError) : Carries o .closed (refuse e) next := by
  intro xs r h
  obtain ⟨rfl, rfl⟩ := h.of_refuse
  exact .refl _

lemma ask {q : Request} {next : q.Answer → Stage}
    (h : ∀ answer, Next o s ⟨q, answer⟩ (after answer next)) : Carries o s (ask q) next := by
  intro xs r hask
  obtain rfl := hask.of_ask
  exact .one (h r)

lemma bind {next' : β → Stage} (hd : Carries o s d m)
    (hf : ∀ a, Carries o (m a) (f a) next') : Carries o s (d >>= f) next' := by
  intro zs r h
  rcases h.of_bind with ⟨e, rfl, hfails⟩ | ⟨xs, ys, a, rfl, hfirst, hrest⟩
  · exact hd zs _ hfails
  · exact (hd xs _ hfirst).append (hf a ys r hrest)

/-- Two branches that go on in the same way. -/
lemma join {c : Prop} [Decidable c] {d' : Dialog α} {next' : β → Stage}
    (hd : Carries o s (if c then d else d') m) (hf : ∀ a, Carries o (m a) (f a) next') :
    Carries o s (if c then d >>= f else d' >>= f) next' := by
  split at hd <;> rename_i hc
  · rw [if_pos hc]
    exact hd.bind hf
  · rw [if_neg hc]
    exact hd.bind hf

lemma report_bind {e : LogEvent} {f : Unit → Dialog α} (h : Carries o s (f ()) next) :
    Carries o s (Dialog.report e >>= f) next :=
  fun xs r htalks => h xs r htalks.of_report_bind

end Carries

/-! ### Checks -/

lemma carries_checkPermission : Carries o .admin checkPermission fun _ => pinning o := by
  refine .bind (.ask .admin) fun admin => ?_
  refine .join (m := fun allowed : Bool => if allowed then pinning o else .closed) ?_
    fun allowed => ?_
  · cases admin with
    | false => exact .ask .tag
    | true => exact .pure rfl
  · cases allowed with
    | false => exact .refuse _
    | true => exact .pure rfl

lemma carries_checkLock (tag : TagInfo) (s : Stage) :
    Carries o (unlocked o tag s) (checkLock tag o.flags) fun _ => s := by
  unfold unlocked checkLock
  split
  · exact .refuse _
  · exact .pure rfl

lemma carries_pinEvent :
    Carries o (pinning o) (pinEvent o) fun event => .source (event.map EventInfo.id) := by
  unfold pinning pinEvent
  rcases o.asOf with _ | asOf
  · exact .pure rfl
  · exact .bind (.ask (.pin asOf)) fun e => .report_bind (.pure rfl)

lemma carries_source (event : Option EventId) :
    Carries o (.source event) (resolveTag o.src event)
      fun src => unlocked o src (.destination event src) := by
  refine .bind (.ask (.source event)) fun src => ?_
  cases src with
  | none => exact .refuse _
  | some src => exact .pure rfl

/-! ### The destination -/

variable {event : Option EventId} {src dst : TagInfo} {state : DestinationState}

/-- The stage in which a destination has been found. -/
def foundAs (o : CloneOptions) (event : Option EventId) (src : TagInfo) :
    TagInfo × DestinationState → Stage :=
  fun (dst, state) => found o event src dst state

lemma carries_createDestination :
    Carries o (missing o event src) (createDestination o src) (foundAs o event src) := by
  unfold missing createDestination
  rcases o.dst with id | name
  · exact .refuse _
  · dsimp only
    split
    · exact .refuse _
    · split
      · exact .pure rfl
      · refine .bind (.ask (.creation event src name)) fun tag => .report_bind ?_
        refine .bind (m := fun dst => found o event src dst .created) ?_ fun dst => .pure rfl
        refine .bind (.ask (.created event src tag.id)) fun dst => ?_
        cases dst with
        | none => exact .refuse _
        | some dst => exact .pure rfl

lemma carries_findDestination :
    Carries o (.destination event src) (findDestination o src)
      fun (dst, state) => compared o event src dst state := by
  have hdistinct : ∀ x : TagInfo × DestinationState, Carries o (foundAs o event src x)
      (if x.2 ≠ .wouldCreate && src.id == x.1.id then Dialog.refuse (.sameTag src.name)
        else pure (x.1, x.2))
      fun (dst, state) => compared o event src dst state := by
    rintro ⟨dst, state⟩
    dsimp only [foundAs, found]
    by_cases hsame : state ≠ .wouldCreate ∧ src.id = dst.id
    · rw [if_pos hsame, if_pos (by simpa using hsame)]
      exact .refuse _
    · rw [if_neg hsame, if_neg (by simpa using hsame)]
      exact .pure rfl
  refine .bind (.ask (.destination event src)) fun dst => ?_
  cases dst with
  | none => exact .bind carries_createDestination hdistinct
  | some dst =>
    exact .bind (carries_checkLock dst _) fun _ => .bind (.pure rfl) hdistinct

/-! ### The listings -/

section

variable (stage : List Request → Snapshot → Stage)
  (files : ∀ r rest s answer, Next o (stage (r :: rest) s) ⟨r, answer⟩
    (after answer fun a => stage rest (s.filed r a)))

include files

/-- What is not listed counts as empty. -/
lemma carries_listing {r : Request} {s : Snapshot} {unlisted : r.Answer}
    (keeps : s.filed r unlisted = s) {listed : Bool} {todo rest : List Request}
    (htodo : todo = (if listed then [r] else []) ++ rest) :
    Carries o (stage todo s) (if listed then Dialog.ask r else pure unlisted)
      fun a => stage rest (s.filed r a) := by
  subst htodo
  cases listed with
  | false => exact .pure (congrArg (stage rest) keeps)
  | true => exact .ask (files r rest s)

lemma carries_fetch {tag : TagInfo} {next : Snapshot → Stage}
    (fetched : ∀ s, s.tag = tag → next s = stage [] s) (event : Option EventId)
    (selection : ClassSelection) (inheritBuilds latestOnly : Bool) :
    Carries o
      (stage (listings selection tag.id event inheritBuilds latestOnly)
        ((Snapshot.ofTag tag).atEvent event))
      (Snapshot.fetch tag event (.source selection inheritBuilds latestOnly)) next := by
  refine .join (carries_listing stage files (r := .listPackages ..) rfl rfl) fun packages => ?_
  refine .join (carries_listing stage files (r := .listBuilds ..) rfl rfl) fun builds => ?_
  refine .join (carries_listing stage files (r := .listGroups ..) rfl
    (List.append_nil _).symm) fun groups => ?_
  exact .report_bind (.pure (fetched _ rfl))

end

lemma carries_reconcile :
    Carries o (compared o event src dst state) (reconcile o event src dst state)
      (planned o dst.id) := by
  refine .bind (carries_fetch (fun rest s => listed o rest _ s (.ofTag dst))
    (fun r rest s => .ofSource r rest _ s _) (fun _ _ => rfl) event _ _ _) fun s => ?_
  refine .join (m := fun d => planned o dst.id (Diff.plan s d o.selection o.diffOptions)) ?_
    fun d => .report_bind (.pure rfl)
  split
  · -- a planned destination is not listed
    exact .pure rfl
  · exact carries_fetch (fun rest d => listed o [] rest s d)
      (fun r rest d => .ofDestination r rest s d)
      (fun d hd => by simp only [listed, hd]) none _ _ _

/-! ### Sending -/

/-- Requests that are sent one after the other. -/
lemma passes_of_sent {batches : List Batch} {r : ApplyReport} {sent : List Delivery}
    {result : Except Failure ApplyReport} (h : Sent batches r sent result)
    (hne : ∀ b ∈ batches, b.operations ≠ []) (dst : TagId) (config : Option TagConfig) :
    Passes o (.sending dst (batches.flatMap Batch.operations) config)
      (sent.map (Delivery.exchange dst o.flags)) (after result fun _ => .sending dst [] config) := by
  induction h with
  | done r => exact .refl _
  | @fits b rest r sent result results length tail ih =>
    have hnext : Next o (.sending dst (b.operations ++ rest.flatMap Batch.operations) config) _ _ :=
      .send dst (hne b (.head _)) _ config (.ok results)
    rw [after, if_pos length] at hnext
    exact .step hnext (ih fun b hb => hne b (.tail _ hb))
  | @fails b r answer f rest fails =>
    have hnext : Next o (.sending dst (b.operations ++ rest.flatMap Batch.operations) config) _ _ :=
      .send dst (hne b (.head _)) _ config answer
    have hclosed : (after answer fun results => if results.length = b.operations.length then
        Stage.sending dst (rest.flatMap Batch.operations) config else .closed) = .closed := by
      rcases fails with hanswer | ⟨⟨results, hanswer, hlength⟩, -⟩ <;> cases hanswer
      · rfl
      · exact if_neg hlength
    rw [hclosed] at hnext
    exact .one hnext

lemma carries_apply (p : Plan) (dst : TagId) (size : BatchSize) :
    Carries o (.sending dst p.operations p.config) (p.apply dst size o.flags)
      fun _ => .sending dst [] none := by
  intro xs r h
  obtain ⟨sent, result, hsent, hcase⟩ := Plan.talks_apply h
  have hpasses : Passes o (.sending dst p.operations p.config) _ _ :=
    p.flatMap_batches size ▸
      passes_of_sent hsent (fun b hb => (Plan.size_of_mem_batches hb).1) dst p.config
  rcases result with f | report
  · obtain ⟨rfl, rfl⟩ := hcase
    exact hpasses
  · rcases hconfig : p.config with _ | config <;> simp only [hconfig] at hcase hpasses
    · obtain ⟨rfl, rfl⟩ := hcase
      exact hpasses
    · obtain ⟨answer, rfl, rfl⟩ := hcase
      have hcopy : Passes o (.sending dst [] (some config)) _ _ := .one (.copy dst config answer)
      cases answer <;> exact hpasses.append hcopy

/-! ### Whole runs -/

/-- The stage a run that succeeds has come to. -/
def ended (o : CloneOptions) (dst : TagId) : Stage :=
  if o.dryRun then .closed else .sending dst [] none

lemma final_ended (o : CloneOptions) (dst : TagId) : (ended o dst).Final := by
  unfold ended
  split
  · exact .closed
  · exact .sent dst

/-- Nothing is asked if the checks of the options fail. -/
lemma start_eq (o : CloneOptions) :
    start o = after ((checkOptions o).mapError SyncError.toFailure) fun _ => .admin := by
  unfold start checkOptions BatchSize.ofInt
  by_cases hsame : o.src = o.dst
  · rw [if_pos (.inl hsame), if_pos hsame]
    rfl
  by_cases hsize : o.batch < 0
  · rw [if_pos (.inr (.inl hsize)), if_neg hsame, if_pos hsize]
    rfl
  rw [if_neg hsame, if_neg hsize]
  rcases o.selection.builds with _ | _ <;> rcases o.selection.packages with _ | _ <;>
    simp only [hsame, hsize, false_or] <;> rfl

lemma carries_checkOptions :
    Carries o (start o) (ExceptT.mk (pure ((checkOptions o).mapError SyncError.toFailure)))
      fun _ => .admin := by
  intro xs r h
  obtain ⟨rfl, rfl⟩ := h.of_mk_pure
  rw [start_eq]
  exact .refl _

lemma carries_stages (id : String) :
    Carries o (start o) (stages id o) fun r => ended o r.dst.id := by
  refine .bind carries_checkOptions fun size => ?_
  refine .bind carries_checkPermission fun _ => ?_
  refine .bind carries_pinEvent fun event => ?_
  refine .bind (carries_source _) fun src => ?_
  refine .bind (carries_checkLock src _) fun _ => ?_
  refine .bind carries_findDestination fun (dst, state) => ?_
  refine .bind carries_reconcile fun p => ?_
  refine .join (m := fun _ => ended o dst.id) ?_ fun _ => .pure rfl
  unfold planned ended
  -- only a run that may write sends its plan
  split
  · exact .pure rfl
  · rw [map_eq_pure_bind]
    exact .bind (carries_apply p dst.id size) fun _ => .pure rfl

lemma eq_nil_of_talks_ending {c : RunContext} {r r' : Except Failure CloneResult}
    {xs : List Exchange} (h : Script.Talks (ending c r) xs r') : xs = [] := by
  rcases r with f | r <;> cases h with
  | report rest =>
    cases rest with
    | done => rfl

/-- **A run keeps to the protocol**, against any session, and comes to its end. Before it writes it
has made all checks, and it is no dry run; if it copies settings, it does so last. -/
theorem keeps_protocol {σ : Type} (session : Session σ) (s : σ) (c : RunContext)
    (o : CloneOptions) :
    let asked := ((run c o).run session s).exchanges
    (∃ last, Passes o (start o) asked last ∧ last.Final) ∧
      ∀ before x after, asked = before ++ x :: after →
        (x.request.isWrite = true → Cleared o before ∧ o.dryRun = false) ∧
          ∀ tag config, x.request = .editTag tag config → after = [] := by
  intro asked
  have htalks : Script.Talks (run c o) asked _ := Script.talks_run session (run c o) s
  obtain ⟨last, hpasses, hfinal⟩ : ∃ last, Passes o (start o) asked last ∧ last.Final := by
    cases htalks with
    | report rest =>
      obtain ⟨xs, ys, r, hasked, hstages, hending⟩ := Script.Talks.of_bind (f := ending c) rest
      rw [hasked, eq_nil_of_talks_ending hending, List.append_nil]
      refine ⟨_, carries_stages c.requestId xs r hstages, ?_⟩
      cases r with
      | error f => exact .closed
      | ok r => exact final_ended o _
  refine ⟨⟨last, hpasses, hfinal⟩, fun before x after hasked => ?_⟩
  rw [hasked] at hpasses
  exact ⟨hpasses.cleared, fun tag config => hpasses.nil_of_editTag⟩

end Clone

end TagSync
