import TagSync.Clone
import TagSync.Proofs.Delivery
import TagSync.Proofs.Intent
import TagSync.Proofs.Tags

/-!
Clone runs on a hub.

A run first makes its checks, which leave the hub alone, then finds its destination, which it may
have to create, and only then compares and applies. What it has found decides the rest.
-/

namespace TagSync

namespace Tables

/-- The event a run reads its source at, if it is found; without a selector there is none. -/
def pinned? (t : Tables) : Option AsOf → Option (Option EventInfo)
  | none => some none
  | some asOf => (t.resolveEvent asOf).map some

end Tables

namespace Clone

open Dialog

variable {h mid : Hub} {o : CloneOptions} {id : String} {src dst : TagInfo} {size : BatchSize}
  {event : Option EventInfo} {state : DestinationState}

/-! ### Single requests -/

lemma outcome_hasPerm (h : Hub) (perm : String) :
    outcome Hub.session (ask (.hasPerm perm)) h = (.ok (h.tables.hasPerm h.user perm), h) :=
  outcome_ask _

lemma outcome_getTag (h : Hub) (tag : TagRef) (event : Option EventId) :
    outcome Hub.session (ask (.getTag tag event)) h = (.ok (h.tables.getTag tag event), h) :=
  outcome_ask _

lemma outcome_resolveEvent (h : Hub) (asOf : AsOf) :
    outcome Hub.session (ask (.resolveEvent asOf)) h =
      (match h.tables.resolveEvent asOf with
        | some e => .ok e
        | none => .error (SyncError.eventNotFound asOf.display).toFailure, h) := by
  rw [outcome_ask, Hub.session]
  rcases h.tables.resolveEvent asOf with _ | e <;> rfl

/-! ### Single stages -/

lemma outcome_checkPermission (h : Hub) :
    outcome Hub.session checkPermission h =
      (if h.tables.hasPerm h.user "admin" || h.tables.hasPerm h.user "tag" then .ok ()
        else .error SyncError.permissionDenied.toFailure, h) := by
  refine (outcome_bind_of_ok (outcome_hasPerm h "admin")).trans ?_
  rcases h.tables.hasPerm h.user "admin" with _ | _
  · refine (outcome_bind_of_ok (outcome_hasPerm h "tag")).trans ?_
    rcases h.tables.hasPerm h.user "tag" with _ | _ <;> rfl
  · rfl

lemma outcome_checkLock (h : Hub) (tag : TagInfo) (flags : CallFlags) :
    outcome Hub.session (checkLock tag flags) h =
      (if tag.isLocked && !flags.force then .error (SyncError.tagLocked tag.name).toFailure
        else .ok (), h) := by
  unfold checkLock
  split <;> rfl

lemma outcome_resolveTag (h : Hub) (tag : TagRef) (event : Option EventId) :
    outcome Hub.session (resolveTag tag event) h =
      (match h.tables.getTag tag event with
        | some t => .ok t
        | none => .error (SyncError.tagNotFound tag.display).toFailure, h) := by
  refine (outcome_bind_of_ok (outcome_getTag h tag event)).trans ?_
  rcases h.tables.getTag tag event with _ | t <;> rfl

lemma outcome_pinEvent (h : Hub) (o : CloneOptions) :
    ∃ r, outcome Hub.session (pinEvent o) h = (r, h) ∧
      ∀ e, r = .ok e ↔ h.tables.pinned? o.asOf = some e := by
  unfold pinEvent Tables.pinned?
  rcases o.asOf with _ | asOf
  · exact ⟨.ok none, rfl, fun e => by simp⟩
  · dsimp only
    rcases he : h.tables.resolveEvent asOf with _ | e
    · refine ⟨.error (SyncError.eventNotFound asOf.display).toFailure, ?_, fun e => by simp⟩
      exact outcome_bind_of_error (by rw [outcome_resolveEvent, he])
    · refine ⟨.ok (some e), ?_, fun e => by simp⟩
      exact outcome_bind_of_ok (by rw [outcome_resolveEvent, he])

/-! ### The checks -/

/-- What a run looks up before it looks for its destination. -/
def lookUp (o : CloneOptions) : Dialog (BatchSize × Option EventInfo × TagInfo) := do
  let size ← ExceptT.mk (pure ((checkOptions o).mapError SyncError.toFailure))
  checkPermission
  let event ← pinEvent o
  let src ← resolveTag o.src (event.map EventInfo.id)
  checkLock src o.flags
  return (size, event, src)

/-- What a run does once its tags are known. -/
def proceed (id : String) (o : CloneOptions) (size : BatchSize) (event : Option EventInfo)
    (src dst : TagInfo) (destination : DestinationState) : Dialog CloneResult := do
  let plan ← reconcile o (event.map EventInfo.id) src dst destination
  let report := if o.verbose then some plan.report else none
  let applied ← if o.dryRun then pure none else some <$> plan.apply dst.id size o.flags
  return { requestId := id, event, src, dst, destination, plan, report, applied,
           dryRun := o.dryRun }

lemma stages_eq (id : String) (o : CloneOptions) :
    stages id o = lookUp o >>= fun (size, event, src) =>
      findDestination o src >>= fun (dst, destination) =>
        proceed id o size event src dst destination := by
  simp only [stages, lookUp, proceed, bind_assoc, pure_bind]

/-- What a run has found out when its checks are passed. -/
structure LookedUp (o : CloneOptions) (h : Hub) (size : BatchSize) (event : Option EventInfo)
    (src : TagInfo) : Prop where
  options : checkOptions o = .ok size
  allowed : (h.tables.hasPerm h.user "admin" || h.tables.hasPerm h.user "tag") = true
  pinned : h.tables.pinned? o.asOf = some event
  source : h.tables.getTag o.src (event.map EventInfo.id) = some src
  unlocked : (src.isLocked && !o.flags.force) = false

/-- Builds are never selected without packages. -/
lemma LookedUp.selects (hl : LookedUp o h size event src) :
    o.selection.builds = true → o.selection.packages = true := by
  intro hbuilds
  by_contra hpackages
  have hoptions := hl.options
  unfold checkOptions at hoptions
  rw [hbuilds, Bool.eq_false_iff.mpr hpackages] at hoptions
  by_cases hsame : o.src = o.dst
  · rw [if_pos hsame] at hoptions
    cases hoptions
  · rw [if_neg hsame] at hoptions
    rcases hsize : BatchSize.ofInt o.batch with e | size <;> rw [hsize] at hoptions <;>
      cases hoptions

lemma readOnly_lookUp (o : CloneOptions) : ReadOnly Hub.session (lookUp o) := by
  refine .bind (fun _ => rfl) fun size => .bind (fun h => ?_) fun _ => .bind (fun h => ?_) fun e =>
    .bind (fun h => ?_) fun src => .bind (fun h => ?_) fun _ => .pure _
  · rw [outcome_checkPermission]
  · obtain ⟨r, hr, -⟩ := outcome_pinEvent h o
    rw [hr]
  · rw [outcome_resolveTag]
  · rw [outcome_checkLock]

/-- A run passes its checks when everything is as it should be. -/
theorem outcome_lookUp_eq_ok {h' : Hub} :
    outcome Hub.session (lookUp o) h = (.ok (size, event, src), h') ↔
      LookedUp o h size event src ∧ h' = h := by
  obtain ⟨pin, hpin, hevent⟩ := outcome_pinEvent h o
  have hoptions : ∀ size, (checkOptions o).mapError SyncError.toFailure = .ok size ↔
      checkOptions o = .ok size := by
    intro size
    cases checkOptions o <;> simp [Except.mapError]
  simp only [lookUp, outcome_bind_eq_ok_of (outcome_mk_pure _), hoptions,
    outcome_bind_eq_ok_of (outcome_checkPermission h), outcome_bind_eq_ok_of hpin, hevent,
    outcome_bind_eq_ok_of (outcome_resolveTag h _ _),
    outcome_bind_eq_ok_of (outcome_checkLock h _ _), outcome_pure, Prod.mk.injEq, Except.ok.injEq]
  constructor
  · rintro ⟨size, hsize, _, hallowed, event, hpinned, src, hsrc, _, hlock, ⟨rfl, rfl, rfl⟩, rfl⟩
    refine ⟨⟨hsize, ?_, hpinned, ?_, ?_⟩, rfl⟩
    · split at hallowed
      · assumption
      · cases hallowed
    · split at hsrc
      · cases hsrc
        assumption
      · cases hsrc
    · split at hlock
      · cases hlock
      · rename_i hunlocked
        exact Bool.eq_false_iff.mpr hunlocked
  · rintro ⟨hl, rfl⟩
    refine ⟨size, hl.options, (), if_pos hl.allowed, event, hl.pinned, src, ?_, (), ?_,
      ⟨rfl, rfl, rfl⟩, rfl⟩
    · rw [hl.source]
    · rw [hl.unlocked]
      rfl

/-! ### The destination -/

/-- A destination that exists must neither be locked nor be the source. -/
lemma outcome_findDestination (found : h.tables.getTag o.dst none = some dst) (src : TagInfo) :
    outcome Hub.session (findDestination o src) h =
      (if dst.isLocked && !o.flags.force then .error (SyncError.tagLocked dst.name).toFailure
        else if src.id = dst.id then .error (SyncError.sameTag src.name).toFailure
        else .ok (dst, .existing), h) := by
  have hask : outcome Hub.session (ask (.getTag o.dst none)) h = (.ok (some dst), h) := by
    rw [outcome_getTag, found]
  refine (outcome_bind_of_ok hask).trans ?_
  by_cases hlock : (dst.isLocked && !o.flags.force) = true
  · rw [if_pos hlock]
    refine outcome_bind_of_error ?_
    rw [outcome_checkLock, if_pos hlock]
  · have hcheck : outcome Hub.session (checkLock dst o.flags) h = (.ok (), h) := by
      rw [outcome_checkLock, if_neg hlock]
    rw [if_neg hlock]
    refine (outcome_bind_of_ok hcheck).trans ?_
    by_cases hsame : src.id = dst.id <;> simp [hsame]

/-- How a run that may write comes to its destination: it is there, or it is made. -/
inductive Found (o : CloneOptions) (h : Hub) (src : TagInfo) : TagInfo → Hub → Prop where
  | existing {dst : TagInfo} (found : h.tables.getTag o.dst none = some dst)
      (unlocked : (dst.isLocked && !o.flags.force) = false) (apart : src.id ≠ dst.id) :
    Found o h src dst h
  | created {name : String} (byName : o.dst = .byName name)
      (missing : h.tables.tagNamed? name = none) (closed : h.before = none)
      (selected : o.selection.config = true) :
    Found o h src ⟨h.tables.tags.length + 1, name, src.config⟩
      { h with tables := h.tables.withTag h.clock name src.config }

lemma outcome_createTag {name : String} (missing : h.tables.tagNamed? name = none)
    (closed : h.before = none) (config : TagConfig) :
    outcome Hub.session (ask (.createTag name config)) h =
      (.ok ⟨h.tables.tags.length + 1, name, config⟩,
        { h with tables := h.tables.withTag h.clock name config }) := by
  have hmade : h.createTag name config =
      (.ok (⟨h.tables.tags.length + 1, name, config⟩, h.tables.events.length + 1),
        { h with tables := h.tables.withTag h.clock name config }) := by
    simp only [Hub.createTag, missing, Hub.transact, closed, Option.isSome_none]
    rfl
  rw [outcome_ask, Hub.session, hmade]

lemma outcome_createTag_of_open {name : String} (missing : h.tables.tagNamed? name = none)
    (opened : h.before ≠ none) (config : TagConfig) :
    outcome Hub.session (ask (.createTag name config)) h =
      (.error (Hub.storageFailure "cannot start a transaction within a transaction"), h) := by
  have hfails : h.createTag name config = (.error (Hub.storageFailure
      "cannot start a transaction within a transaction"), h) := by
    simp [Hub.createTag, missing, Hub.transact, Option.isSome_iff_ne_none.mpr opened]
  exact (outcome_ask _).trans (by rw [Hub.session, hfails])

lemma found_of_createDestination (ht : h.tables.Sound) (wet : o.dryRun = false)
    (missing : h.tables.getTag o.dst none = none)
    (hrun : outcome Hub.session (createDestination o src) h = (.ok (dst, state), mid)) :
    Found o h src dst mid ∧ state = .created := by
  unfold createDestination at hrun
  rcases hdst : o.dst with id | name
  · rw [hdst] at hrun
    cases hrun
  have hmissing : h.tables.tagNamed? name = none := by
    rwa [hdst, Tables.getTag_none, Option.map_eq_none_iff] at missing
  rcases hselected : o.selection.config with _ | _
  · simp [hdst, hselected] at hrun
  rw [hdst, hselected, wet] at hrun
  dsimp only at hrun
  rw [if_neg (by decide), if_neg (by decide)] at hrun
  by_cases closed : h.before = none
  · have hmade := outcome_createTag hmissing closed src.config
    obtain ⟨created, hcreated, hrun⟩ := (outcome_bind_eq_ok_of hmade).mp hrun
    cases hcreated
    obtain ⟨_, -, hrun⟩ := (outcome_bind_eq_ok_of (outcome_report _)).mp hrun
    obtain ⟨found, hfound, hrun⟩ := (outcome_bind_eq_ok_of (outcome_resolveTag _ _ _)).mp hrun
    rw [ht.getTag_withTag] at hfound
    cases hfound
    cases hrun
    exact ⟨.created hdst hmissing closed hselected, rfl⟩
  · have hfails := outcome_createTag_of_open hmissing closed src.config
    obtain ⟨created, hcreated, -⟩ := (outcome_bind_eq_ok_of hfails).mp hrun
    cases hcreated

/-- **Where a run ends up**: a destination that is there or was made. -/
theorem found_of_findDestination (ht : h.tables.Sound) (wet : o.dryRun = false)
    (hrun : outcome Hub.session (findDestination o src) h = (.ok (dst, state), mid)) :
    Found o h src dst mid ∧ state ≠ .wouldCreate := by
  rcases found : h.tables.getTag o.dst none with _ | tag
  · have hask : outcome Hub.session (ask (.getTag o.dst none)) h = (.ok none, h) := by
      rw [outcome_getTag, found]
    obtain ⟨_, hnone, hrun⟩ := (outcome_bind_eq_ok_of hask).mp hrun
    cases hnone
    obtain ⟨⟨dst', state'⟩, mid', hcreate, hrun⟩ := outcome_bind_eq_ok.mp hrun
    obtain ⟨hfound, rfl⟩ := found_of_createDestination ht wet found hcreate
    dsimp only at hrun
    split at hrun
    · cases hrun
    · cases hrun
      exact ⟨hfound, nofun⟩
  · rw [outcome_findDestination found] at hrun
    split at hrun
    · cases hrun
    · split at hrun
      · cases hrun
      · rename_i hlock hsame
        cases hrun
        exact ⟨.existing found (Bool.eq_false_iff.mpr hlock) hsame, nofun⟩

/-- A run has to make its destination, and may do so. -/
structure Makes (o : CloneOptions) (h : Hub) (name : String) : Prop where
  byName : o.dst = .byName name
  missing : h.tables.tagNamed? name = none
  selected : o.selection.config = true

lemma Makes.getTag_eq_none {name : String} (makes : Makes o h name) :
    h.tables.getTag o.dst none = none := by
  rw [makes.byName, Tables.getTag_none, Tables.row?, makes.missing, Option.map_none]

/-- A dry run takes an empty tag for the one that is to be made. -/
lemma Makes.outcome_findDestination {name : String} (makes : Makes o h name)
    (dry : o.dryRun = true) (src : TagInfo) :
    outcome Hub.session (findDestination o src) h =
      (.ok (.planned name src.config, .wouldCreate), h) := by
  have hask : outcome Hub.session (ask (.getTag o.dst none)) h = (.ok none, h) := by
    rw [outcome_getTag, makes.getTag_eq_none]
  refine (outcome_bind_of_ok hask).trans ?_
  simp [createDestination, makes.byName, makes.selected, dry]

/-! ### The plan and what becomes of it -/

/-- The plan of a run for two tags that are there. -/
def planOn (o : CloneOptions) (t : Tables) (event : Option EventId) (src dst : TagInfo) : Plan :=
  t.planFor dst (t.snapshot src event (.source o.selection o.inheritBuilds o.latestOnly))
    o.selection o.diffOptions

lemma planOn_config (o : CloneOptions) (t : Tables) (event : Option EventId)
    (src dst : TagInfo) :
    (planOn o t event src dst).config =
      if o.selection.config then Diff.config src dst else none := rfl

/-- Settings are only planned where there are others. -/
lemma ne_of_planOn_config {t : Tables} {m : Option EventId} {config : TagConfig}
    (hplan : (planOn o t m src dst).config = some config) : config ≠ dst.config := by
  rw [planOn_config] at hplan
  split at hplan
  · rw [Diff.config] at hplan
    split at hplan
    · cases hplan
    · cases hplan
      assumption
  · cases hplan

section

variable (ht : h.tables.Sound) (hsrc : (h.tables.tag? src.id).isSome)
  (hdst : (h.tables.tag? dst.id).isSome) (hstate : state ≠ .wouldCreate)

include ht hsrc hdst hstate

lemma outcome_reconcile (event : Option EventId) :
    outcome Hub.session (reconcile o event src dst state) h =
      (.ok (planOn o h.tables event src dst), h) := by
  refine (outcome_bind_of_ok (Hub.outcome_fetch ht hsrc _ _)).trans ?_
  rw [if_neg hstate]
  refine (outcome_bind_of_ok (Hub.outcome_fetch ht hdst _ _)).trans ?_
  rfl

/-- What a run reports about a plan and what became of it. -/
def conclude (id : String) (o : CloneOptions) (event : Option EventInfo) (src dst : TagInfo)
    (destination : DestinationState) (plan : Plan) (applied : Option ApplyReport) : CloneResult :=
  { requestId := id, event, src, dst, destination, plan, applied, dryRun := o.dryRun
    report := if o.verbose then some plan.report else none }

lemma outcome_proceed (id : String) (size : BatchSize) (event : Option EventInfo) :
    let plan := planOn o h.tables (event.map EventInfo.id) src dst
    outcome Hub.session (proceed id o size event src dst state) h =
      if o.dryRun then (.ok (conclude id o event src dst state plan none), h)
      else
        match outcome Hub.session (plan.apply dst.id size o.flags) h with
        | (.ok a, h') => (.ok (conclude id o event src dst state plan (some a)), h')
        | (.error e, h') => (.error e, h') := by
  refine (outcome_bind_of_ok (outcome_reconcile ht hsrc hdst hstate _)).trans ?_
  by_cases hdry : o.dryRun = true
  · simp [hdry, conclude]
  · simp only [hdry, if_false, outcome_bind, outcome_map, Bool.false_eq_true]
    rcases outcome Hub.session _ h with ⟨e | a, h'⟩
    · rfl
    · simp [conclude, hdry]

end

/-! ### Whole runs -/

/-- A destination that is there: the run goes on with it. -/
lemma outcome_stages (id : String) (hl : LookedUp o h size event src)
    (found : h.tables.getTag o.dst none = some dst)
    (unlocked : (dst.isLocked && !o.flags.force) = false) (apart : src.id ≠ dst.id) :
    outcome Hub.session (stages id o) h =
      outcome Hub.session (proceed id o size event src dst .existing) h := by
  rw [stages_eq]
  refine (outcome_bind_of_ok (outcome_lookUp_eq_ok.mpr ⟨hl, rfl⟩)).trans ?_
  have hdst : outcome Hub.session (findDestination o src) h = (.ok (dst, .existing), h) := by
    rw [outcome_findDestination found, unlocked, if_neg apart]
    rfl
  dsimp only
  rw [outcome_bind_of_ok hdst]

namespace Found

variable (hf : Found o h src dst mid)

include hf

lemma keeps : mid.user = h.user ∧ mid.clock = h.clock ∧ mid.before = h.before := by
  cases hf <;> exact ⟨rfl, rfl, rfl⟩

lemma reachable (hr : h.Reachable) : mid.Reachable := by
  cases hf with
  | existing => exact hr
  | @created name byName missing closed selected =>
    have hmade := outcome_createTag missing closed src.config
    rw [outcome_ask, Prod.mk.injEq] at hmade
    rw [← hmade.2]
    exact hr.request _

lemma getTag_destination (hr : h.Reachable) :
    mid.tables.getTag (.byId dst.id) none = some dst := by
  cases hf with
  | existing found => exact hr.sound.getTag_byId found
  | created => exact hr.sound.getTag_withTag ..

lemma isSome_tag? {id : TagId} (h : (h.tables.tag? id).isSome) : (mid.tables.tag? id).isSome := by
  cases hf with
  | existing => exact h
  | created =>
    rw [Tables.tag?] at h ⊢
    rw [Tables.tags_withTag, List.find?_append]
    simp [h]

end Found

/-- **What a run has done** that succeeds and may write. -/
theorem exists_of_stages (hr : h.Reachable) (wet : o.dryRun = false) {h' : Hub} {r : CloneResult}
    (hrun : outcome Hub.session (stages id o) h = (.ok r, h')) :
    ∃ size event src dst state mid a, LookedUp o h size event src ∧ Found o h src dst mid ∧
      let plan := planOn o mid.tables (event.map EventInfo.id) src dst
      r = conclude id o event src dst state plan (some a) ∧
        outcome Hub.session (plan.apply dst.id size o.flags) mid = (.ok a, h') := by
  rw [stages_eq] at hrun
  obtain ⟨⟨size, event, src⟩, h₁, hlook, hrest⟩ := outcome_bind_eq_ok.mp hrun
  obtain ⟨hl, rfl⟩ := outcome_lookUp_eq_ok.mp hlook
  obtain ⟨⟨dst, state⟩, mid, hdst, hproceed⟩ := outcome_bind_eq_ok.mp hrest
  obtain ⟨hf, hstate⟩ := found_of_findDestination hr.sound wet hdst
  refine ⟨size, event, src, dst, state, mid, ?_⟩
  have hsrc := hf.isSome_tag? (hr.sound.isSome_tag?_of_getTag hl.source)
  have hid := (hf.reachable hr).sound.isSome_tag?_of_getTag (hf.getTag_destination hr)
  dsimp only at hproceed
  rw [outcome_proceed (hf.reachable hr).sound hsrc hid hstate] at hproceed
  simp only [wet, Bool.false_eq_true, if_false] at hproceed
  split at hproceed
  · rename_i a h'' happly
    cases hproceed
    exact ⟨a, hl, hf, rfl, happly⟩
  · cases hproceed

/-- The end of a run, with its report. -/
def ending (c : RunContext) : Except Failure CloneResult → Script (Except Failure CloneResult)
  | .ok r =>
    Script.report (.runEnded c.requestId r.plan.operationCount r.faultCount) (.done (.ok r))
  | .error f =>
    Script.report (.runFailed c.requestId (inContext c f)) (.done (.error (inContext c f)))

/-- A run reports its start and its end, and a failure bears its names. -/
lemma run_eq (c : RunContext) (o : CloneOptions) (h : Hub) :
    ((run c o).run Hub.session h).result =
        (outcome Hub.session (stages c.requestId o) h).1.mapError (inContext c) ∧
      ((run c o).run Hub.session h).state =
        (outcome Hub.session (stages c.requestId o) h).2 := by
  obtain ⟨hresult, hstate⟩ :=
    Script.run_bind Hub.session (stages c.requestId o).run (ending c) h
  have hrun : run c o = Script.report (.runStarted c.requestId o.src o.dst o.dryRun)
      ((stages c.requestId o).run >>= ending c) := rfl
  rw [hrun]
  simp only [Script.run, Outcome.after, hresult, hstate, outcome]
  rcases (Script.run Hub.session (stages c.requestId o).run h).result with e | r <;>
    exact ⟨rfl, rfl⟩

/-- What a run returns can be tried out. -/
lemma exists_result {c : RunContext} {p : CloneResult → Bool}
    (hp : (((run c o).run Hub.session h).result.toOption.any p) = true) :
    ∃ r, ((run c o).run Hub.session h).result = .ok r ∧ p r = true := by
  rcases hresult : ((run c o).run Hub.session h).result with e | r
  · rw [hresult] at hp
    cases hp
  · rw [hresult] at hp
    exact ⟨r, rfl, hp⟩

/-- **A run succeeds** when its destination is there and its plan leaves the settings alone. -/
theorem exists_run (ht : h.tables.Sound) (hl : LookedUp o h size event src)
    (found : h.tables.getTag o.dst none = some dst)
    (unlocked : (dst.isLocked && !o.flags.force) = false) (apart : src.id ≠ dst.id)
    (wet : o.dryRun = false)
    (keeps : (planOn o h.tables (event.map EventInfo.id) src dst).config = none)
    (c : RunContext) :
    ∃ r, ((run c o).run Hub.session h).result = .ok r ∧
      r.plan = planOn o h.tables (event.map EventInfo.id) src dst := by
  have hsrc := ht.isSome_tag?_of_getTag hl.source
  have hdst := ht.isSome_tag?_of_getTag found
  have hexisting : DestinationState.existing ≠ .wouldCreate := nofun
  have hstages := (outcome_stages c.requestId hl found unlocked apart).trans
    (outcome_proceed ht hsrc hdst hexisting c.requestId size event)
  simp only [wet, Bool.false_eq_true, if_false, outcome_apply o.flags (ht.getTag_byId found),
    keeps] at hstages
  have hresult := (run_eq c o h).1
  rw [hstages] at hresult
  exact ⟨_, hresult, rfl⟩

end Clone

end TagSync
