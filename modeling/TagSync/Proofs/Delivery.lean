import TagSync.Plan.Apply
import TagSync.Proofs.Reachable

/-!
Sending a plan to a hub.

However a plan is cut into requests, the hub answers its calls as if they came in one request
(`Hub.answers`), and the report counts these answers.
-/

namespace TagSync

/-! ### Pieces -/

lemma flatten_chunks {α : Type} (n : Nat) (l : List α) : (chunks n l).flatten = l := by
  fun_induction chunks n l with
  | case1 => rfl
  | case2 a rest ih => rw [List.flatten_cons, ih, List.cons_append, List.take_append_drop]

lemma Plan.flatMap_batches (p : Plan) (size : BatchSize) :
    (p.batches size).flatMap Batch.operations = p.operations := by
  have hclass : ∀ dispatch c, ((chunks size.calls (p.ofClass c)).map fun ops =>
      (⟨c, dispatch, ops⟩ : Batch)).flatMap Batch.operations = p.ofClass c := by
    intro dispatch c
    rw [List.flatMap_map]
    exact (List.flatMap_id' ..).trans (flatten_chunks _ _)
  simp only [batches, EntityClass.all, List.flatMap_cons, List.flatMap_nil, List.flatMap_append,
    hclass, List.append_nil]
  simp only [operations, ofClass, List.append_assoc]

namespace Hub

variable {h : Hub} {tag : TagInfo} {flags : CallFlags} {operations : List Operation}

/-! ### The answers of a hub -/

/-- The results of some calls for a tag, and the hub after them. -/
def answers (h : Hub) (tag : TagInfo) (flags : CallFlags) (operations : List Operation) :
    List CallResult × Hub :=
  if h.mayWrite tag then h.callAll tag flags operations
  else (operations.map fun _ => .error (mayNotModify h.user tag), h)

lemma callOne_of_ok {o : Operation} {t : Tables} (ht : h.tables.call h.clock tag flags o = .ok t) :
    h.callOne tag flags o = (.ok (), { h with tables := t }) := by
  unfold callOne
  rw [ht]

lemma callOne_of_error {o : Operation} {fault : RemoteFault}
    (ht : h.tables.call h.clock tag flags o = .error fault) :
    h.callOne tag flags o = (.error fault, { h with before := some h.durable }) := by
  unfold callOne
  rw [ht]

lemma length_callAll (h : Hub) (tag : TagInfo) (flags : CallFlags)
    (operations : List Operation) :
    (h.callAll tag flags operations).1.length = operations.length := by
  induction operations generalizing h with
  | nil => rfl
  | cons o rest ih => simp [callAll, ih]

lemma length_answers (h : Hub) (tag : TagInfo) (flags : CallFlags)
    (operations : List Operation) :
    (h.answers tag flags operations).1.length = operations.length := by
  unfold answers
  split
  · exact length_callAll ..
  · simp

/-- Calls change nothing but the tag they are for. -/
theorem confined_callAll (h : Hub) (tag : TagInfo) (flags : CallFlags)
    (operations : List Operation) :
    h.tables.Confined h.clock tag.id (h.callAll tag flags operations).2.tables ∧
      (h.callAll tag flags operations).2.tables.tags = h.tables.tags := by
  induction operations generalizing h with
  | nil => exact ⟨.refl .., rfl⟩
  | cons o rest ih =>
    rcases hcall : h.tables.call h.clock tag flags o with fault | t
    · simp only [callAll, callOne_of_error hcall]
      exact ih { h with before := some h.durable }
    · simp only [callAll, callOne_of_ok hcall]
      obtain ⟨hconfined, htags⟩ := ih { h with tables := t }
      exact ⟨(Tables.confined_of_call hcall).trans hconfined,
        htags.trans (Tables.tags_of_call hcall)⟩

theorem confined_answers (h : Hub) (tag : TagInfo) (flags : CallFlags)
    (operations : List Operation) :
    h.tables.Confined h.clock tag.id (h.answers tag flags operations).2.tables ∧
      (h.answers tag flags operations).2.tables.tags = h.tables.tags := by
  unfold answers
  split
  · exact confined_callAll ..
  · exact ⟨.refl .., rfl⟩

lemma answers_keeps (h : Hub) (tag : TagInfo) (flags : CallFlags) (operations : List Operation) :
    (h.answers tag flags operations).2.user = h.user ∧
      (h.answers tag flags operations).2.clock = h.clock := by
  unfold answers
  split
  · exact callAll_keeps ..
  · exact ⟨rfl, rfl⟩

/-- Calls do not change who may write to a tag. -/
lemma mayWrite_answers (h : Hub) (tag tag' : TagInfo) (flags : CallFlags)
    (operations : List Operation) :
    (h.answers tag flags operations).2.mayWrite tag' = h.mayWrite tag' := by
  have hconfined := (h.confined_answers tag flags operations).1
  have hperm : (h.answers tag flags operations).2.tables.hasPerm = h.tables.hasPerm := by
    funext user perm
    rw [Tables.hasPerm, Tables.hasPerm, hconfined.users, hconfined.perms]
  unfold mayWrite
  rw [hperm, (h.answers_keeps tag flags operations).1]

lemma getTag_answers (h : Hub) (tag : TagInfo) (flags : CallFlags) (operations : List Operation) :
    (h.answers tag flags operations).2.tables.getTag = h.tables.getTag :=
  Tables.getTag_congr (h.confined_answers tag flags operations).2

lemma callAll_append (h : Hub) (tag : TagInfo) (flags : CallFlags) (l l' : List Operation) :
    h.callAll tag flags (l ++ l') =
      ((h.callAll tag flags l).1 ++ ((h.callAll tag flags l).2.callAll tag flags l').1,
        ((h.callAll tag flags l).2.callAll tag flags l').2) := by
  induction l generalizing h with
  | nil => rfl
  | cons o rest ih => simp only [List.cons_append, callAll, ih]

/-- Calls in two parts are answered as in one. -/
lemma answers_append (h : Hub) (tag : TagInfo) (flags : CallFlags) (l l' : List Operation) :
    h.answers tag flags (l ++ l') =
      ((h.answers tag flags l).1 ++ ((h.answers tag flags l).2.answers tag flags l').1,
        ((h.answers tag flags l).2.answers tag flags l').2) := by
  have hmay := h.mayWrite_answers tag tag flags l
  rcases hwrite : h.mayWrite tag with _ | _
  · rw [hwrite] at hmay
    simp only [answers, hwrite, Bool.false_eq_true, if_false, List.map_append]
  · have hfirst : h.answers tag flags l = h.callAll tag flags l := by
      unfold answers
      rw [if_pos hwrite]
    rw [hfirst, hwrite] at hmay
    simp only [answers, hwrite, if_true, callAll_append, hmay]

/-- A request for a tag that exists is answered call by call. -/
lemma multicall_eq {id : TagId} (found : h.tables.getTag (.byId id) none = some tag)
    (operations : List Operation) (flags : CallFlags) :
    (h.multicall id operations flags).answer = .ok (h.answers tag flags operations).1 ∧
      (h.multicall id operations flags).state = (h.answers tag flags operations).2 := by
  simp only [multicall, found, answers]
  split <;> exact ⟨rfl, rfl⟩

/-- A call that is accepted was carried out. -/
lemma call_of_answers {o : Operation} (accepted : (h.answers tag flags [o]).1 = [.ok ()]) :
    ∃ t, h.tables.call h.clock tag flags o = .ok t ∧
      (h.answers tag flags [o]).2 = { h with tables := t } := by
  unfold answers at accepted ⊢
  split at accepted
  · rename_i hmay
    rw [if_pos hmay]
    rcases hcall : h.tables.call h.clock tag flags o with fault | t
    · simp only [callAll, callOne_of_error hcall] at accepted
      cases accepted
    · simp only [callAll, callOne_of_ok hcall]
      exact ⟨t, rfl, rfl⟩
  · cases accepted

/-- An accepted call at the end of a request was carried out on what the calls before it left. -/
lemma call_of_multicall {id : TagId} {o : Operation} {results : List CallResult}
    (accepted : (h.multicall id (operations ++ [o]) flags).answer = .ok (results ++ [.ok ()])) :
    ∃ tag t, h.tables.getTag (.byId id) none = some tag ∧ tag.id = id ∧
      (h.answers tag flags operations).2.tables.call h.clock tag flags o = .ok t ∧
      (h.multicall id (operations ++ [o]) flags).state =
        { (h.answers tag flags operations).2 with tables := t } := by
  rcases found : h.tables.getTag (.byId id) none with _ | tag
  · simp only [multicall, found] at accepted
    cases accepted
  have hid := Tables.id_of_getTag found
  obtain ⟨hanswer, hstate⟩ := multicall_eq found (operations ++ [o]) flags
  have hresults : (h.answers tag flags (operations ++ [o])).1 = results ++ [.ok ()] :=
    Except.ok.inj (hanswer.symm.trans accepted)
  rw [answers_append] at hresults hstate
  obtain ⟨t, hcall, hlast⟩ := call_of_answers
    (List.append_inj_right' hresults (length_answers (h.answers tag flags operations).2 ..))
  rw [(h.answers_keeps tag flags operations).2] at hcall
  exact ⟨tag, t, rfl, hid, hcall, hstate.trans hlast⟩

end Hub

/-! ### Delivery -/

section

open Dialog

variable {h : Hub} {tag : TagInfo} {flags : CallFlags} {dest : TagId}
  (found : h.tables.getTag (.byId dest) none = some tag)

include found

lemma outcome_multicall (operations : List Operation) :
    outcome Hub.session (ask (.multicall dest operations flags)) h =
      (.ok (h.answers tag flags operations).1, (h.answers tag flags operations).2) := by
  obtain ⟨hanswer, hstate⟩ := Hub.multicall_eq found operations flags
  rw [outcome_ask]
  exact Prod.ext hanswer hstate

lemma outcome_call (o : Operation) :
    ∃ result, (h.answers tag flags [o]).1 = [result] ∧
      outcome Hub.session (call dest flags o) h = (.ok result, (h.answers tag flags [o]).2) := by
  obtain ⟨result, hresult⟩ := List.length_eq_one_iff.mp (h.length_answers tag flags [o])
  refine ⟨result, hresult, ?_⟩
  rw [call, outcome_bind, outcome_multicall found, hresult]
  rfl

lemma outcome_calls (operations : List Operation) :
    outcome Hub.session (operations.mapM (call dest flags)) h =
      (.ok (h.answers tag flags operations).1, (h.answers tag flags operations).2) := by
  induction operations generalizing h with
  | nil =>
    unfold Hub.answers
    split <;> rfl
  | cons o rest ih =>
    obtain ⟨result, hresult, houtcome⟩ : ∃ result, (h.answers tag flags [o]).1 = [result] ∧ _ :=
      outcome_call found o
    have hnext := ih (h := (h.answers tag flags [o]).2)
      (by rw [Hub.getTag_answers]; exact found)
    have happend := h.answers_append tag flags [o] rest
    rw [List.singleton_append, hresult] at happend
    rw [List.mapM_cons, outcome_bind, houtcome]
    dsimp only
    rw [outcome_bind, hnext, happend]
    rfl

/-- **However a request travels**, its calls are answered one by one. -/
theorem outcome_deliver (b : Batch) :
    outcome Hub.session (deliver dest flags b) h =
      (.ok (h.answers tag flags b.operations).1, (h.answers tag flags b.operations).2) := by
  have hlength := h.length_answers tag flags b.operations
  unfold deliver
  rcases b.dispatch with _ | _
  · refine (outcome_bind_of_ok (outcome_multicall found b.operations)).trans ?_
    exact congrArg (outcome Hub.session · _) (if_pos hlength)
  · refine (outcome_bind_of_ok (outcome_calls found b.operations)).trans ?_
    exact congrArg (outcome Hub.session · _) (if_pos hlength)

end

/-! ### The report -/

/-- The calls that were rejected. -/
def rejections (l : List (Operation × CallResult)) : List FailedOperation :=
  l.filterMap fun p =>
    match p.2 with
    | .ok () => none
    | .error fault => some ⟨p.1, fault⟩

/-- A report with the results of some more calls. -/
def ApplyReport.counting (r : ApplyReport) (l : List (Operation × CallResult)) : ApplyReport :=
  { r with
    applied := r.applied + (l.length - (rejections l).length)
    failed := r.failed ++ rejections l }

lemma length_rejections_le (l : List (Operation × CallResult)) :
    (rejections l).length ≤ l.length := List.length_filterMap_le ..

lemma rejections_append (l l' : List (Operation × CallResult)) :
    rejections (l ++ l') = rejections l ++ rejections l' := List.filterMap_append

lemma ApplyReport.counting_append (r : ApplyReport) (l l' : List (Operation × CallResult)) :
    r.counting (l ++ l') = (r.counting l).counting l' := by
  have := length_rejections_le l
  have := length_rejections_le l'
  simp only [counting, rejections_append, List.length_append, List.append_assoc,
    ApplyReport.mk.injEq, true_and, and_true]
  omega

lemma ApplyReport.counting_cons_ok (r : ApplyReport) (o : Operation)
    (l : List (Operation × CallResult)) :
    r.counting ((o, .ok ()) :: l) =
      ({ r with applied := r.applied + 1 } : ApplyReport).counting l := by
  rw [← List.singleton_append, r.counting_append]
  simp [counting, rejections]

lemma ApplyReport.counting_cons_error (r : ApplyReport) (o : Operation) (fault : RemoteFault)
    (l : List (Operation × CallResult)) :
    r.counting ((o, .error fault) :: l) =
      ({ r with failed := r.failed ++ [⟨o, fault⟩] } : ApplyReport).counting l := by
  rw [← List.singleton_append, r.counting_append]
  simp [counting, rejections]

lemma outcome_record {σ : Type} {session : Session σ} {s : σ} (r : ApplyReport)
    (l : List (Operation × CallResult)) :
    Dialog.outcome session (record r l) s = (.ok (r.counting l), s) := by
  induction l generalizing r with
  | nil => simp [record, ApplyReport.counting, rejections]
  | cons p rest ih =>
    obtain ⟨o, fault | u⟩ := p
    · simp only [record, Dialog.outcome_bind, Dialog.outcome_report, ih, r.counting_cons_error]
    · simp only [record, ih, r.counting_cons_ok]

lemma rejections_eq_nil_iff {operations : List Operation} {results : List CallResult}
    (h : results.length = operations.length) :
    rejections (operations.zip results) = [] ↔ ∀ r ∈ results, r = .ok () := by
  induction operations generalizing results with
  | nil =>
    obtain rfl := List.length_eq_zero_iff.mp h
    simp [rejections]
  | cons o rest ih =>
    obtain ⟨r, results, rfl⟩ := List.exists_cons_of_length_eq_add_one h
    have hlength : results.length = rest.length := by simpa using h
    have ih := ih hlength
    rcases r with fault | u
    · simp [rejections]
    · simpa [rejections] using ih

/-- The calls that were accepted. -/
def acceptances (l : List (Operation × CallResult)) : List Operation :=
  l.filterMap fun p =>
    match p.2 with
    | .ok () => some p.1
    | .error _ => none

lemma acceptances_eq_nil_iff {operations : List Operation} {results : List CallResult}
    (h : results.length = operations.length) :
    acceptances (operations.zip results) = [] ↔ ∀ r ∈ results, r ≠ .ok () := by
  induction operations generalizing results with
  | nil =>
    obtain rfl := List.length_eq_zero_iff.mp h
    simp [acceptances]
  | cons o rest ih =>
    obtain ⟨r, results, rfl⟩ := List.exists_cons_of_length_eq_add_one h
    have hlength : results.length = rest.length := by simpa using h
    have ih := ih hlength
    rcases r with fault | u
    · simpa [acceptances] using ih
    · simp [acceptances]

lemma length_acceptances_add (l : List (Operation × CallResult)) :
    (acceptances l).length + (rejections l).length = l.length := by
  induction l with
  | nil => rfl
  | cons p rest ih =>
    obtain ⟨o, fault | u⟩ := p
    · simp only [acceptances, rejections, List.filterMap_cons, List.length_cons] at ih ⊢
      omega
    · simp only [acceptances, rejections, List.filterMap_cons, List.length_cons] at ih ⊢
      omega

/-! ### Whole plans -/

/-- The report about the calls of a plan, and the hub after them. -/
def Plan.answered (p : Plan) (h : Hub) (tag : TagInfo) (size : BatchSize) (flags : CallFlags) :
    ApplyReport × Hub :=
  let answered := h.answers tag flags p.operations
  (({ roundTrips := (p.batches size).length } : ApplyReport).counting
    (p.operations.zip answered.1), answered.2)

section

variable {h : Hub} {tag : TagInfo} {dest : TagId} (flags : CallFlags)
  (found : h.tables.getTag (.byId dest) none = some tag)

include found

/-- **All requests for a tag that exists are answered**, and the report counts their calls. -/
theorem outcome_applyBatches (batches : List Batch) (r : ApplyReport) :
    let operations := batches.flatMap Batch.operations
    let answered := h.answers tag flags operations
    Dialog.outcome Hub.session (applyBatches dest flags batches r) h =
      (.ok (({ r with roundTrips := r.roundTrips + batches.length } : ApplyReport).counting
        (operations.zip answered.1)), answered.2) := by
  induction batches generalizing h r with
  | nil =>
    have hnil : h.answers tag flags [] = ([], h) := by
      unfold Hub.answers
      split <;> rfl
    simp [applyBatches, hnil, ApplyReport.counting, rejections]
  | cons b rest ih =>
    have hlength := h.length_answers tag flags b.operations
    have hnext := ih (h := (h.answers tag flags b.operations).2)
      (by rw [Hub.getTag_answers]; exact found)
    simp only [applyBatches, Dialog.outcome_bind, Dialog.outcome_tryCatch, outcome_deliver found,
      Dialog.outcome_report, outcome_record, hnext, List.flatMap_cons, Hub.answers_append,
      List.zip_append hlength.symm, ApplyReport.counting_append, List.length_cons]
    simp only [ApplyReport.counting, Nat.add_right_comm, Nat.add_assoc]

lemma outcome_apply_calls (p : Plan) (size : BatchSize) :
    Dialog.outcome Hub.session (applyBatches dest flags (p.batches size) {}) h =
      (.ok (p.answered h tag size flags).1, (p.answered h tag size flags).2) := by
  rw [outcome_applyBatches flags found, p.flatMap_batches]
  simp [Plan.answered]

/-- **What becomes of a plan**: its calls are answered, and the settings are copied last. -/
theorem outcome_apply (p : Plan) (size : BatchSize) :
    Dialog.outcome Hub.session (p.apply dest size flags) h =
      match p.config with
      | none => (.ok (p.answered h tag size flags).1, (p.answered h tag size flags).2)
      | some config =>
        match (p.answered h tag size flags).2.editTag dest config with
        | (.ok (), h') =>
          (.ok { (p.answered h tag size flags).1 with configUpdated := true }, h')
        | (.error e, h') => (.error e, h') := by
  rw [Plan.apply, Dialog.outcome_bind, outcome_apply_calls flags found]
  rcases p.config with _ | config
  · rfl
  · have hedit : ∀ h : Hub, Dialog.outcome Hub.session (Dialog.ask (.editTag dest config)) h =
        h.editTag dest config := fun h => Dialog.outcome_ask _
    dsimp only
    rcases hresult : (p.answered h tag size flags).2.editTag dest config with ⟨e | u, h'⟩
    · exact Dialog.outcome_bind_of_error ((hedit _).trans hresult)
    · exact Dialog.outcome_bind_of_ok ((hedit _).trans hresult)

end

/-! ### Plans that are taken as a whole -/

namespace Tables

/-- The tables with new settings of a tag, if there are any. -/
def copyConfig (t : Tables) (c : Clock) (d : TagId) : Option TagConfig → Tables
  | none => t
  | some config => ((t.setConfig d config).newEvent c).1

lemma confined_copyConfig (t : Tables) (c : Clock) (d : TagId) (config : Option TagConfig) :
    t.Confined c d (t.copyConfig c d config) := by
  cases config with
  | none => exact .refl ..
  | some config => exact (Confined.setConfig c d t config).trans (.newEvent ..)

lemma tags_copyConfig (t : Tables) (c : Clock) (d : TagId) (config : Option TagConfig) :
    (t.copyConfig c d config).tags = t.tags.map fun r =>
      if r.id = d then { r with config := config.getD r.config } else r := by
  cases config with
  | none => exact (map_settings_id d t.tags).symm
  | some config => rfl

@[simp] lemma own_copyConfig (t : Tables) (c : Clock) (d : TagId) (config : Option TagConfig) :
    (t.copyConfig c d config).own = t.own := by
  cases config <;> rfl

lemma packageRow?_copyConfig (t : Tables) (c : Clock) (d : TagId) (config : Option TagConfig) :
    (t.copyConfig c d config).packageRow? = t.packageRow? := by
  cases config <;> rfl

end Tables

/-- Settings are overwritten, or the hub stays as it is. -/
lemma Hub.editTag_cases (h : Hub) (id : TagId) (config : TagConfig) :
    (∃ e, h.editTag id config = (.error e, h)) ∨
      h.editTag id config =
        (.ok (), { h with tables := h.tables.copyConfig h.clock id (some config) }) := by
  unfold editTag transact
  split
  · exact .inl ⟨_, rfl⟩
  · split
    · rename_i t u hedit
      dsimp only at hedit
      split at hedit
      · cases hedit
        exact .inr rfl
      · cases hedit
    · exact .inl ⟨_, rfl⟩

section

variable {h h' : Hub} {tag : TagInfo} {flags : CallFlags} {operations : List Operation}

lemma callEach_of_callAll (hall : ∀ r ∈ (h.callAll tag flags operations).1, r = .ok ()) :
    ∃ t, h.tables.callEach h.clock tag flags operations = .ok t ∧
      (h.callAll tag flags operations).2 = { h with tables := t } := by
  induction operations generalizing h with
  | nil => exact ⟨h.tables, rfl, rfl⟩
  | cons o rest ih =>
    rcases hcall : h.tables.call h.clock tag flags o with fault | t₁
    · simp only [Hub.callAll, Hub.callOne_of_error hcall] at hall
      cases hall _ (.head _)
    · simp only [Hub.callAll, Hub.callOne_of_ok hcall] at hall ⊢
      obtain ⟨t, ht, hstate⟩ := ih fun r hr => hall r (.tail _ hr)
      exact ⟨t, Tables.callEach_cons_eq_ok.mpr ⟨t₁, hcall, ht⟩, hstate⟩

lemma callEach_of_answers (hall : ∀ r ∈ (h.answers tag flags operations).1, r = .ok ()) :
    ∃ t, h.tables.callEach h.clock tag flags operations = .ok t ∧
      (h.answers tag flags operations).2 = { h with tables := t } := by
  unfold Hub.answers at hall ⊢
  split
  · rename_i hmay
    simp only [hmay, if_true] at hall
    exact callEach_of_callAll hall
  · rename_i hmay
    rcases operations with _ | ⟨o, rest⟩
    · exact ⟨h.tables, rfl, rfl⟩
    · simp [hmay] at hall

/-- **A clean report means** that all calls of the plan were accepted, and that the settings
were copied. -/
theorem callEach_of_isClean {dest : TagId} (found : h.tables.getTag (.byId dest) none = some tag)
    {p : Plan} {size : BatchSize} {a : ApplyReport}
    (hrun : Dialog.outcome Hub.session (p.apply dest size flags) h = (.ok a, h'))
    (hclean : a.isClean) :
    ∃ t, h.tables.callEach h.clock tag flags p.operations = .ok t ∧
      h' = { h with tables := t.copyConfig h.clock dest p.config } := by
  have hcalls : (p.answered h tag size flags).1.isClean →
      ∃ t, h.tables.callEach h.clock tag flags p.operations = .ok t ∧
        (p.answered h tag size flags).2 = { h with tables := t } := by
    intro hclean
    simp only [ApplyReport.isClean, Plan.answered, ApplyReport.counting, List.nil_append,
      List.isEmpty_iff] at hclean
    exact callEach_of_answers ((rejections_eq_nil_iff (h.length_answers ..)).mp hclean)
  rw [outcome_apply flags found] at hrun
  rcases hconfig : p.config with _ | config
  · simp only [hconfig, Prod.mk.injEq, Except.ok.injEq] at hrun
    obtain ⟨rfl, rfl⟩ := hrun
    exact hcalls hclean
  · simp only [hconfig] at hrun
    rcases (p.answered h tag size flags).2.editTag_cases dest config with ⟨e, hedit⟩ | hedit <;>
      rw [hedit] at hrun <;> cases hrun
    obtain ⟨t, ht, hstate⟩ := hcalls hclean
    exact ⟨t, ht, by rw [hstate]⟩

end

end TagSync
