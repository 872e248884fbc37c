import TagSync.Proofs.Alike
import TagSync.Proofs.Taggings

/-!
Requests cut into portions, and requests without the calls that are rejected.

A hub works through the calls of a request one after the other and takes no notice of where the
request ends, so it does not matter how many requests the calls come in. A call that is rejected
leaves the tables as they are; it has no event, and no notice is filed about it. But it leaves a
transaction open, and what is accepted afterwards is lost with it.
-/

namespace TagSync

variable {α : Type}

/-! ### Rows that live on -/

namespace History

variable {h h' : History α} {event : EventId}

/-- All rows are still there; those that counted may have been revoked. -/
def LivesOn (h h' : History α) : Prop :=
  ∀ r ∈ h, ∃ r' ∈ h', r'.record = r.record ∧ r'.created = r.created ∧
    ∀ x, r.revoked = some x → r'.revoked = some x

namespace LivesOn

lemma refl (h : History α) : LivesOn h h := fun r hr => ⟨r, hr, rfl, rfl, fun _ => id⟩

lemma add (h : History α) (event : EventId) (a : α) : h.LivesOn (h.add event a) :=
  fun r hr => ⟨r, List.mem_append_left _ hr, rfl, rfl, fun _ => id⟩

lemma revoke (h : History α) (event : EventId) (p : α → Bool) : h.LivesOn (h.revoke event p) := by
  intro r hr
  refine ⟨_, List.mem_map_of_mem hr, record_ite_revoke event p r, created_ite_revoke event p r,
    fun x hx => ?_⟩
  split
  · exact Versioned.revoked_revoke_of_some hx
  · exact hx

end LivesOn

end History

/-! ### Notices -/

/-- The notice about an operation that is accepted at an event, if it is one to be told about. -/
def Operation.notice? (d : TagId) (event : EventId) : Operation → Option Notice
  | .tagBuild nvr => some ⟨d, nvr, .tagged, event⟩
  | .untagBuild nvr => some ⟨d, nvr, .untagged, event⟩
  | _ => none

/-- The notices about operations that are accepted at consecutive events. -/
def noticesOf (d : TagId) : EventId → List Operation → List Notice
  | _, [] => []
  | event, o :: rest => (o.notice? d event).toList ++ noticesOf d (event + 1) rest

namespace Tables

variable {c : Clock} {t t' : Tables} {tag : TagInfo} {flags : CallFlags} {event : EventId}
  {o : Operation} {operations : List Operation} {n : Notice}

/-- The event of a notice is the one at which a row of its build was made, or revoked. -/
def Stamped (t : Tables) (n : Notice) : Prop :=
  ∃ nvr b, Nvr.parse? n.nvr = some nvr ∧ t.buildNamed? nvr = some b ∧
    ∃ r ∈ t.taggings, r.record = ⟨n.tag, b.id⟩ ∧
      match n.kind with
      | .tagged => r.created = n.event
      | .untagged => r.revoked = some n.event

/-- What is stamped remains stamped. -/
lemma Stamped.livesOn (hn : t.Stamped n) (hbuilds : t'.builds = t.builds)
    (hrows : t.taggings.LivesOn t'.taggings) : t'.Stamped n := by
  obtain ⟨nvr, b, hparsed, hfound, r, hr, hrecord, hstamp⟩ := hn
  obtain ⟨r', hr', hrecord', hcreated, hrevoked⟩ := hrows r hr
  refine ⟨nvr, b, hparsed, by rwa [buildNamed?, hbuilds], r', hr', hrecord'.trans hrecord, ?_⟩
  rcases hkind : n.kind with _ | _ <;> rw [hkind] at hstamp
  · exact hcreated.trans hstamp
  · exact hrevoked _ hstamp

namespace CarriedOut

lemma notices (ho : CarriedOut t tag flags event o t') :
    t'.notices =
      t.notices ++ if flags.notify then (o.notice? tag.id event).toList else [] := by
  cases ho with
  | tagBuild | untagBuild =>
    unfold notifyIf
    split <;> simp [Operation.notice?, addNotice]
  | _ => simp [Operation.notice?, setPackage, setGroup]

lemma livesOn (ho : CarriedOut t tag flags event o t') : t.taggings.LivesOn t'.taggings := by
  cases ho with
  | tagBuild =>
    rw [taggings_notifyIf]
    exact .add _ event _
  | @untagBuild nvr m b =>
    rw [taggings_notifyIf]
    exact .revoke t.taggings event fun x => x.tag = tag.id && x.build = b.id
  | _ => exact .refl _

/-- **A notice bears the event stamped on its row.** -/
lemma stamped (ho : CarriedOut t tag flags event o t') (hn : o.notice? tag.id event = some n) :
    t'.Stamped n := by
  cases ho with
  | @tagBuild nvr m b parsed found listed free =>
    cases hn
    refine ⟨m, b, parsed, by rwa [buildNamed?, builds_notifyIf], ⟨⟨tag.id, b.id⟩, event, none⟩,
      ?_, rfl, rfl⟩
    rw [taggings_notifyIf]
    exact List.mem_append_right _ (.head _)
  | @untagBuild nvr m b parsed found tagged =>
    cases hn
    simp only [isTagged, History.hasActive, List.any_eq_true, Bool.and_eq_true,
      decide_eq_true_eq] at tagged
    obtain ⟨record, hrecord, htag, hbuild⟩ := tagged
    obtain ⟨r, hr, rfl⟩ := List.mem_map.mp hrecord
    obtain ⟨hmem, hactive⟩ := List.mem_filter.mp hr
    refine ⟨m, b, parsed, by rwa [buildNamed?, builds_notifyIf], r.revoke event, ?_, ?_, ?_⟩
    · rw [taggings_notifyIf]
      exact List.mem_map.mpr ⟨r, hmem, by simp [htag, hbuild]⟩
    · rw [History.record_revoke, ← htag, ← hbuild]
    · simp [Versioned.revoke, hactive]
  | _ => cases hn

end CarriedOut

/-! ### Calls that are all accepted -/

lemma length_events_of_call (h : t.call c tag flags o = .ok t') :
    t'.events.length = t.events.length + 1 := by
  rw [(call_eq_ok h).events]
  simp [newEvent]

/-- **Every accepted call has one event.** -/
lemma length_events_of_callEach (h : t.callEach c tag flags operations = .ok t') :
    t'.events.length = t.events.length + operations.length := by
  induction operations generalizing t with
  | nil =>
    cases h
    rfl
  | cons o rest ih =>
    obtain ⟨t₁, hcall, hrest⟩ := callEach_cons_eq_ok.mp h
    rw [ih hrest, length_events_of_call hcall, List.length_cons, Nat.add_right_comm, Nat.add_assoc]

/-- **Every accepted call that tags or untags a build is told about**, and no other. -/
lemma notices_of_callEach (h : t.callEach c tag flags operations = .ok t') :
    t'.notices = t.notices ++
      if flags.notify then noticesOf tag.id (t.events.length + 1) operations else [] := by
  induction operations generalizing t with
  | nil =>
    cases h
    simp [noticesOf]
  | cons o rest ih =>
    obtain ⟨t₁, hcall, hrest⟩ := callEach_cons_eq_ok.mp h
    rw [ih hrest, (call_eq_ok hcall).notices, length_events_of_call hcall, List.append_assoc]
    split
    · rfl
    · rfl

lemma Stamped.callEach (hn : t.Stamped n) (h : t.callEach c tag flags operations = .ok t') :
    t'.Stamped n := by
  induction operations generalizing t with
  | nil =>
    cases h
    exact hn
  | cons o rest ih =>
    obtain ⟨t₁, hcall, hrest⟩ := callEach_cons_eq_ok.mp h
    exact ih (hn.livesOn (confined_of_call hcall).builds (call_eq_ok hcall).livesOn) hrest

lemma stamped_of_callEach (h : t.callEach c tag flags operations = .ok t') :
    ∀ n ∈ noticesOf tag.id (t.events.length + 1) operations, t'.Stamped n := by
  induction operations generalizing t with
  | nil => nofun
  | cons o rest ih =>
    obtain ⟨t₁, hcall, hrest⟩ := callEach_cons_eq_ok.mp h
    intro n hn
    rcases List.mem_append.mp hn with hn | hn
    · have hstamped := (call_eq_ok hcall).stamped (Option.mem_toList.mp hn)
      exact hstamped.callEach hrest
    · refine ih hrest n ?_
      rwa [length_events_of_call hcall]

end Tables

/-! ### The calls that are accepted -/

namespace Hub

variable {h h' : Hub} {tag : TagInfo} {flags : CallFlags} {operations : List Operation}
  {t : Tables}

lemma callEach_of_accepted_callAll (h : Hub) (tag : TagInfo) (flags : CallFlags)
    (operations : List Operation) :
    h.tables.callEach h.clock tag flags
        (acceptances (operations.zip (h.callAll tag flags operations).1)) =
      .ok (h.callAll tag flags operations).2.tables := by
  induction operations generalizing h with
  | nil => rfl
  | cons o rest ih =>
    rcases hcall : h.tables.call h.clock tag flags o with fault | t
    · simp only [callAll, callOne_of_error hcall]
      exact ih { h with before := some h.durable }
    · simp only [callAll, callOne_of_ok hcall]
      exact Tables.callEach_cons_eq_ok.mpr ⟨t, hcall, ih { h with tables := t }⟩

/-- **Rejected calls leave the tables as they are**: these are made by the accepted ones. -/
theorem callEach_acceptances (h : Hub) (tag : TagInfo) (flags : CallFlags)
    (operations : List Operation) :
    h.tables.callEach h.clock tag flags
        (acceptances (operations.zip (h.answers tag flags operations).1)) =
      .ok (h.answers tag flags operations).2.tables := by
  unfold answers
  split
  · exact h.callEach_of_accepted_callAll tag flags operations
  · rw [(acceptances_eq_nil_iff (by simp)).mpr (by simp)]
    rfl

lemma callAll_of_callEach (h : Hub)
    (hcalls : h.tables.callEach h.clock tag flags operations = .ok t) :
    h.callAll tag flags operations = (operations.map fun _ => .ok (), { h with tables := t }) := by
  induction operations generalizing h with
  | nil =>
    cases hcalls
    rfl
  | cons o rest ih =>
    obtain ⟨t₁, hcall, hrest⟩ := Tables.callEach_cons_eq_ok.mp hcalls
    simp only [callAll, callOne_of_ok hcall, ih { h with tables := t₁ } hrest, List.map_cons]

/-- **The accepted calls are accepted on their own**, and leave the same tables. -/
theorem answers_acceptances (h : Hub) (tag : TagInfo) (flags : CallFlags)
    (operations : List Operation) :
    let accepted := acceptances (operations.zip (h.answers tag flags operations).1)
    h.answers tag flags accepted = (accepted.map fun _ => .ok (),
      { h with tables := (h.answers tag flags operations).2.tables }) := by
  intro accepted
  by_cases hmay : h.mayWrite tag = true
  · rw [answers, if_pos hmay]
    exact h.callAll_of_callEach (h.callEach_acceptances tag flags operations)
  · have hnone : accepted = [] := by
      simp only [accepted, answers, if_neg hmay]
      exact (acceptances_eq_nil_iff (by simp)).mpr (by simp)
    rw [hnone]
    simp only [answers, if_neg hmay]
    rfl

lemma length_events_answers (h : Hub) (tag : TagInfo) (flags : CallFlags)
    (operations : List Operation) :
    (h.answers tag flags operations).2.tables.events.length = h.tables.events.length +
      (acceptances (operations.zip (h.answers tag flags operations).1)).length :=
  Tables.length_events_of_callEach (h.callEach_acceptances tag flags operations)

lemma answers_take (h : Hub) (tag : TagInfo) (flags : CallFlags) (operations : List Operation)
    (n : Nat) :
    (h.answers tag flags (operations.take n)).1 =
      (h.answers tag flags operations).1.take n := by
  have happend := h.answers_append tag flags (operations.take n) (operations.drop n)
  rw [List.take_append_drop] at happend
  have hlength : (h.answers tag flags (operations.take n)).1.length =
      min n (h.answers tag flags operations).1.length := by
    rw [length_answers, length_answers, List.length_take]
  calc (h.answers tag flags (operations.take n)).1
      = (h.answers tag flags operations).1.take
          (h.answers tag flags (operations.take n)).1.length := by
        rw [happend]
        exact (List.take_left ..).symm
    _ = (h.answers tag flags operations).1.take n := by
        rw [hlength, ← List.take_eq_take_min]

/-! ### The transaction that a rejected call leaves open -/

/-- An open transaction stays open, and what was before it stays what it was. -/
lemma before_callAll_of_isSome (hopen : h.before.isSome) (tag : TagInfo) (flags : CallFlags)
    (operations : List Operation) :
    (h.callAll tag flags operations).2.before = h.before := by
  induction operations generalizing h with
  | nil => rfl
  | cons o rest ih =>
    rcases hcall : h.tables.call h.clock tag flags o with fault | t
    · have hsame : some h.durable = h.before := by
        obtain ⟨t, ht⟩ := Option.isSome_iff_exists.mp hopen
        rw [durable, ht, Option.getD_some]
      simp only [callAll, callOne_of_error hcall]
      exact (ih (h := { h with before := some h.durable }) rfl).trans hsame
    · simp only [callAll, callOne_of_ok hcall]
      exact ih (h := { h with tables := t }) hopen

lemma isSome_before_callAll (h : Hub) (tag : TagInfo) (flags : CallFlags)
    (operations : List Operation) :
    (h.callAll tag flags operations).2.before.isSome ↔
      h.before.isSome ∨ ∃ fault, .error fault ∈ (h.callAll tag flags operations).1 := by
  induction operations generalizing h with
  | nil => simp [callAll]
  | cons o rest ih =>
    rcases hcall : h.tables.call h.clock tag flags o with fault | t
    · simp only [callAll, callOne_of_error hcall, ih]
      simp
    · simp only [callAll, callOne_of_ok hcall, ih]
      simp

/-- No call was accepted after one that was rejected. -/
def Uninterrupted (results : List CallResult) : Prop :=
  results.Pairwise fun r s => s = .ok () → r = .ok ()

/-- If all that is accepted comes before all that is rejected nothing is lost. -/
lemma durable_callAll_of_uninterrupted (closed : h.before = none)
    (hu : Uninterrupted (h.callAll tag flags operations).1) :
    (h.callAll tag flags operations).2.durable = (h.callAll tag flags operations).2.tables := by
  induction operations generalizing h with
  | nil => simp [callAll, durable, closed]
  | cons o rest ih =>
    rcases hcall : h.tables.call h.clock tag flags o with fault | t
    · simp only [callAll, callOne_of_error hcall] at hu ⊢
      have hdurable : h.durable = h.tables := by rw [durable, closed, Option.getD_none]
      let next : Hub := { h with before := some h.durable }
      have hrejected : ∀ r ∈ (next.callAll tag flags rest).1, r ≠ .ok () := by
        intro r hr hok
        cases (List.pairwise_cons.mp hu).1 r hr hok
      have hsame := next.callEach_of_accepted_callAll tag flags rest
      rw [(acceptances_eq_nil_iff (length_callAll ..)).mpr hrejected] at hsame
      have hopen := before_callAll_of_isSome (h := next) rfl tag flags rest
      show (next.callAll tag flags rest).2.durable = (next.callAll tag flags rest).2.tables
      rw [durable, hopen]
      exact hdurable.trans (Except.ok.inj hsame)
    · simp only [callAll, callOne_of_ok hcall] at hu ⊢
      exact ih (h := { h with tables := t }) closed (List.pairwise_cons.mp hu).2

/-- **Otherwise something is lost**: the events of what was accepted later, at least. -/
lemma durable_callAll_lt (closed : h.before = none)
    (hu : ¬ Uninterrupted (h.callAll tag flags operations).1) :
    (h.callAll tag flags operations).2.durable.events.length <
      (h.callAll tag flags operations).2.tables.events.length := by
  induction operations generalizing h with
  | nil => exact absurd .nil hu
  | cons o rest ih =>
    rcases hcall : h.tables.call h.clock tag flags o with fault | t
    · simp only [callAll, callOne_of_error hcall] at hu ⊢
      have hdurable : h.durable = h.tables := by rw [durable, closed, Option.getD_none]
      let next : Hub := { h with before := some h.durable }
      have hopen := before_callAll_of_isSome (h := next) rfl tag flags rest
      have hevents := Tables.length_events_of_callEach
        (next.callEach_of_accepted_callAll tag flags rest)
      -- something is accepted after this call
      have haccepted : acceptances (rest.zip (next.callAll tag flags rest).1) ≠ [] := by
        intro hnil
        have hnone := (acceptances_eq_nil_iff (length_callAll ..)).mp hnil
        refine hu (List.pairwise_cons.mpr ⟨fun r hr hok => absurd hok (hnone r hr), ?_⟩)
        exact List.pairwise_of_forall_mem_list fun r _ s hs hok => absurd hok (hnone s hs)
      show (next.callAll tag flags rest).2.durable.events.length < _
      rw [durable, hopen]
      show h.durable.events.length < (next.callAll tag flags rest).2.tables.events.length
      rw [hevents, hdurable]
      exact Nat.lt_add_of_pos_right (List.length_pos_iff.mpr haccepted)
    · simp only [callAll, callOne_of_ok hcall] at hu ⊢
      refine ih (h := { h with tables := t }) closed fun hrest => hu ?_
      exact List.pairwise_cons.mpr ⟨fun _ _ _ => rfl, hrest⟩

lemma before_answers_of_isSome (hopen : h.before.isSome) (tag : TagInfo) (flags : CallFlags)
    (operations : List Operation) :
    (h.answers tag flags operations).2.before = h.before := by
  unfold answers
  split
  · exact before_callAll_of_isSome hopen ..
  · rfl

lemma durable_answers_of_uninterrupted (closed : h.before = none)
    (hu : Uninterrupted (h.answers tag flags operations).1) :
    (h.answers tag flags operations).2.durable = (h.answers tag flags operations).2.tables := by
  unfold answers at hu ⊢
  split
  · rename_i hmay
    rw [if_pos hmay] at hu
    exact durable_callAll_of_uninterrupted closed hu
  · simp [durable, closed]

lemma durable_answers_lt (closed : h.before = none)
    (hu : ¬ Uninterrupted (h.answers tag flags operations).1) :
    (h.answers tag flags operations).2.durable.events.length <
      (h.answers tag flags operations).2.tables.events.length := by
  unfold answers at hu ⊢
  split
  · rename_i hmay
    rw [if_pos hmay] at hu
    exact durable_callAll_lt closed hu
  · rename_i hmay
    rw [if_neg hmay] at hu
    exact absurd (List.pairwise_map.mpr (List.pairwise_of_forall fun _ _ => nofun)) hu

/-- **What is kept for good** of some calls is what the accepted ones leave on their own, unless one
of them came after a rejected call. -/
theorem alike_durable_answers_iff (e : h.Alike h') (tag : TagInfo) (flags : CallFlags)
    (operations : List Operation) :
    let results := (h.answers tag flags operations).1
    let accepted := acceptances (operations.zip results)
    (h.answers tag flags operations).2.durable.Alike (h'.answers tag flags accepted).2.durable ↔
      h.before.isSome ∨ Uninterrupted results := by
  obtain ⟨hresults, hlast⟩ := e.answers tag flags operations
  have honly := h'.answers_acceptances tag flags operations
  rw [hresults] at honly
  intro results accepted
  by_cases hopen : h.before.isSome = true
  · refine iff_of_true ?_ (.inl hopen)
    have hopen' := e.isSome_before.trans hopen
    obtain ⟨t, ht⟩ := Option.isSome_iff_exists.mp hopen
    obtain ⟨t', ht'⟩ := Option.isSome_iff_exists.mp hopen'
    have hdurable := e.durable
    simp only [durable, before_answers_of_isSome hopen, before_answers_of_isSome hopen', ht, ht',
      Option.getD_some] at hdurable ⊢
    exact hdurable
  · have closed : h.before = none := by simpa using hopen
    have closed' : h'.before = none := by rwa [← Option.not_isSome_iff_eq_none, e.isSome_before]
    have hkept : (h'.answers tag flags accepted).2.durable =
        (h'.answers tag flags operations).2.tables := by
      rw [show h'.answers tag flags accepted = _ from honly]
      simp only [durable, closed', Option.getD_none]
    rw [or_iff_right hopen, hkept]
    by_cases hu : Uninterrupted results
    · refine iff_of_true ?_ hu
      rw [durable_answers_of_uninterrupted closed hu]
      exact hlast.tables
    · refine iff_of_false (fun halike => ?_) hu
      have hlt := durable_answers_lt closed hu
      rw [← hlast.tables.length_events, ← halike.length_events] at hlt
      exact Nat.lt_irrefl _ hlt

lemma isSome_before_answers (h : Hub) (tag : TagInfo) (flags : CallFlags)
    (operations : List Operation) :
    (h.answers tag flags operations).2.before.isSome ↔ h.before.isSome ∨
      h.mayWrite tag ∧ ∃ fault, .error fault ∈ (h.answers tag flags operations).1 := by
  unfold answers
  split
  · rename_i hmay
    simp [isSome_before_callAll, hmay]
  · rename_i hmay
    simp [hmay]

/-! ### Portions -/

/-- The portions are answered as one request is. -/
lemma outcome_portions {d : TagId} (found : h.tables.getTag (.byId d) none = some tag)
    (flags : CallFlags) (batches : List Batch) :
    let answered := h.answers tag flags (batches.flatMap Batch.operations)
    ∃ lists, Dialog.outcome session (batches.mapM (deliver d flags)) h =
      (.ok lists, answered.2) ∧ lists.flatten = answered.1 := by
  induction batches generalizing h with
  | nil =>
    refine ⟨[], ?_⟩
    simp only [List.flatMap_nil, answers]
    split <;> exact ⟨rfl, rfl⟩
  | cons b rest ih =>
    obtain ⟨lists, hrest, hlists⟩ := ih (h := (h.answers tag flags b.operations).2)
      (by rw [getTag_answers]; exact found)
    refine ⟨(h.answers tag flags b.operations).1 :: lists, ?_, ?_⟩
    · rw [List.mapM_cons, Dialog.outcome_bind_of_ok (outcome_deliver found b),
        Dialog.outcome_bind_of_ok hrest, List.flatMap_cons, answers_append]
      rfl
    · rw [List.flatMap_cons, answers_append, List.flatten_cons, hlists]

/-- **Requests can be cut anywhere.** Whether calls for a tag come in one request or in portions, in
requests of several calls or of one, they have the same results and leave the same hub; and what
they leave in the tables is what the accepted ones leave on their own. Every accepted call has one
event, and a rejected one none. The notices are about the accepted calls that tag or untag a build,
in their order, with the events stamped on its rows; without the wish for notices there are none.

But a rejected call leaves a transaction open, so not everything is kept for good that would be
without it: as soon as a call is accepted after it, something is lost. -/
theorem multicall_in_portions {d : TagId} (found : h.tables.getTag (.byId d) none = some tag)
    (alike : h.Alike h') (flags : CallFlags) (batches : List Batch) :
    let operations := batches.flatMap Batch.operations
    let whole := h.session (.multicall d operations flags)
    let portions := Dialog.outcome session (batches.mapM (deliver d flags)) h'
    ∃ (results : List CallResult) (lists : List (List CallResult)),
      whole.answer = .ok results ∧ results.length = operations.length ∧
      portions.1 = .ok lists ∧ lists.flatten = results ∧ whole.state.Alike portions.2 ∧
      let accepted := acceptances (operations.zip results)
      let only := h'.session (.multicall d accepted flags)
      let notices := noticesOf d (h.tables.events.length + 1) accepted
      (only.answer = .ok (accepted.map fun _ => .ok ()) ∧
        whole.state.tables.Alike only.state.tables) ∧
      (∀ n, (h.session (.multicall d (operations.take n) flags)).state.tables.events.length =
        h.tables.events.length +
          (acceptances ((operations.take n).zip (results.take n))).length) ∧
      (whole.state.tables.notices = h.tables.notices ++ (if flags.notify then notices else []) ∧
        ∀ n ∈ notices, whole.state.tables.Stamped n) ∧
      (whole.state.before.isSome ↔
        h.before.isSome ∨ h.mayWrite tag ∧ ∃ fault, .error fault ∈ results) ∧
      (whole.state.durable.Alike only.state.durable ↔
        h.before.isSome ∨ Uninterrupted results) := by
  intro operations whole portions
  have hid : tag.id = d := Tables.id_of_getTag found
  have found' : h'.tables.getTag (.byId d) none = some tag := by rw [alike.getTag_eq, found]
  obtain ⟨hresults, hlast⟩ := alike.answers tag flags operations
  obtain ⟨hanswer, hstate⟩ := multicall_eq found operations flags
  obtain ⟨lists, hportions, hlists⟩ := outcome_portions found' flags batches
  have hcalls := h.callEach_acceptances tag flags operations
  have honly := h'.answers_acceptances tag flags operations
  rw [hresults] at honly
  obtain ⟨honlyAnswer, honlyState⟩ := multicall_eq found'
    (acceptances (operations.zip (h.answers tag flags operations).1)) flags
  have hnotices := Tables.notices_of_callEach hcalls
  have hstamped := Tables.stamped_of_callEach hcalls
  rw [hid] at hnotices hstamped
  have hwhole : whole.state = (h.answers tag flags operations).2 := hstate
  refine ⟨_, lists, hanswer, length_answers .., congrArg Prod.fst hportions,
    hlists.trans hresults, ?_, ⟨?_, ?_⟩, fun n => ?_, ⟨?_, ?_⟩, ?_, ?_⟩
  · rw [hwhole, show portions = _ from hportions]
    exact hlast
  · exact honlyAnswer.trans (congrArg (fun p => Except.ok (Prod.fst p)) honly)
  · rw [hwhole, show (h'.session _).state = _ from honlyState,
      show h'.answers tag flags _ = _ from honly]
    exact hlast.tables
  · rw [show (h.session _).state = _ from (multicall_eq found (operations.take n) flags).2,
      length_events_answers, answers_take]
  · rw [hwhole]
    exact hnotices
  · rw [hwhole]
    exact hstamped
  · rw [hwhole]
    exact h.isSome_before_answers tag flags operations
  · rw [hwhole, show (h'.session _).state = _ from honlyState]
    exact alike_durable_answers_iff alike tag flags operations

/-! ### A request with a call that is rejected -/

/-- A build is untagged and tagged again; in between, in the same request as the first call, a group
is to be removed that is not there. -/
def rejectingBatches : List Batch :=
  [⟨.builds, .multicall, [.untagBuild "a-1-1", .removeGroup "x"]⟩,
    ⟨.builds, .single, [.tagBuild "a-1-1"]⟩]

/-- In portions, and by another clock, the calls have the same results as in one request. They leave
the same tables without the call that is rejected; but what is kept for good is not the same. -/
theorem multicall_in_portions_rejecting :
    let later : Hub := { versionedHub with clock := .wall fun _ => 0 }
    let whole := versionedHub.session
      (.multicall 1 (rejectingBatches.flatMap Batch.operations) { notify := true })
    let only := later.session
      (.multicall 1 [.untagBuild "a-1-1", .tagBuild "a-1-1"] { notify := true })
    whole.state.Alike
        (Dialog.outcome session (rejectingBatches.mapM (deliver 1 { notify := true })) later).2 ∧
      whole.state.tables.Alike only.state.tables ∧
      whole.state.tables.notices = [⟨1, "a-1-1", .untagged, 2⟩, ⟨1, "a-1-1", .tagged, 3⟩] ∧
      ¬ whole.state.durable.Alike only.state.durable := by
  intro later whole only
  have found : versionedHub.tables.getTag (.byId 1) none = some ⟨1, "s", {}⟩ := by decide +kernel
  have alike : versionedHub.Alike later := { Alike.refl versionedHub with }
  obtain ⟨results, lists, hanswer, -, -, -, hportions, ⟨-, honly⟩, -, ⟨hnotices, -⟩, -, hdurable⟩ :=
    multicall_in_portions found alike { notify := true } rejectingBatches
  have hresults : (versionedHub.answers ⟨1, "s", {}⟩ { notify := true }
      (rejectingBatches.flatMap Batch.operations)).1 =
      [.ok (), .error (.notFound "group x is not listed directly on tag s"), .ok ()] := by
    decide +kernel
  have hmulticall := (multicall_eq found (rejectingBatches.flatMap Batch.operations)
    { notify := true }).1
  obtain rfl := (Except.ok.inj (hanswer.symm.trans hmulticall)).trans hresults
  refine ⟨hportions, honly, hnotices.trans ?_, fun halike => ?_⟩
  · decide +kernel
  · revert halike
    refine (not_congr hdurable).mpr ?_
    have closed : versionedHub.before = none := rfl
    simp [closed, Uninterrupted]

end Hub

end TagSync
