import Mathlib.Data.List.Basic
import TagSync.Proofs.Delivery
import TagSync.Proofs.Talks

/-!
What is sent of a plan, and how it is accounted for.

Whatever a session answers, the requests of a plan go out in order, each once, until one fails or
is answered by too many or too few results. The report, or the failure, tells how far the run has
come.
-/

namespace TagSync

open Dialog

/-! ### The sizes of requests -/

lemma ne_nil_of_mem_chunks {α : Type} {n : Nat} {l piece : List α} (h : piece ∈ chunks n l) :
    piece ≠ [] := by
  fun_induction chunks n l with
  | case1 => cases h
  | case2 a rest ih =>
    rcases List.mem_cons.mp h with rfl | h
    · exact List.cons_ne_nil _ _
    · exact ih h

lemma length_le_of_mem_chunks {α : Type} {n : Nat} {l piece : List α} (h : piece ∈ chunks n l) :
    piece.length ≤ max 1 n := by
  fun_induction chunks n l with
  | case1 => cases h
  | case2 a rest ih =>
    rcases List.mem_cons.mp h with rfl | h
    · simp only [List.length_cons, List.length_take]
      omega
    · exact ih h

/-- How many requests so many calls take. -/
def BatchSize.requests (size : BatchSize) (calls : Nat) : Nat :=
  if size.isPerCall then calls else (calls + size.calls - 1) / size.calls

lemma length_chunks {α : Type} (size : BatchSize) (l : List α) :
    (chunks size.calls l).length = size.requests l.length := by
  fun_induction chunks size.calls l with
  | case1 =>
    unfold BatchSize.requests BatchSize.isPerCall
    split
    · rfl
    · rename_i hsize
      have hpos : 0 < size.calls := Nat.pos_of_ne_zero (by simpa using hsize)
      exact (Nat.div_eq_of_lt (by simp; omega)).symm
  | case2 a rest ih =>
    rw [List.length_cons, ih, List.length_drop, List.length_cons]
    unfold BatchSize.requests BatchSize.isPerCall
    rcases Nat.eq_zero_or_pos size.calls with hzero | hpos
    · simp [hzero]
    · have hsize : ¬ decide (size.calls = 0) = true := by simpa using Nat.ne_of_gt hpos
      have hceil : (rest.length + 1 + size.calls - 1) / size.calls =
          rest.length / size.calls + 1 := by
        rw [show rest.length + 1 + size.calls - 1 = rest.length + size.calls by omega,
          Nat.add_div_right _ hpos]
      rw [if_neg hsize, if_neg hsize, hceil]
      congr 1
      rcases Nat.lt_or_ge rest.length (size.calls - 1) with hlast | hmore
      · -- this was the last piece
        rw [Nat.div_eq_of_lt (by omega), Nat.div_eq_of_lt (by omega)]
      · rw [show rest.length - (size.calls - 1) + size.calls - 1 = rest.length by omega]

namespace Plan

variable {p : Plan} {size : BatchSize} {b : Batch}

/-- A request holds some calls of one class, and no more than fit; single calls go alone. -/
lemma size_of_mem_batches (h : b ∈ p.batches size) :
    b.operations ≠ [] ∧ b.operations.length ≤ max 1 size.calls ∧
      (b.dispatch = .single → b.operations.length = 1) := by
  obtain ⟨c, -, hb⟩ := List.mem_flatMap.mp h
  obtain ⟨piece, hpiece, rfl⟩ := List.mem_map.mp hb
  have hne := ne_nil_of_mem_chunks hpiece
  have hle := length_le_of_mem_chunks hpiece
  refine ⟨hne, hle, fun hsingle => ?_⟩
  have hpos := List.length_pos_iff.mpr hne
  by_cases hzero : size.calls = 0
  · rw [hzero] at hle
    exact Nat.le_antisymm hle hpos
  · simp [BatchSize.isPerCall, hzero] at hsingle

/-- The requests for the calls of a class are the pieces of their list. -/
lemma filter_batches (p : Plan) (size : BatchSize) (c : EntityClass) :
    ((p.batches size).filter fun b => b.entityClass = c).flatMap Batch.operations =
      p.ofClass c := by
  have hclass : ∀ dispatch c', (((chunks size.calls (p.ofClass c')).map fun ops =>
      (⟨c', dispatch, ops⟩ : Batch)).filter fun b => b.entityClass = c).flatMap
        Batch.operations = if c' = c then p.ofClass c else [] := by
    intro dispatch c'
    by_cases hc : c' = c
    · subst hc
      rw [if_pos rfl, List.filter_eq_self.mpr (by simp), List.flatMap_map]
      exact (List.flatMap_id' ..).trans (flatten_chunks _ _)
    · rw [if_neg hc, List.filter_eq_nil_iff.mpr (by simp [hc])]
      rfl
  simp only [batches, EntityClass.all, List.flatMap_cons, List.flatMap_nil, List.filter_append,
    List.flatMap_append, hclass, List.append_nil]
  cases c <;> simp

/-- How many requests a plan takes, class by class. -/
def requestCount (p : Plan) (size : BatchSize) : Nat :=
  size.requests p.packages.length + size.requests p.builds.length + size.requests p.groups.length

lemma length_batches (p : Plan) (size : BatchSize) :
    (p.batches size).length = p.requestCount size := by
  simp [batches, requestCount, EntityClass.all, length_chunks, ofClass, Nat.add_assoc]

lemma length_operations (p : Plan) : p.operations.length = p.operationCount := by
  simp [operations, operationCount, Nat.add_assoc]

end Plan

/-! ### Requests with their answers -/

/-- A request for calls of one class, with the answer to it. -/
structure Delivery where
  entityClass : EntityClass
  operations : List Operation
  answer : Except Failure (List CallResult)

namespace Delivery

/-- What passes between the run and the session. -/
def exchange (dest : TagId) (flags : CallFlags) (d : Delivery) : Exchange :=
  ⟨.multicall dest d.operations flags, d.answer⟩

/-- The answer has one result for every call. -/
def Fits (d : Delivery) : Prop :=
  ∃ results, d.answer = .ok results ∧ results.length = d.operations.length

/-- The calls with their results, if there was an answer. -/
def calls (d : Delivery) : List (Operation × CallResult) :=
  match d.answer with
  | .ok results => d.operations.zip results
  | .error _ => []

/-- The request fails, or its answer does not fit it, which is a failure of the transport. -/
def FailsWith (d : Delivery) (f : Failure) : Prop :=
  d.answer = .error f ∨
    (∃ results, d.answer = .ok results ∧ results.length ≠ d.operations.length) ∧
      f.kind = .transport

lemma FailsWith.not_fits {d : Delivery} {f : Failure} (h : d.FailsWith f) : ¬ d.Fits := by
  rintro ⟨results, hanswer, hlength⟩
  rcases h with h | ⟨⟨results', h, hne⟩, -⟩ <;> rw [hanswer] at h <;> cases h
  exact hne hlength

end Delivery

section

variable {dest : TagId} {flags : CallFlags} {xs : List Exchange}

/-- A single call must be answered by one result. -/
lemma talks_call {o : Operation} {r : Except Failure CallResult}
    (h : Talks (call dest flags o) xs r) :
    ∃ answer, xs = [⟨.multicall dest [o] flags, answer⟩] ∧
      ((∃ result, answer = .ok [result] ∧ r = .ok result) ∨
        ∃ f, r = .error f ∧ ∀ c, Delivery.FailsWith ⟨c, [o], answer⟩ f) := by
  rcases h.of_bind with ⟨f, rfl, hask⟩ | ⟨xs₁, ys, results, rfl, hask, hrest⟩
  · exact ⟨_, hask.of_ask, .inr ⟨f, rfl, fun _ => .inl rfl⟩⟩
  · obtain rfl := hask.of_ask
    have hmisfit : ∀ {f : Failure} (results : List CallResult), results.length ≠ 1 →
        f.kind = .transport → ∀ c, Delivery.FailsWith ⟨c, [o], .ok results⟩ f :=
      fun results hne hkind _ => .inr ⟨⟨results, rfl, hne⟩, hkind⟩
    rcases results with _ | ⟨result, _ | ⟨second, more⟩⟩
    · obtain ⟨rfl, rfl⟩ := hrest.of_throw
      exact ⟨_, rfl, .inr ⟨_, rfl, hmisfit [] nofun rfl⟩⟩
    · obtain ⟨rfl, rfl⟩ := hrest.of_pure
      exact ⟨_, rfl, .inl ⟨result, rfl, rfl⟩⟩
    · obtain ⟨rfl, rfl⟩ := hrest.of_throw
      exact ⟨_, rfl, .inr ⟨_, rfl, hmisfit (result :: second :: more) (by simp) rfl⟩⟩

lemma talks_mapM_call {o : Operation} {r : Except Failure (List CallResult)}
    (h : Talks ([o].mapM (call dest flags)) xs r) :
    ∃ r', Talks (call dest flags o) xs r' ∧ r = r'.map fun result => [result] := by
  rw [List.mapM_cons] at h
  rcases h.of_bind with ⟨f, rfl, hcall⟩ | ⟨ys, zs, result, rfl, hcall, hrest⟩
  · exact ⟨_, hcall, rfl⟩
  · obtain ⟨rfl, rfl⟩ := hrest.of_pure
    rw [List.append_nil]
    exact ⟨_, hcall, rfl⟩

/-- The results must be as many as the calls. -/
lemma talks_ofLength {n : Nat} {results : List CallResult} {reason : String}
    {r : Except Failure (List CallResult)}
    (h : Talks (if results.length = n then pure results
      else Dialog.refuse (.transport n reason)) xs r) :
    xs = [] ∧ (results.length = n ∧ r = .ok results ∨
      results.length ≠ n ∧ ∃ f, r = .error f ∧ f.kind = .transport) := by
  split at h
  · rename_i hlength
    obtain ⟨rfl, rfl⟩ := h.of_pure
    exact ⟨rfl, .inl ⟨hlength, rfl⟩⟩
  · rename_i hlength
    obtain ⟨rfl, rfl⟩ := h.of_refuse
    exact ⟨rfl, .inr ⟨hlength, _, rfl, rfl⟩⟩

/-- **A request is answered by one result for every call, or it fails.** -/
lemma talks_deliver {b : Batch} (hb : b.dispatch = .single → b.operations.length = 1)
    {r : Except Failure (List CallResult)} (h : Talks (deliver dest flags b) xs r) :
    ∃ answer, xs = [⟨.multicall dest b.operations flags, answer⟩] ∧
      ((∃ results, answer = .ok results ∧ results.length = b.operations.length ∧
        r = .ok results) ∨
        ∃ f, r = .error f ∧ Delivery.FailsWith ⟨b.entityClass, b.operations, answer⟩ f) := by
  obtain ⟨c, _ | _, operations⟩ := b
  · rcases h.of_bind with ⟨f, rfl, hask⟩ | ⟨xs, ys, results, rfl, hask, hrest⟩
    · exact ⟨_, hask.of_ask, .inr ⟨f, rfl, .inl rfl⟩⟩
    · obtain rfl := hask.of_ask
      obtain ⟨rfl, ⟨hlength, rfl⟩ | ⟨hlength, f, rfl, hkind⟩⟩ := talks_ofLength hrest
      · exact ⟨_, rfl, .inl ⟨results, rfl, hlength, rfl⟩⟩
      · exact ⟨_, rfl, .inr ⟨f, rfl, .inr ⟨⟨results, rfl, hlength⟩, hkind⟩⟩⟩
  · obtain ⟨o, rfl⟩ : ∃ o, operations = [o] := List.length_eq_one_iff.mp (hb rfl)
    rcases h.of_bind with ⟨f, rfl, hcalls⟩ | ⟨xs, ys, results, rfl, hcalls, hrest⟩
    · obtain ⟨r', hcall, hr'⟩ := talks_mapM_call hcalls
      obtain ⟨answer, rfl, ⟨result, -, rfl⟩ | ⟨f', rfl, hfails⟩⟩ := talks_call hcall <;> cases hr'
      exact ⟨answer, rfl, .inr ⟨f, rfl, hfails c⟩⟩
    · obtain ⟨r', hcall, hr'⟩ := talks_mapM_call hcalls
      obtain ⟨answer, rfl, ⟨result, rfl, rfl⟩ | ⟨f', rfl, hfails⟩⟩ := talks_call hcall <;>
        cases hr'
      obtain ⟨rfl, ⟨-, rfl⟩ | ⟨hne, -⟩⟩ := talks_ofLength hrest
      · exact ⟨_, rfl, .inl ⟨[result], rfl, rfl, rfl⟩⟩
      · exact absurd rfl hne

lemma talks_record {r : ApplyReport} {l : List (Operation × CallResult)}
    {result : Except Failure ApplyReport} (h : Talks (record r l) xs result) :
    xs = [] ∧ result = .ok (r.counting l) := by
  induction l generalizing r xs with
  | nil =>
    obtain ⟨rfl, rfl⟩ := h.of_pure
    exact ⟨rfl, by simp [ApplyReport.counting, rejections]⟩
  | cons p rest ih =>
    obtain ⟨o, fault | u⟩ := p
    · rw [r.counting_cons_error]
      exact ih h.of_report_bind
    · rw [r.counting_cons_ok]
      exact ih h

end

/-! ### Requests, one after the other -/

/-- **How far requests get**, from a report on: each of them is answered and counted, until one
fails. -/
inductive Sent : List Batch → ApplyReport → List Delivery → Except Failure ApplyReport → Prop where
  | done (r : ApplyReport) : Sent [] r [] (.ok r)
  | fits {b : Batch} {rest : List Batch} {r : ApplyReport} {sent : List Delivery}
      {result : Except Failure ApplyReport} {results : List CallResult}
      (length : results.length = b.operations.length)
      (tail : Sent rest (({ r with roundTrips := r.roundTrips + 1 } : ApplyReport).counting
        (b.operations.zip results)) sent result) :
    Sent (b :: rest) r (⟨b.entityClass, b.operations, .ok results⟩ :: sent) result
  | fails {b : Batch} {r : ApplyReport} {answer : Except Failure (List CallResult)} {f : Failure}
      (rest : List Batch) (fails : Delivery.FailsWith ⟨b.entityClass, b.operations, answer⟩ f) :
    Sent (b :: rest) r [⟨b.entityClass, b.operations, answer⟩] (.error (undelivered r f))

/-- **Whatever the session answers**, requests are sent in this way. -/
theorem talks_applyBatches {dest : TagId} {flags : CallFlags} {batches : List Batch}
    (hb : ∀ b ∈ batches, b.dispatch = .single → b.operations.length = 1) {r : ApplyReport}
    {xs : List Exchange} {result : Except Failure ApplyReport}
    (h : Talks (applyBatches dest flags batches r) xs result) :
    ∃ sent, xs = sent.map (Delivery.exchange dest flags) ∧ Sent batches r sent result := by
  induction batches generalizing r xs with
  | nil =>
    obtain ⟨rfl, rfl⟩ := h.of_pure
    exact ⟨[], rfl, .done r⟩
  | cons b rest ih =>
    have hb' := fun b hmem => hb b (.tail _ hmem)
    rcases h.of_bind with ⟨f, rfl, hcatch⟩ | ⟨xs, ys, results, rfl, hcatch, hrest⟩
    · rcases hcatch.of_tryCatch with ⟨results, hno, -⟩ | ⟨xs, ys, f', rfl, hdeliver, hthrow⟩
      · cases hno
      · obtain ⟨rfl, hf⟩ := hthrow.of_report_bind.of_throw
        cases hf
        obtain ⟨answer, rfl, ⟨results, -, -, hno⟩ | ⟨f, hf, hfails⟩⟩ :=
          talks_deliver (hb b (.head _)) hdeliver
        · cases hno
        · cases hf
          exact ⟨[⟨b.entityClass, b.operations, answer⟩], rfl, .fails rest hfails⟩
    · rcases hcatch.of_tryCatch with ⟨results', hsame, hdeliver⟩ | ⟨zs, zs', f', -, -, hthrow⟩
      · cases hsame
        obtain ⟨answer, rfl, ⟨results', rfl, hlength, hsame⟩ | ⟨f, hno, -⟩⟩ :=
          talks_deliver (hb b (.head _)) hdeliver
        · cases hsame
          rcases hrest.of_report_bind.of_bind with
            ⟨f, -, hrecord⟩ | ⟨zs, ys, r', rfl, hrecord, hrest⟩
          · cases (talks_record hrecord).2
          · obtain ⟨rfl, hr'⟩ := talks_record hrecord
            cases hr'
            obtain ⟨sent, rfl, hsent⟩ := ih hb' hrest
            exact ⟨⟨b.entityClass, b.operations, .ok results⟩ :: sent, rfl, .fits hlength hsent⟩
        · cases hno
      · cases hthrow.of_report_bind.of_throw.2

/-! ### What was sent -/

/-- The calls of a request, by their class. -/
def Batch.content (b : Batch) : EntityClass × List Operation := (b.entityClass, b.operations)

def Delivery.content (d : Delivery) : EntityClass × List Operation := (d.entityClass, d.operations)

/-- Only the calls of an answered request have results. -/
lemma Delivery.map_fst_calls {d : Delivery} (h : d.Fits) : d.calls.map Prod.fst = d.operations := by
  obtain ⟨results, hanswer, hlength⟩ := h
  rw [calls, hanswer]
  exact List.map_fst_zip (Nat.le_of_eq hlength.symm)

namespace Sent

variable {batches : List Batch} {r report : ApplyReport} {sent : List Delivery} {f : Failure}
  {result : Except Failure ApplyReport}

/-- What is sent is the beginning of what there is to send. -/
lemma isPrefix (h : Sent batches r sent result) :
    sent.map Delivery.content <+: batches.map Batch.content := by
  induction h with
  | done r => exact List.nil_prefix
  | fits length tail ih => exact List.cons_prefix_cons.mpr ⟨rfl, ih⟩
  | fails rest fails => exact List.cons_prefix_cons.mpr ⟨rfl, List.nil_prefix⟩

/-- Where there is a report everything was sent and answered, and counted. -/
lemma of_ok (h : Sent batches r sent (.ok report)) :
    sent.map Delivery.content = batches.map Batch.content ∧ (∀ d ∈ sent, d.Fits) ∧
      report = ({ r with roundTrips := r.roundTrips + sent.length } : ApplyReport).counting
        (sent.flatMap Delivery.calls) := by
  generalize hresult : Except.ok report = result at h
  induction h with
  | done r =>
    cases hresult
    exact ⟨rfl, nofun, by simp [ApplyReport.counting, rejections]⟩
  | @fits b rest r sent result results length tail ih =>
    obtain ⟨hsame, hfits, hreport⟩ := ih hresult
    refine ⟨congrArg _ hsame, List.forall_mem_cons.mpr ⟨⟨results, rfl, length⟩, hfits⟩, ?_⟩
    rw [hreport, List.flatMap_cons, ApplyReport.counting_append, List.length_cons]
    simp only [ApplyReport.counting, Delivery.calls, Nat.add_right_comm, Nat.add_assoc]
  | fails => cases hresult

/-- **The first request that does not succeed is the last one**, and the failure tells what was
reached before it. -/
lemma of_not_fits (h : Sent batches r sent result) {before after : List Delivery} {d : Delivery}
    (hsent : sent = before ++ d :: after) (hd : ¬ d.Fits) :
    after = [] ∧ ∃ f, d.FailsWith f ∧ result = .error (undelivered
      (({ r with roundTrips := r.roundTrips + before.length } : ApplyReport).counting
        (before.flatMap Delivery.calls)) f) := by
  induction h generalizing before with
  | done r => simp at hsent
  | @fits b rest r sent result results length tail ih =>
    rcases before with _ | ⟨first, before⟩
    · cases hsent
      exact absurd ⟨results, rfl, length⟩ hd
    · cases hsent
      obtain ⟨hlast, f, hfails, hresult⟩ := ih rfl
      refine ⟨hlast, f, hfails, ?_⟩
      rw [hresult, List.flatMap_cons, ApplyReport.counting_append, List.length_cons]
      simp only [ApplyReport.counting, Delivery.calls, Nat.add_right_comm, Nat.add_assoc]
  | @fails b r answer f rest fails =>
    rcases before with _ | ⟨first, before⟩
    · cases hsent
      exact ⟨rfl, f, fails, by simp [ApplyReport.counting, rejections]⟩
    · simp at hsent

lemma exists_not_fits (h : Sent batches r sent (.error f)) : ∃ d ∈ sent, ¬ d.Fits := by
  generalize hresult : Except.error f = result at h
  induction h with
  | done => cases hresult
  | fits length tail ih =>
    obtain ⟨d, hd, hfits⟩ := ih hresult
    exact ⟨d, .tail _ hd, hfits⟩
  | fails rest fails => exact ⟨_, .head _, fails.not_fits⟩

end Sent

namespace Plan

variable {σ : Type} {dest : TagId} {flags : CallFlags} {xs : List Exchange}

variable {p : Plan} {size : BatchSize} {sent : List Delivery}

lemma flatMap_operations (sent : List Delivery) :
    sent.flatMap Delivery.operations = (sent.map Delivery.content).flatMap Prod.snd := by
  rw [List.flatMap_map]
  rfl

lemma flatMap_content_batches (p : Plan) (size : BatchSize) :
    ((p.batches size).map Batch.content).flatMap Prod.snd = p.operations := by
  rw [List.flatMap_map, ← p.flatMap_batches size]
  rfl

/-- What is sent of a plan is the beginning of it: the calls in order and each once, in requests
with calls of one class only, as many as fit. -/
structure InOrder (p : Plan) (size : BatchSize) (sent : List Delivery) : Prop where
  operations : sent.flatMap Delivery.operations <+: p.operations
  ofClass : ∀ c, (sent.filter fun d => d.entityClass = c).flatMap Delivery.operations <+:
    p.ofClass c
  sizes : ∀ d ∈ sent, d.operations ≠ [] ∧ d.operations.length ≤ max 1 size.calls

/-- All of a plan was sent, and every request was answered. -/
structure Answered (p : Plan) (size : BatchSize) (sent : List Delivery) : Prop where
  fits : ∀ d ∈ sent, d.Fits
  operations : sent.flatMap Delivery.operations = p.operations
  calls : (sent.flatMap Delivery.calls).map Prod.fst = p.operations
  requests : sent.length = p.requestCount size

/-- The report counts the requests, and the calls by their results. -/
structure Counted (p : Plan) (sent : List Delivery) (report : ApplyReport) : Prop where
  roundTrips : report.roundTrips = sent.length
  all : report.applied + report.failed.length = p.operationCount
  failed : report.failed = rejections (sent.flatMap Delivery.calls)

/-- The failure of a request goes on, with what was reached before it. -/
def FailsAfter (before : List Delivery) (d : Delivery) (result : Except Failure ApplyReport) :
    Prop :=
  let calls := before.flatMap Delivery.calls
  ∃ f, d.FailsWith f ∧ result = .error { f with
    message := f.message ++ " (after " ++ toString before.length ++ " request(s): " ++
      toString (acceptances calls).length ++ " applied, " ++
      toString (rejections calls).length ++ " failed)" }

/-- The beginning of the requests of a plan has the beginning of the calls of each class. -/
lemma ofClass_isPrefix (h : sent.map Delivery.content <+: (p.batches size).map Batch.content)
    (c : EntityClass) :
    (sent.filter fun d => d.entityClass = c).flatMap Delivery.operations <+: p.ofClass c := by
  obtain ⟨rest, hrest⟩ := h
  refine ⟨(rest.filter fun x => x.1 = c).flatMap Prod.snd, ?_⟩
  have hsent : (sent.filter fun d => d.entityClass = c).map Delivery.content =
      (sent.map Delivery.content).filter fun x => x.1 = c := by
    rw [List.filter_map]
    rfl
  have hbatches : ((p.batches size).filter fun b => b.entityClass = c).map Batch.content =
      ((p.batches size).map Batch.content).filter fun x => x.1 = c := by
    rw [List.filter_map]
    rfl
  rw [flatMap_operations, hsent, ← List.flatMap_append, ← List.filter_append, hrest, ← hbatches,
    ← p.filter_batches size c, List.flatMap_map]
  rfl

section

variable {r report : ApplyReport} {result : Except Failure ApplyReport}

lemma inOrder_of_sent (h : Sent (p.batches size) r sent result) : p.InOrder size sent where
  operations := by
    obtain ⟨rest, hrest⟩ := h.isPrefix
    refine ⟨rest.flatMap Prod.snd, ?_⟩
    rw [flatMap_operations, ← List.flatMap_append, hrest, flatMap_content_batches]
  ofClass := ofClass_isPrefix h.isPrefix
  sizes := by
    intro d hd
    obtain ⟨b, hb, hcontent⟩ := List.mem_map.mp (h.isPrefix.subset (List.mem_map_of_mem hd))
    have hsame : b.operations = d.operations := congrArg Prod.snd hcontent
    rw [← hsame]
    exact ⟨(size_of_mem_batches hb).1, (size_of_mem_batches hb).2.1⟩

lemma answered_of_sent (h : Sent (p.batches size) r sent (.ok report)) : p.Answered size sent := by
  obtain ⟨hsame, hfits, -⟩ := h.of_ok
  have hoperations : sent.flatMap Delivery.operations = p.operations := by
    rw [flatMap_operations, hsame, flatMap_content_batches]
  refine ⟨hfits, hoperations, ?_, ?_⟩
  · rw [List.map_flatMap, ← hoperations]
    exact List.flatMap_congr fun d hd => Delivery.map_fst_calls (hfits d hd)
  · rw [← p.length_batches size]
    simpa using congrArg List.length hsame

lemma counted_of_sent (h : Sent (p.batches size) {} sent (.ok report)) :
    p.Counted sent report ∧ report.configUpdated = false := by
  obtain ⟨-, -, hreport⟩ := h.of_ok
  have hle := length_rejections_le (sent.flatMap Delivery.calls)
  have hcount : (sent.flatMap Delivery.calls).length = p.operationCount := by
    rw [← p.length_operations, ← (answered_of_sent h).calls, List.length_map]
  refine ⟨⟨?_, ?_, ?_⟩, ?_⟩ <;>
    simp only [hreport, ApplyReport.counting, List.nil_append, Nat.zero_add]
  omega

lemma undelivered_counting (n : Nat) (calls : List (Operation × CallResult)) (f : Failure) :
    undelivered (({ roundTrips := 0 + n } : ApplyReport).counting calls) f = { f with
      message := f.message ++ " (after " ++ toString n ++ " request(s): " ++
        toString (acceptances calls).length ++ " applied, " ++
        toString (rejections calls).length ++ " failed)" } := by
  have hcount := length_acceptances_add calls
  have happlied : 0 + (calls.length - (rejections calls).length) = (acceptances calls).length := by
    omega
  simp only [undelivered, ApplyReport.counting, happlied, Nat.zero_add, List.nil_append]

lemma failsAfter_of_sent (h : Sent (p.batches size) {} sent result) {before after : List Delivery}
    {d : Delivery} (hsent : sent = before ++ d :: after) (hd : ¬ d.Fits) :
    after = [] ∧ FailsAfter before d result := by
  obtain ⟨hlast, f, hfails, hresult⟩ := h.of_not_fits hsent hd
  rw [undelivered_counting] at hresult
  exact ⟨hlast, f, hfails, hresult⟩

end

/-- **What a plan is sent as**: its requests, and then, if all were answered, the settings. -/
lemma talks_apply {p : Plan} {size : BatchSize} {outcome : Except Failure ApplyReport}
    (h : Talks (p.apply dest size flags) xs outcome) :
    ∃ sent result, Sent (p.batches size) {} sent result ∧
      match result, p.config with
      | .error f, _ => xs = sent.map (Delivery.exchange dest flags) ∧ outcome = .error f
      | .ok r, none => xs = sent.map (Delivery.exchange dest flags) ∧ outcome = .ok r
      | .ok r, some config => ∃ answer : Except Failure Unit,
        xs = sent.map (Delivery.exchange dest flags) ++ [⟨.editTag dest config, answer⟩] ∧
          outcome = answer.map fun _ => { r with configUpdated := true } := by
  have hsingle := fun b (hb : b ∈ p.batches size) => (size_of_mem_batches hb).2.2
  rcases h.of_bind with ⟨f, rfl, hsend⟩ | ⟨xs, ys, r, rfl, hsend, hrest⟩
  · obtain ⟨sent, rfl, hsent⟩ := talks_applyBatches hsingle hsend
    exact ⟨sent, _, hsent, rfl, rfl⟩
  · obtain ⟨sent, rfl, hsent⟩ := talks_applyBatches hsingle hsend
    refine ⟨sent, _, hsent, ?_⟩
    rcases hconfig : p.config with _ | config <;> simp only [hconfig] at hrest
    · obtain ⟨rfl, rfl⟩ := hrest.of_pure
      exact ⟨List.append_nil _, rfl⟩
    · rcases hrest.of_bind with ⟨f, rfl, hedit⟩ | ⟨ys, zs, u, rfl, hedit, hdone⟩
      · obtain rfl := hedit.of_ask
        exact ⟨.error f, rfl, rfl⟩
      · obtain rfl := hedit.of_ask
        obtain ⟨rfl, rfl⟩ := hdone.of_pure
        exact ⟨.ok (), rfl, rfl⟩

/-- **The accounts of a plan**, against any session. The calls go out in order, each once and each
request with calls of one class only, as many as fit; settings are copied last, if at all, after
all calls. A report says how many requests were sent, which calls were rejected and how many were
accepted. A request that fails, or is not answered by one result for every call, is the last thing
that is sent; its failure goes on, with what was reached before it. -/
theorem accounts_of_apply (session : Session σ) (s : σ) (p : Plan) (dest : TagId)
    (size : BatchSize) (flags : CallFlags) :
    let run := (p.apply dest size flags).run.run session s
    ∃ (sent : List Delivery) (copied : List Exchange),
      run.exchanges = sent.map (Delivery.exchange dest flags) ++ copied ∧
      p.InOrder size sent ∧
      (copied ≠ [] → p.Answered size sent ∧
        ∃ config answer, p.config = some config ∧ copied = [⟨.editTag dest config, answer⟩]) ∧
      (∀ report, run.result = .ok report → p.Answered size sent ∧ p.Counted sent report ∧
        copied = (p.config.map fun config => ⟨.editTag dest config, .ok ()⟩).toList ∧
        report.configUpdated = p.config.isSome) ∧
      (∀ before d after, sent = before ++ d :: after → ¬ d.Fits →
        after = [] ∧ copied = [] ∧ FailsAfter before d run.result) ∧
      ∀ f, run.result = .error f →
        (∃ d ∈ sent, ¬ d.Fits) ∨ ∃ config, copied = [⟨.editTag dest config, .error f⟩] := by
  intro run
  obtain ⟨sent, result, hsent, hcase⟩ :=
    talks_apply (Script.talks_run session (p.apply dest size flags).run s)
  have horder := inOrder_of_sent hsent
  rcases result with f | r
  · -- a request did not succeed
    obtain ⟨hexchanges, hresult⟩ := hcase
    refine ⟨sent, [], by rw [List.append_nil]; exact hexchanges, horder,
      fun hne => absurd rfl hne, fun report hok => ?_, fun before d after hsplit hd => ?_,
      fun f _ => .inl hsent.exists_not_fits⟩
    · cases hresult.symm.trans hok
    · obtain ⟨hlast, hfails⟩ := failsAfter_of_sent hsent hsplit hd
      exact ⟨hlast, rfl, hresult.symm ▸ hfails⟩
  · -- all requests were answered
    have hanswered := answered_of_sent hsent
    obtain ⟨hcounted, hnever⟩ := counted_of_sent hsent
    have hfits : ∀ before d after, sent = before ++ d :: after → d.Fits :=
      fun before d after hsplit => hanswered.fits d (by simp [hsplit])
    rcases hconfig : p.config with _ | config <;> simp only [hconfig] at hcase
    · obtain ⟨hexchanges, hresult⟩ := hcase
      refine ⟨sent, [], by rw [List.append_nil]; exact hexchanges, horder,
        fun hne => absurd rfl hne, fun report hok => ?_,
        fun before d after hsplit hd => absurd (hfits before d after hsplit) hd, fun f hno => ?_⟩
      · cases hresult.symm.trans hok
        exact ⟨hanswered, hcounted, rfl, hnever⟩
      · cases hresult.symm.trans hno
    · obtain ⟨answer, hexchanges, hresult⟩ := hcase
      refine ⟨sent, [⟨.editTag dest config, answer⟩], hexchanges, horder,
        fun _ => ⟨hanswered, config, answer, rfl, rfl⟩, fun report hok => ?_,
        fun before d after hsplit hd => absurd (hfits before d after hsplit) hd,
        fun f hno => .inr ⟨config, ?_⟩⟩
      · rcases answer with f | u <;> cases hresult.symm.trans hok
        exact ⟨hanswered, { hcounted with }, rfl, rfl⟩
      · rcases answer with f' | u <;> cases hresult.symm.trans hno
        rfl

end Plan

end TagSync
