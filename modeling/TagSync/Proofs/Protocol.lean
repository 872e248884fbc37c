import TagSync.Clone
import TagSync.Proofs.Accounts

/-!
The protocol of a clone run.

What a run asks next depends on its options and on the answers so far, which may be anything. The
protocol says so stage by stage, apart from the run: in each stage what is asked, and which stage
the answer leads to. A failure leads out of the protocol, as do all refusals. Every run keeps to it,
against any session, so what a stage takes for granted has been answered before.
-/

namespace TagSync

namespace Snapshot

/-- The snapshot with the answer to a listing. -/
def filed (s : Snapshot) : (r : Request) → r.Answer → Snapshot
  | .listPackages .., l => s.withPackages l
  | .listBuilds .., l => s.withBuilds l
  | .listGroups .., l => s.withGroups l
  | _, _ => s

end Snapshot

namespace Clone

/-! ### Stages -/

/-- What a run is about to ask. -/
inductive Stage where
  | admin
  /-- The second permission. -/
  | tag
  | pin (asOf : AsOf)
  | source (event : Option EventId)
  | destination (event : Option EventId) (src : TagInfo)
  | creation (event : Option EventId) (src : TagInfo) (name : String)
  /-- The tag that was created. -/
  | created (event : Option EventId) (src : TagInfo) (id : TagId)
  /-- The listings of the source and of the destination that are still to come. -/
  | listing (ofSource ofDestination : List Request) (src dst : Snapshot)
  /-- The calls of the plan that are still to be sent, and the settings. -/
  | sending (dst : TagId) (left : List Operation) (config : Option TagConfig)
  | closed

namespace Stage

/-- A failure ends the run. -/
def after {α : Type} (answer : Except Failure α) (next : α → Stage) : Stage :=
  match answer with
  | .ok a => next a
  | .error _ => .closed

/-- What has to be known once the user may write. -/
def pinning (o : CloneOptions) : Stage :=
  match o.asOf with
  | none => .source none
  | some asOf => .pin asOf

/-- Nothing is asked if the options do not go together. -/
def start (o : CloneOptions) : Stage :=
  if o.src = o.dst ∨ o.batch < 0 ∨ o.selection.builds ∧ !o.selection.packages then .closed
  else .admin

/-- A lock ends the run, unless it is overridden. -/
def unlocked (o : CloneOptions) (tag : TagInfo) (next : Stage) : Stage :=
  if tag.isLocked && !o.flags.force then .closed else next

/-- A run that may write sends its plan. -/
def planned (o : CloneOptions) (dst : TagId) (p : Plan) : Stage :=
  if o.dryRun then .closed else .sending dst p.operations p.config

/-- The plan can be made when nothing is left to be listed. -/
def listed (o : CloneOptions) : List Request → List Request → Snapshot → Snapshot → Stage
  | [], [], src, dst => planned o dst.tag.id (Diff.plan src dst o.selection o.diffOptions)
  | ofSource, ofDestination, src, dst => .listing ofSource ofDestination src dst

/-- The listings of the selected classes. -/
def listings (selection : ClassSelection) (tag : TagId) (event : Option EventId)
    (inheritBuilds latestOnly : Bool) : List Request :=
  (if selection.packages then [.listPackages tag true event] else []) ++
    ((if selection.builds then [.listBuilds tag inheritBuilds latestOnly event] else []) ++
      if selection.groups then [.listGroups tag event] else [])

/-- The source is listed at its event, the destination as it is now and without what it inherits;
a destination that is only planned is not listed. -/
def compared (o : CloneOptions) (event : Option EventId) (src dst : TagInfo)
    (state : DestinationState) : Stage :=
  listed o (listings o.selection src.id event o.inheritBuilds o.latestOnly)
    (if state = .wouldCreate then [] else listings o.selection dst.id none false false)
    ((Snapshot.ofTag src).atEvent event) (.ofTag dst)

/-- A tag is not cloned onto itself. -/
def found (o : CloneOptions) (event : Option EventId) (src dst : TagInfo)
    (state : DestinationState) : Stage :=
  if state ≠ .wouldCreate ∧ src.id = dst.id then .closed else compared o event src dst state

/-- A destination is created if it is missing under a name, and the settings are copied. -/
def missing (o : CloneOptions) (event : Option EventId) (src : TagInfo) : Stage :=
  match o.dst with
  | .byId _ => .closed
  | .byName name =>
    if !o.selection.config then .closed
    else if o.dryRun then found o event src (.planned name src.config) .wouldCreate
    else .creation event src name

end Stage

open Stage

/-- **The protocol**: what is asked in a stage, and the stage that follows. -/
inductive Next (o : CloneOptions) : Stage → Exchange → Stage → Prop where
  | admin (answer : Except Failure Bool) :
    Next o .admin ⟨.hasPerm "admin", answer⟩
      (after answer fun allowed => if allowed then pinning o else .tag)
  | tag (answer : Except Failure Bool) :
    Next o .tag ⟨.hasPerm "tag", answer⟩
      (after answer fun allowed => if allowed then pinning o else .closed)
  | pin (asOf : AsOf) (answer : Except Failure EventInfo) :
    Next o (.pin asOf) ⟨.resolveEvent asOf, answer⟩ (after answer fun e => .source (some e.id))
  | source (event : Option EventId) (answer : Except Failure (Option TagInfo)) :
    Next o (.source event) ⟨.getTag o.src event, answer⟩
      (after answer fun
        | some src => unlocked o src (.destination event src)
        | none => .closed)
  | destination (event : Option EventId) (src : TagInfo)
      (answer : Except Failure (Option TagInfo)) :
    Next o (.destination event src) ⟨.getTag o.dst none, answer⟩
      (after answer fun
        | some dst => unlocked o dst (found o event src dst .existing)
        | none => missing o event src)
  | creation (event : Option EventId) (src : TagInfo) (name : String)
      (answer : Except Failure TagInfo) :
    Next o (.creation event src name) ⟨.createTag name src.config, answer⟩
      (after answer fun tag => .created event src tag.id)
  | created (event : Option EventId) (src : TagInfo) (id : TagId)
      (answer : Except Failure (Option TagInfo)) :
    Next o (.created event src id) ⟨.getTag (.byId id) none, answer⟩
      (after answer fun
        | some dst => found o event src dst .created
        | none => .closed)
  | ofSource (r : Request) (rest ofDestination : List Request) (src dst : Snapshot)
      (answer : Except Failure r.Answer) :
    Next o (.listing (r :: rest) ofDestination src dst) ⟨r, answer⟩
      (after answer fun a => listed o rest ofDestination (src.filed r a) dst)
  | ofDestination (r : Request) (rest : List Request) (src dst : Snapshot)
      (answer : Except Failure r.Answer) :
    Next o (.listing [] (r :: rest) src dst) ⟨r, answer⟩
      (after answer fun a => listed o [] rest src (dst.filed r a))
  | send (dst : TagId) {operations : List Operation} (some : operations ≠ [])
      (left : List Operation) (config : Option TagConfig)
      (answer : Except Failure (List CallResult)) :
    Next o (.sending dst (operations ++ left) config) ⟨.multicall dst operations o.flags, answer⟩
      (after answer fun results =>
        if results.length = operations.length then .sending dst left config else .closed)
  | copy (dst : TagId) (config : TagConfig) (answer : Except Failure Unit) :
    Next o (.sending dst [] (some config)) ⟨.editTag dst config, answer⟩
      (after answer fun _ => .sending dst [] none)

/-- From one stage to another one. -/
inductive Passes (o : CloneOptions) : Stage → List Exchange → Stage → Prop where
  | refl (s : Stage) : Passes o s [] s
  | step {s s' s'' : Stage} {x : Exchange} {xs : List Exchange} (next : Next o s x s')
      (rest : Passes o s' xs s'') : Passes o s (x :: xs) s''

/-- Nothing is left to be asked. -/
inductive Stage.Final : Stage → Prop where
  | closed : Final .closed
  | sent (dst : TagId) : Final (.sending dst [] none)

variable {o : CloneOptions} {s s' s'' : Stage} {x : Exchange} {xs ys : List Exchange}

namespace Passes

lemma one (h : Next o s x s') : Passes o s [x] s' := .step h (.refl s')

lemma append (h : Passes o s xs s') (h' : Passes o s' ys s'') : Passes o s (xs ++ ys) s'' := by
  induction h with
  | refl => exact h'
  | step next rest ih => exact .step next (ih h')

/-- Every exchange is a step from the stage that the earlier ones have led to. -/
lemma split (h : Passes o s (xs ++ x :: ys) s'') :
    ∃ t t', Passes o s xs t ∧ Next o t x t' ∧ Passes o t' ys s'' := by
  induction xs generalizing s with
  | nil =>
    cases h with
    | step next rest => exact ⟨s, _, .refl s, next, rest⟩
  | cons y xs ih =>
    cases h with
    | step next rest =>
      obtain ⟨t, t', hbefore, hx, hafter⟩ := ih rest
      exact ⟨t, t', .step next hbefore, hx, hafter⟩

end Passes

/-! ### What a run knows before it writes -/

/-- What can be seen from the options. -/
structure Sensible (o : CloneOptions) : Prop where
  apart : o.src ≠ o.dst
  size : 0 ≤ o.batch
  selects : o.selection.builds = true → o.selection.packages = true

/-- The user holds one of the two permissions. -/
def Allowed (xs : List Exchange) : Prop :=
  ⟨.hasPerm "admin", .ok true⟩ ∈ xs ∨ ⟨.hasPerm "tag", .ok true⟩ ∈ xs

/-- The event the source is read at has been resolved. -/
def Pinned (o : CloneOptions) (xs : List Exchange) (event : Option EventId) : Prop :=
  match o.asOf with
  | none => event = none
  | some asOf => ∃ e : EventInfo, ⟨.resolveEvent asOf, .ok e⟩ ∈ xs ∧ event = some e.id

/-- The source has been found, with no lock that counts. -/
structure Located (o : CloneOptions) (xs : List Exchange) (event : Option EventId)
    (src : TagInfo) : Prop where
  sensible : Sensible o
  allowed : Allowed xs
  pinned : Pinned o xs event
  source : ⟨.getTag o.src event, .ok (some src)⟩ ∈ xs
  unlocked : (src.isLocked && !o.flags.force) = false

/-- **All checks are made**: beside the source the destination has been looked up, and has no
lock that counts if it exists. -/
structure Cleared (o : CloneOptions) (xs : List Exchange) : Prop where
  located : ∃ event src, Located o xs event src
  destination : ∃ dst : Option TagInfo, ⟨.getTag o.dst none, .ok dst⟩ ∈ xs ∧
    ∀ tag ∈ dst, (tag.isLocked && !o.flags.force) = false

/-- What is known in a stage, from the exchanges before it. -/
def Sure (o : CloneOptions) (xs : List Exchange) : Stage → Prop
  | .admin | .tag => Sensible o
  | .pin asOf => Sensible o ∧ Allowed xs ∧ o.asOf = some asOf
  | .source event => Sensible o ∧ Allowed xs ∧ Pinned o xs event
  | .destination event src => Located o xs event src
  | .creation .. => Cleared o xs ∧ o.dryRun = false
  | .created .. => Cleared o xs
  | .listing ofSource ofDestination _ _ =>
    Cleared o xs ∧ ∀ r ∈ ofSource ++ ofDestination, r.isWrite = false
  | .sending .. => Cleared o xs ∧ o.dryRun = false
  | .closed => True

section

variable {event : Option EventId} {src dst : TagInfo} {state : DestinationState}

lemma Allowed.append (h : Allowed xs) (ys : List Exchange) : Allowed (xs ++ ys) :=
  h.imp (List.mem_append_left ys) (List.mem_append_left ys)

lemma Pinned.append (h : Pinned o xs event) (ys : List Exchange) : Pinned o (xs ++ ys) event := by
  unfold Pinned at h ⊢
  split at h
  · exact h
  · obtain ⟨e, he, hevent⟩ := h
    exact ⟨e, List.mem_append_left ys he, hevent⟩

lemma Located.append (h : Located o xs event src) (ys : List Exchange) :
    Located o (xs ++ ys) event src where
  sensible := h.sensible
  allowed := h.allowed.append ys
  pinned := h.pinned.append ys
  source := List.mem_append_left ys h.source
  unlocked := h.unlocked

lemma Cleared.append (h : Cleared o xs) (ys : List Exchange) : Cleared o (xs ++ ys) := by
  obtain ⟨⟨event, src, hsrc⟩, dst, hdst, hlock⟩ := h
  exact ⟨⟨event, src, hsrc.append ys⟩, dst, List.mem_append_left ys hdst, hlock⟩

/-! Where the stages that follow come in. -/

lemma sure_start (o : CloneOptions) : Sure o [] (start o) := by
  unfold start
  split
  · trivial
  · rename_i h
    simp only [not_or, not_and, Int.not_lt, Bool.not_eq_true', Bool.not_eq_false] at h
    exact ⟨h.1, h.2.1, h.2.2⟩

lemma sure_after {α : Type} {answer : Except Failure α} {next : α → Stage}
    (h : ∀ a, answer = .ok a → Sure o xs (next a)) : Sure o xs (after answer next) := by
  rcases answer with f | a
  · trivial
  · exact h a rfl

lemma sure_pinning (hs : Sensible o) (ha : Allowed xs) : Sure o xs (pinning o) := by
  unfold pinning
  split
  · rename_i hasOf
    exact ⟨hs, ha, by simp only [Pinned, hasOf]⟩
  · rename_i hasOf
    exact ⟨hs, ha, hasOf⟩

lemma sure_unlocked {next : Stage}
    (h : (dst.isLocked && !o.flags.force) = false → Sure o xs next) :
    Sure o xs (unlocked o dst next) := by
  unfold unlocked
  split
  · trivial
  · rename_i hlock
    exact h (Bool.eq_false_iff.mpr hlock)

lemma sure_planned (h : Cleared o xs) (dst : TagId) (p : Plan) :
    Sure o xs (planned o dst p) := by
  unfold planned
  split
  · trivial
  · rename_i hdry
    exact ⟨h, Bool.eq_false_iff.mpr hdry⟩

lemma sure_listed (h : Cleared o xs) {ofSource ofDestination : List Request}
    (reads : ∀ r ∈ ofSource ++ ofDestination, r.isWrite = false) (src dst : Snapshot) :
    Sure o xs (listed o ofSource ofDestination src dst) := by
  unfold listed
  split
  · exact sure_planned h ..
  · exact ⟨h, reads⟩

lemma isWrite_of_mem_listings {selection : ClassSelection} {tag : TagId} {event : Option EventId}
    {inheritBuilds latestOnly : Bool} :
    ∀ r ∈ listings selection tag event inheritBuilds latestOnly, r.isWrite = false := by
  intro r hr
  simp only [listings, List.mem_append, List.mem_ite_nil_right, List.mem_singleton] at hr
  rcases hr with ⟨-, rfl⟩ | ⟨-, rfl⟩ | ⟨-, rfl⟩ <;> rfl

lemma sure_found (h : Cleared o xs) : Sure o xs (found o event src dst state) := by
  unfold found
  split
  · trivial
  · refine sure_listed h (fun r hr => ?_) _ _
    rcases List.mem_append.mp hr with hr | hr
    · exact isWrite_of_mem_listings r hr
    · split at hr
      · cases hr
      · exact isWrite_of_mem_listings r hr

lemma sure_missing (h : Cleared o xs) : Sure o xs (missing o event src) := by
  unfold missing
  split
  · trivial
  · split
    · trivial
    · split
      · exact sure_found h
      · rename_i hdry
        exact ⟨h, Bool.eq_false_iff.mpr hdry⟩

end

/-- **What is known is added to by every exchange.** -/
lemma Next.sure (h : Next o s x s') (hs : Sure o xs s) : Sure o (xs ++ [x]) s' := by
  have hx : x ∈ xs ++ [x] := by simp
  cases h with
  | admin answer =>
    refine sure_after fun allowed hanswer => ?_
    subst hanswer
    cases allowed with
    | false => exact hs
    | true => exact sure_pinning hs (.inl hx)
  | tag answer =>
    refine sure_after fun allowed hanswer => ?_
    subst hanswer
    cases allowed with
    | false => trivial
    | true => exact sure_pinning hs (.inr hx)
  | pin asOf answer =>
    obtain ⟨hsensible, hallowed, hasOf⟩ := hs
    refine sure_after fun e hanswer => ⟨hsensible, hallowed.append _, ?_⟩
    subst hanswer
    simp only [Pinned, hasOf]
    exact ⟨e, hx, rfl⟩
  | source event answer =>
    obtain ⟨hsensible, hallowed, hpinned⟩ := hs
    refine sure_after fun src hanswer => ?_
    subst hanswer
    cases src with
    | none => trivial
    | some src =>
      exact sure_unlocked fun hlock =>
        ⟨hsensible, hallowed.append _, hpinned.append _, hx, hlock⟩
  | destination event src answer =>
    have hlocated (ys : List Exchange) : Located o (xs ++ ys) event src := Located.append hs ys
    refine sure_after fun dst hanswer => ?_
    subst hanswer
    cases dst with
    | none => exact sure_missing ⟨⟨event, src, hlocated _⟩, none, hx, nofun⟩
    | some dst =>
      refine sure_unlocked fun hlock =>
        sure_found ⟨⟨event, src, hlocated _⟩, some dst, hx, ?_⟩
      rintro _ ⟨⟩
      exact hlock
  | creation event src name answer => exact sure_after fun _ _ => hs.1.append _
  | created event src id answer =>
    refine sure_after fun dst _ => ?_
    cases dst with
    | none => trivial
    | some dst => exact sure_found (hs.append _)
  | ofSource r rest ofDestination src dst answer =>
    exact sure_after fun a _ => sure_listed (hs.1.append _) (fun r hr => hs.2 r (.tail _ hr)) _ _
  | ofDestination r rest src dst answer =>
    exact sure_after fun a _ => sure_listed (hs.1.append _) (fun r hr => hs.2 r (.tail _ hr)) _ _
  | send dst some left config answer =>
    refine sure_after fun results _ => ?_
    split
    · exact ⟨hs.1.append _, hs.2⟩
    · trivial
  | copy dst config answer => exact sure_after fun _ _ => ⟨hs.1.append _, hs.2⟩

lemma Passes.sure (h : Passes o s ys s') (hs : Sure o xs s) : Sure o (xs ++ ys) s' := by
  induction h generalizing xs with
  | refl => rwa [List.append_nil]
  | step next rest ih =>
    simpa using ih (next.sure hs)

/-- In a listing stage nothing is written. -/
lemma Sure.isWrite_of_listing {ofSource ofDestination : List Request} {src dst : Snapshot}
    (h : Sure o xs (.listing ofSource ofDestination src dst)) {r : Request}
    (hr : r ∈ ofSource ++ ofDestination) : r.isWrite = false := h.2 r hr

/-- Only in three stages a run writes. -/
lemma Next.cleared (h : Next o s x s') (hs : Sure o xs s) (hx : x.request.isWrite = true) :
    Cleared o xs ∧ o.dryRun = false := by
  cases h with
  | creation | send | copy => exact hs
  | admin | tag | pin | source | destination | created => cases hx
  | ofSource | ofDestination => cases hx.symm.trans (hs.isWrite_of_listing (.head _))

/-- **Before a run writes it has made all checks**, and it is no dry run. -/
theorem Passes.cleared {last : Stage} (h : Passes o (start o) (xs ++ x :: ys) last)
    (hx : x.request.isWrite = true) : Cleared o xs ∧ o.dryRun = false := by
  obtain ⟨s, s', hbefore, hnext, -⟩ := h.split
  exact hnext.cleared (by simpa using hbefore.sure (sure_start o)) hx

/-! ### The end of a run -/

lemma Stage.Final.not_next (h : s.Final) : ¬ Next o s x s' := by
  intro hnext
  cases h with
  | closed => cases hnext
  | sent dst =>
    generalize hs : Stage.sending dst [] none = s at hnext
    cases hnext with
    | send dst' some left config answer => simp [some] at hs
    | copy => cases hs
    | _ => cases hs

lemma Stage.Final.after {α : Type} {next : α → Stage} (h : ∀ a, (next a).Final)
    (answer : Except Failure α) : (Stage.after answer next).Final := by
  rcases answer with f | a
  · exact .closed
  · exact h a

/-- Settings are copied at the end. -/
lemma Next.final_of_editTag (h : Next o s x s') (hs : Sure o xs s) {tag : TagId}
    {config : TagConfig} (hx : x.request = .editTag tag config) : s'.Final := by
  have hwrite : x.request.isWrite = true := by rw [hx]; rfl
  cases h with
  | copy dst config answer => exact .after (fun _ => .sent dst) answer
  | ofSource | ofDestination => cases hwrite.symm.trans (hs.isWrite_of_listing (.head _))
  | _ => cases hx

theorem Passes.nil_of_editTag {last : Stage} (h : Passes o (start o) (xs ++ x :: ys) last)
    {tag : TagId} {config : TagConfig} (hx : x.request = .editTag tag config) : ys = [] := by
  obtain ⟨s, s', hbefore, hnext, hafter⟩ := h.split
  have hfinal := hnext.final_of_editTag (by simpa using hbefore.sure (sure_start o)) hx
  cases hafter with
  | refl => rfl
  | step next rest => exact absurd next hfinal.not_next

end Clone

end TagSync
