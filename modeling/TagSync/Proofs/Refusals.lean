import TagSync.Proofs.Runs

/-!
What a clone run leaves written that is refused.

A run is refused by its checks, which write nothing, or because a listing cannot be made: one of
the builds in it has a state that is none. When the listings are made a missing destination may
have been made already, and then it stays. What comes after the listings fails in other ways.
-/

namespace TagSync

/-! ### Listings that cannot be made -/

namespace Tables

variable {t : Tables} {id : TagId} {event : Option EventId}

/-- A build that a listing in scope shows has a state that is none. -/
def Unlistable (t : Tables) (id : TagId) (event : Option EventId) (scope : FetchScope) : Prop :=
  scope.builds = true ∧ ∃ b ∈ t.shownTaggings id scope.inheritBuilds event,
    BuildState.parse? b.build.state = none

lemma Tagging.entry_cases (b : Tagging) :
    (∃ e, b.entry = .ok e) ∧ BuildState.parse? b.build.state ≠ none ∨
      (∃ f, b.entry = .error f ∧ f.isUsage = true) ∧ BuildState.parse? b.build.state = none := by
  unfold entry BuildState.parse
  rcases BuildState.parse? b.build.state with _ | state
  · exact .inr ⟨⟨_, rfl, rfl⟩, rfl⟩
  · exact .inl ⟨⟨_, rfl⟩, nofun⟩

lemma mapM_entry_cases (l : List Tagging) :
    (∃ es, l.mapM Tagging.entry = .ok es) ∧
        (∀ b ∈ l, BuildState.parse? b.build.state ≠ none) ∨
      (∃ f, l.mapM Tagging.entry = .error f ∧ f.isUsage = true) ∧
        ∃ b ∈ l, BuildState.parse? b.build.state = none := by
  induction l with
  | nil => exact .inl ⟨⟨[], List.mapM_nil⟩, List.forall_mem_nil _⟩
  | cons b rest ih =>
    rw [List.mapM_cons]
    rcases b.entry_cases with ⟨⟨e, he⟩, hb⟩ | ⟨⟨f, hf, husage⟩, hb⟩
    · rcases ih with ⟨⟨es, hes⟩, hrest⟩ | ⟨⟨f, hf, husage⟩, x, hx, hnone⟩
      · exact .inl ⟨⟨e :: es, by rw [he, hes]; rfl⟩, List.forall_mem_cons.mpr ⟨hb, hrest⟩⟩
      · exact .inr ⟨⟨f, by rw [he, hf]; rfl, husage⟩, x, .tail _ hx, hnone⟩
    · exact .inr ⟨⟨f, by rw [hf]; rfl, husage⟩, b, .head _, hb⟩

/-- A listing of builds is made, or refused because of a state that is none. -/
lemma listBuilds_cases (t : Tables) (id : TagId) (inherited latestOnly : Bool)
    (event : Option EventId) :
    (∃ l, t.listBuilds id inherited latestOnly event = .ok l) ∧
        (∀ b ∈ t.shownTaggings id inherited event, BuildState.parse? b.build.state ≠ none) ∨
      (∃ f, t.listBuilds id inherited latestOnly event = .error f ∧ f.isUsage = true) ∧
        ∃ b ∈ t.shownTaggings id inherited event, BuildState.parse? b.build.state = none := by
  unfold listBuilds
  rcases mapM_entry_cases (t.shownTaggings id inherited event) with
    ⟨⟨es, hes⟩, hall⟩ | ⟨⟨f, hf, husage⟩, hsome⟩
  · exact .inl ⟨⟨_, by rw [hes]; rfl⟩, hall⟩
  · exact .inr ⟨⟨f, by rw [hf]; rfl, husage⟩, hsome⟩

end Tables

open Dialog

namespace Hub

variable {h h' : Hub} {tag : TagInfo} {f : Failure}

lemma outcome_ask_listBuilds (hid : (h.tables.tag? tag.id).isSome) (inherited latestOnly : Bool)
    (event : Option EventId) :
    outcome session (ask (.listBuilds tag.id inherited latestOnly event)) h =
      (h.tables.listBuilds tag.id inherited latestOnly event, h) := by
  rw [outcome_ask]
  exact congrArg (·, h) (listing_eq hid _)

/-- A fetch gives a snapshot, or is refused because of a build in scope. It writes nothing. -/
lemma fetch_cases (hid : (h.tables.tag? tag.id).isSome) (event : Option EventId)
    (scope : FetchScope) :
    (∃ s, outcome session (Snapshot.fetch tag event scope) h = (.ok s, h)) ∧
        ¬ h.tables.Unlistable tag.id event scope ∨
      (∃ f, outcome session (Snapshot.fetch tag event scope) h = (.error f, h) ∧
          f.isUsage = true) ∧
        h.tables.Unlistable tag.id event scope := by
  obtain ⟨packages, builds, groups, inheritBuilds, latestOnly⟩ := scope
  have hpackages := outcome_listPackages hid true event
  have hgroups := outcome_listGroups hid event
  -- a listing out of scope is an empty answer to the request that is not made
  have hnoPackages : outcome session
      (pure [] : Dialog (Request.listPackages tag.id true event).Answer) h = (.ok [], h) := rfl
  have hnoBuilds : outcome session
      (pure [] : Dialog (Request.listBuilds tag.id inheritBuilds latestOnly event).Answer) h =
      (.ok [], h) := rfl
  have hnoGroups : outcome session
      (pure [] : Dialog (Request.listGroups tag.id event).Answer) h = (.ok [], h) := rfl
  rcases builds with _ | _
  · refine .inl ⟨?_, by simp [Tables.Unlistable]⟩
    cases packages <;> cases groups <;>
      simp [-outcome_ask, Snapshot.fetch, hpackages, hgroups, hnoPackages, hnoBuilds, hnoGroups]
  · have hask := outcome_ask_listBuilds hid inheritBuilds latestOnly event
    rcases h.tables.listBuilds_cases tag.id inheritBuilds latestOnly event with
      ⟨⟨l, hl⟩, hall⟩ | ⟨⟨f, hf, husage⟩, hsome⟩
    · have hlisted : ¬ h.tables.Unlistable tag.id event ⟨packages, true, groups, inheritBuilds,
          latestOnly⟩ := by
        rintro ⟨-, b, hb, hnone⟩
        exact hall b hb hnone
      refine .inl ⟨?_, hlisted⟩
      rw [hl] at hask
      cases packages <;> cases groups <;>
        simp [-outcome_ask, Snapshot.fetch, hpackages, hgroups, hnoPackages, hask, hnoGroups]
    · refine .inr ⟨⟨f, ?_, husage⟩, rfl, hsome⟩
      rw [hf] at hask
      cases packages <;>
        simp [-outcome_ask, Snapshot.fetch, hpackages, hnoPackages, hask]

/-- Settings fail to be copied for other reasons. -/
lemma not_isUsage_of_editTag {id : TagId} {config : TagConfig}
    (failed : h.editTag id config = (.error f, h')) : f.isUsage = false := by
  unfold editTag transact at failed
  split at failed
  · cases failed
    rfl
  · dsimp only at failed
    split at failed
    · cases failed
    · rename_i e hedit
      cases failed
      split at hedit <;> cases hedit
      rfl

/-- A plan that is sent to a tag that is there is not refused. -/
lemma not_isUsage_of_apply {dest : TagId} (found : h.tables.getTag (.byId dest) none = some tag)
    {p : Plan} {size : BatchSize} {flags : CallFlags}
    (failed : outcome session (p.apply dest size flags) h = (.error f, h')) :
    f.isUsage = false := by
  rw [outcome_apply flags found] at failed
  rcases hconfig : p.config with _ | config <;> simp only [hconfig] at failed
  · cases failed
  · rcases hedit : (p.answered h tag size flags).2.editTag dest config with ⟨e | _, h''⟩ <;>
      rw [hedit] at failed <;> cases failed
    exact not_isUsage_of_editTag hedit

end Hub

namespace Clone

variable {h h' : Hub} {o : CloneOptions} {id : String} {size : BatchSize}
  {event : Option EventInfo} {src dst : TagInfo} {state : DestinationState} {f : Failure}

/-! ### The stages after the checks -/

/-- A listing that a comparison needs cannot be made. -/
def Incomparable (o : CloneOptions) (t : Tables) (event : Option EventId) (src dst : TagId)
    (state : DestinationState) : Prop :=
  t.Unlistable src event (.source o.selection o.inheritBuilds o.latestOnly) ∨
    state ≠ .wouldCreate ∧ t.Unlistable dst none (.destination o.selection)

section

variable (hsrc : (h.tables.tag? src.id).isSome)
  (hdst : state ≠ .wouldCreate → (h.tables.tag? dst.id).isSome)

include hsrc hdst

/-- A comparison gives a plan, or is refused because of a listing. It writes nothing. -/
lemma reconcile_cases (o : CloneOptions) (event : Option EventId) :
    (∃ p, outcome Hub.session (reconcile o event src dst state) h = (.ok p, h)) ∧
        ¬ Incomparable o h.tables event src.id dst.id state ∨
      (∃ f, outcome Hub.session (reconcile o event src dst state) h = (.error f, h) ∧
          f.isUsage = true) ∧
        Incomparable o h.tables event src.id dst.id state := by
  unfold reconcile
  rcases Hub.fetch_cases hsrc event (.source o.selection o.inheritBuilds o.latestOnly) with
    ⟨⟨s, hs⟩, hlisted⟩ | ⟨⟨f, hf, husage⟩, hunlisted⟩
  · rw [outcome_bind_of_ok hs]
    by_cases hstate : state = .wouldCreate
    · rw [if_pos hstate]
      exact .inl ⟨⟨_, rfl⟩, fun h => h.elim hlisted fun h => h.1 hstate⟩
    · rw [if_neg hstate]
      rcases Hub.fetch_cases (hdst hstate) none (.destination o.selection) with
        ⟨⟨d, hd⟩, hlisted'⟩ | ⟨⟨f, hf, husage⟩, hunlisted⟩
      · exact .inl ⟨⟨_, outcome_bind_of_ok hd⟩, fun h => h.elim hlisted fun h => hlisted' h.2⟩
      · exact .inr ⟨⟨f, outcome_bind_of_error hf, husage⟩, .inr ⟨hstate, hunlisted⟩⟩
  · exact .inr ⟨⟨f, outcome_bind_of_error hf, husage⟩, .inl hunlisted⟩

/-- **When a run is refused late**: exactly if a listing cannot be made, and then nothing is
written any more. -/
theorem proceed_cases (found : o.dryRun = false →
    ∃ tag, h.tables.getTag (.byId dst.id) none = some tag) (id : String) (size : BatchSize)
    (event : Option EventInfo) :
    Incomparable o h.tables (event.map EventInfo.id) src.id dst.id state ∧
        (∃ f, outcome Hub.session (proceed id o size event src dst state) h = (.error f, h) ∧
          f.isUsage = true) ∨
      ¬ Incomparable o h.tables (event.map EventInfo.id) src.id dst.id state ∧
        ∀ f h', outcome Hub.session (proceed id o size event src dst state) h = (.error f, h') →
          f.isUsage = false := by
  rcases reconcile_cases hsrc hdst o (event.map EventInfo.id) with
    ⟨⟨p, hp⟩, hcomparable⟩ | ⟨⟨f, hf, husage⟩, hincomparable⟩
  · refine .inr ⟨hcomparable, fun f h' hrun => ?_⟩
    rw [proceed, outcome_bind_of_ok hp] at hrun
    rcases hdry : o.dryRun with _ | _
    · obtain ⟨tag, htag⟩ := found hdry
      simp only [hdry, Bool.false_eq_true, if_false, outcome_bind, outcome_map] at hrun
      rcases happly : outcome Hub.session (p.apply dst.id size o.flags) h with ⟨e | a, h''⟩ <;>
        rw [happly] at hrun <;> cases hrun
      exact Hub.not_isUsage_of_apply htag happly
    · simp [hdry] at hrun
  · refine .inl ⟨hincomparable, f, ?_, husage⟩
    rw [proceed, outcome_bind_of_error hf]

end

/-! ### Destinations that are made -/

lemma createDestination_of_not_makes (missing : h.tables.getTag o.dst none = none)
    (makes : ∀ name, ¬ Makes o h name) (src : TagInfo) :
    ∃ f, outcome Hub.session (createDestination o src) h = (.error f, h) := by
  rcases byName : o.dst with id | name
  · exact ⟨_, by rw [createDestination, byName]; rfl⟩
  rcases selected : o.selection.config with _ | _
  · exact ⟨_, by simp only [createDestination, byName, selected]; rfl⟩
  · rw [byName, Tables.getTag_none, Option.map_eq_none_iff] at missing
    exact absurd ⟨byName, missing, selected⟩ (makes name)

/-- A search for the destination is refused, or it finds one, or it makes one. Only then it
writes. -/
lemma findDestination_cases (o : CloneOptions) (h : Hub) (src : TagInfo) :
    (∃ f, outcome Hub.session (findDestination o src) h = (.error f, h)) ∨
      (∃ dst state, outcome Hub.session (findDestination o src) h = (.ok (dst, state), h) ∧
        (state ≠ .wouldCreate → (h.tables.tag? dst.id).isSome) ∧
        (o.dryRun = false → state ≠ .wouldCreate)) ∨
      o.dryRun = false ∧ ∃ name, Makes o h name := by
  rcases found : h.tables.getTag o.dst none with _ | dst
  · by_cases makes : ∃ name, Makes o h name
    · rcases hdry : o.dryRun with _ | _
      · exact .inr (.inr ⟨rfl, makes⟩)
      · obtain ⟨name, makes⟩ := makes
        have hplanned := makes.outcome_findDestination hdry src
        exact .inr (.inl ⟨_, .wouldCreate, hplanned, fun hne => absurd rfl hne, nofun⟩)
    · have hask : outcome Hub.session (ask (.getTag o.dst none)) h = (.ok none, h) := by
        rw [outcome_getTag, found]
      obtain ⟨f, hf⟩ := createDestination_of_not_makes found (not_exists.mp makes) src
      unfold findDestination
      rw [outcome_bind_of_ok hask]
      exact .inl ⟨f, outcome_bind_of_error hf⟩
  · have hdst := Tables.isSome_tag?_of_found found
    rw [outcome_findDestination found]
    split
    · exact .inl ⟨_, rfl⟩
    · split
      · exact .inl ⟨_, rfl⟩
      · exact .inr (.inl ⟨dst, .existing, rfl, fun _ => hdst, fun _ => nofun⟩)

section

variable (free : h.tables.tag? (h.tables.tags.length + 1) = none) (closed : h.before = none)

include free closed

namespace Makes

variable {name : String} (makes : Makes o h name) (wet : o.dryRun = false)

include makes wet

lemma outcome_createDestination (src : TagInfo) :
    outcome Hub.session (createDestination o src) h =
      (.ok (⟨h.tables.tags.length + 1, name, src.config⟩, .created),
        { h with tables := h.tables.withTag h.clock name src.config }) := by
  have hmade := outcome_createTag makes.missing closed src.config
  simp only [createDestination, makes.byName, makes.selected, wet]
  rw [if_neg (by decide), if_neg (by decide), outcome_bind_of_ok hmade,
    outcome_bind_of_ok (outcome_report _)]
  refine outcome_bind_of_ok ?_
  rw [outcome_resolveTag, Tables.getTag_withTag_new free]

/-- The new tag is not the source. -/
lemma outcome_findDestination_of_wet (hsrc : (h.tables.tag? src.id).isSome) :
    outcome Hub.session (findDestination o src) h =
      (.ok (⟨h.tables.tags.length + 1, name, src.config⟩, .created),
        { h with tables := h.tables.withTag h.clock name src.config }) := by
  have hask : outcome Hub.session (ask (.getTag o.dst none)) h = (.ok none, h) := by
    rw [outcome_getTag, makes.getTag_eq_none]
  have hne : src.id ≠ h.tables.tags.length + 1 := by
    rintro heq
    rw [heq, free] at hsrc
    cases hsrc
  unfold findDestination
  rw [outcome_bind_of_ok hask,
    outcome_bind_of_ok (makes.outcome_createDestination free closed wet src)]
  simp [hne]

end Makes

end

/-! ### Whole runs -/

/-- A run has made its destination and cannot list what it has to compare. -/
inductive MadeInVain (o : CloneOptions) (h : Hub) : Hub → Prop where
  | intro {size : BatchSize} {event : Option EventInfo} {src : TagInfo} {name : String}
    (checked : LookedUp o h size event src) (makes : Makes o h name) (wet : o.dryRun = false)
    (incomparable : Incomparable o (h.tables.withTag h.clock name src.config)
      (event.map EventInfo.id) src.id (h.tables.tags.length + 1) .created) :
    MadeInVain o h { h with tables := h.tables.withTag h.clock name src.config }

lemma outcome_stages_of_lookedUp (hl : LookedUp o h size event src) (id : String) :
    outcome Hub.session (stages id o) h =
      outcome Hub.session (findDestination o src >>= fun (dst, destination) =>
        proceed id o size event src dst destination) h := by
  rw [stages_eq, outcome_bind_of_ok (outcome_lookUp_eq_ok.mpr ⟨hl, rfl⟩)]

/-- How a run ends that has its two tags. -/
lemma stages_cases {mid : Hub} (hl : LookedUp o h size event src)
    (hfind : outcome Hub.session (findDestination o src) h = (.ok (dst, state), mid))
    (hsrc : (mid.tables.tag? src.id).isSome)
    (hdst : state ≠ .wouldCreate → (mid.tables.tag? dst.id).isSome)
    (hwet : o.dryRun = false → state ≠ .wouldCreate) (id : String) :
    Incomparable o mid.tables (event.map EventInfo.id) src.id dst.id state ∧
        (∃ f, outcome Hub.session (stages id o) h = (.error f, mid) ∧ f.isUsage = true) ∨
      ¬ Incomparable o mid.tables (event.map EventInfo.id) src.id dst.id state ∧
        ∀ f h', outcome Hub.session (stages id o) h = (.error f, h') → f.isUsage = false := by
  rw [outcome_stages_of_lookedUp hl, outcome_bind_of_ok hfind]
  exact proceed_cases hsrc hdst (fun wet => Tables.exists_getTag_byId (hdst (hwet wet))) id size
    event

section

variable (free : h.tables.tag? (h.tables.tags.length + 1) = none) (closed : h.before = none)

include free closed

/-- How a run ends that makes its destination. -/
lemma stages_cases_of_makes (hl : LookedUp o h size event src) {name : String}
    (makes : Makes o h name) (wet : o.dryRun = false) (id : String) :
    let made := { h with tables := h.tables.withTag h.clock name src.config }
    let incomparable := Incomparable o made.tables (event.map EventInfo.id) src.id
      (h.tables.tags.length + 1) .created
    incomparable ∧ (∃ f, outcome Hub.session (stages id o) h = (.error f, made) ∧
        f.isUsage = true) ∨
      ¬ incomparable ∧ ∀ f h', outcome Hub.session (stages id o) h = (.error f, h') →
        f.isUsage = false := by
  have hsrc := Tables.isSome_tag?_of_found hl.source
  have hfound : Found o h src ⟨h.tables.tags.length + 1, name, src.config⟩ _ :=
    .created makes.byName makes.missing closed makes.selected
  have hnew := Tables.getTag_withTag_new free h.clock name src.config
  exact stages_cases hl (makes.outcome_findDestination_of_wet free closed wet hsrc)
    (hfound.isSome_tag? hsrc) (fun _ => Tables.isSome_tag?_of_found hnew) (fun _ => nofun) id

/-- **What a refused run leaves**: nothing, or a destination made in vain. -/
theorem state_of_refused_stages (id : String)
    (refused : outcome Hub.session (stages id o) h = (.error f, h')) (husage : f.isUsage = true) :
    h' = h ∨ MadeInVain o h h' := by
  have hread := readOnly_lookUp o h
  rcases hlook : outcome Hub.session (lookUp o) h with ⟨e | ⟨size, event, src⟩, h₁⟩ <;>
    rw [hlook] at hread
  · rw [stages_eq, outcome_bind_of_error hlook] at refused
    cases refused
    exact .inl hread
  obtain ⟨hl, rfl⟩ := outcome_lookUp_eq_ok.mp hlook
  have hsrc := Tables.isSome_tag?_of_found hl.source
  rcases findDestination_cases o h₁ src with
    ⟨e, he⟩ | ⟨dst, state, hfound, hdst, hwet⟩ | ⟨wet, name, makes⟩
  · rw [outcome_stages_of_lookedUp hl, outcome_bind_of_error he] at refused
    cases refused
    exact .inl rfl
  · rcases stages_cases hl hfound hsrc hdst hwet id with ⟨-, e, he, -⟩ | ⟨-, hother⟩
    · cases he.symm.trans refused
      exact .inl rfl
    · exact absurd husage (by simp [hother f h' refused])
  · rcases stages_cases_of_makes free closed hl makes wet id with ⟨hvain, e, he, -⟩ | ⟨-, hother⟩
    · cases he.symm.trans refused
      exact .inr ⟨hl, makes, wet, hvain⟩
    · exact absurd husage (by simp [hother f h' refused])

/-- A run that has made its destination in vain is refused. -/
theorem stages_of_madeInVain (vain : MadeInVain o h h') (id : String) :
    ∃ f, outcome Hub.session (stages id o) h = (.error f, h') ∧ f.isUsage = true := by
  obtain ⟨hl, makes, wet, hvain⟩ := vain
  rcases stages_cases_of_makes free closed hl makes wet id with ⟨-, hrefused⟩ | ⟨hnot, -⟩
  · exact hrefused
  · exact absurd hvain hnot

end

end Clone

end TagSync
