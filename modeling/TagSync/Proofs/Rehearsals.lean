import TagSync.Proofs.Copies
import TagSync.Proofs.Portions
import TagSync.Proofs.Untouched

/-!
Dry runs as rehearsals.

A dry run only asks. What it finds and plans is what the run itself finds and plans, although an
empty tag stands for a destination that is missing. But a run that makes its destination, or copies
the settings, needs a transaction of its own, and fails if another one is open.
-/

namespace TagSync

/-- Where two lists agree in every place, what there is in one there is in the other. -/
lemma exists_mem_zip_iff {α β : Type} {l : List α} {l' : List β} (hlength : l'.length = l.length)
    {p : α → Prop} {q : β → Prop} (h : ∀ x ∈ l.zip l', q x.2 ↔ p x.1) :
    (∃ b ∈ l', q b) ↔ ∃ a ∈ l, p a := by
  constructor
  · rintro ⟨b, hb, hq⟩
    rw [← List.map_snd_zip hlength.le] at hb
    obtain ⟨x, hx, rfl⟩ := List.mem_map.mp hb
    exact ⟨x.1, (List.of_mem_zip hx).1, (h x hx).mp hq⟩
  · rintro ⟨a, ha, hp⟩
    rw [← List.map_fst_zip hlength.ge] at ha
    obtain ⟨x, hx, rfl⟩ := List.mem_map.mp ha
    exact ⟨x.2, (List.of_mem_zip hx).2, (h x hx).mpr hp⟩

/-! ### What needs a transaction of its own -/

namespace Hub

/-- The failure of all that needs a transaction of its own while another one is open. -/
def nested : Failure := storageFailure "cannot start a transaction within a transaction"

variable {h : Hub} {tag : TagInfo} {flags : CallFlags}

lemma editTag_of_open (opened : h.before ≠ none) (id : TagId) (config : TagConfig) :
    h.editTag id config = (.error nested, h) := by
  rw [editTag, transact, if_pos (Option.isSome_iff_ne_none.mpr opened)]
  rfl

lemma editTag_of_closed {id : TagId} (closed : h.before = none) (found : (h.tables.tag? id).isSome)
    (config : TagConfig) :
    h.editTag id config =
      (.ok (), { h with tables := h.tables.copyConfig h.clock id (some config) }) := by
  simp only [editTag, transact, closed, found, Option.isSome_none, Bool.false_eq_true, if_false,
    if_true]
  rfl

end Hub

section

open Dialog

variable {h : Hub} {tag : TagInfo} {d : TagId} {flags : CallFlags} {p : Plan}
  (found : h.tables.getTag (.byId d) none = some tag)

include found

/-- A plan with settings fails at last if a transaction is open then. -/
lemma outcome_apply_of_open (settings : p.config ≠ none)
    (opened : (h.answers tag flags p.operations).2.before ≠ none) (size : BatchSize) :
    outcome Hub.session (p.apply d size flags) h =
      (.error Hub.nested, (h.answers tag flags p.operations).2) := by
  obtain ⟨config, hconfig⟩ := Option.ne_none_iff_exists'.mp settings
  have hedit : (p.answered h tag size flags).2.editTag d config = _ :=
    Hub.editTag_of_open opened d config
  rw [outcome_apply flags found, hconfig]
  dsimp only
  rw [hedit]

/-- Otherwise a plan is carried out to its end. -/
lemma exists_outcome_apply
    (free : p.config = none ∨ (h.answers tag flags p.operations).2.before = none)
    (size : BatchSize) :
    ∃ a h', outcome Hub.session (p.apply d size flags) h = (.ok a, h') := by
  rw [outcome_apply flags found]
  rcases hconfig : p.config with _ | config
  · exact ⟨_, _, rfl⟩
  · have closed : (p.answered h tag size flags).2.before = none :=
      free.resolve_left (by rw [hconfig]; nofun)
    have hthere : ((p.answered h tag size flags).2.tables.tag? d).isSome := by
      have hanswers : (p.answered h tag size flags).2.tables.getTag (.byId d) none = some tag := by
        rw [← found]
        exact congrFun (congrFun (h.getTag_answers tag flags p.operations) _) _
      obtain ⟨row, hrow, -⟩ := Tables.getTag_eq_some_iff.mp hanswers
      exact Option.isSome_of_eq_some hrow
    dsimp only
    rw [Hub.editTag_of_closed closed hthere]
    exact ⟨_, _, rfl⟩

end

/-! ### An empty tag in place of a new one -/

namespace Tables

variable {t t' : Tables} {src : TagInfo} {m : Option EventId} {scope : FetchScope}

/-- Who lists the same has the same snapshot. -/
lemma SameAnswers.snapshot_eq (same : SameAnswers src.id t t') (hs : t.Sound) (hs' : t'.Sound) :
    t'.snapshot src m scope = t.snapshot src m scope := by
  have hbuilds : t'.shownBuilds src.id scope.inheritBuilds scope.latestOnly m =
      t.shownBuilds src.id scope.inheritBuilds scope.latestOnly m := by
    have hlisted := same.builds scope.inheritBuilds scope.latestOnly m
    rw [listBuilds_eq hs, listBuilds_eq hs'] at hlisted
    exact Except.ok.inj hlisted
  simp only [snapshot, same.packages, same.groups, hbuilds]

section

variable (hs : t.Sound) (c : Clock) (name : String) (config : TagConfig)

include hs

/-- A new tag inherits from no other. -/
lemma Sound.sources_withTag (inherited : Bool) :
    (t.withTag c name config).sources (t.tags.length + 1) inherited =
      [⟨t.tags.length + 1, name, t.events.length + 1, config⟩] := by
  have hrow : (t.withTag c name config).tag? (t.tags.length + 1) =
      some ⟨t.tags.length + 1, name, t.events.length + 1, config⟩ := by
    have hnew := hs.tag?_new
    rw [tag?] at hnew
    simp [tag?, tags_withTag, List.find?_append, hnew]
  have hparents : (t.withTag c name config).parents (t.tags.length + 1) = [] := by
    rw [parents_congr rfl]
    exact hs.parents_new
  cases inherited
  · simp [sources, hrow]
  · simp [sources, chain, walk, hparents, hrow]

/-- **A new tag shows nothing**, as an empty tag does. -/
theorem Sound.snapshot_withTag (hg : t.Grounded) (scope : FetchScope) :
    (t.withTag c name config).snapshot ⟨t.tags.length + 1, name, config⟩ none scope =
      .ofTag ⟨t.tags.length + 1, name, config⟩ := by
  let row : TagRow := ⟨t.tags.length + 1, name, t.events.length + 1, config⟩
  have hsources := hs.sources_withTag c name config
  have hchain := hsources true
  simp only [sources, if_true] at hchain
  have hnew : (t.tags.length : Int) < row.id := Int.lt_add_one_of_le (Int.le_refl _)
  have hpackages : (t.withTag c name config).packagesOn none row = [] := by
    rw [packagesOn, List.map_eq_nil_iff]
    exact hg.packages.filter_active_eq_nil hnew none
  have htaggings : (t.withTag c name config).taggingsOn none row = [] := by
    have hnone := (hg.taggings.imp fun _ hr => hr.1).filter_active_eq_nil hnew none
    rw [taggingsOn, show (t.withTag c name config).taggings = t.taggings from rfl, hnone]
    rfl
  have hgroups : (t.withTag c name config).groupsOn none row = [] := by
    rw [groupsOn, List.map_eq_nil_iff]
    exact hg.groups.filter_active_eq_nil hnew none
  have hlisted : (t.withTag c name config).listPackages (t.tags.length + 1) true none = [] := by
    rw [listPackages, packageView, hsources, List.flatMap_singleton, hpackages]
    rfl
  have hbuilds : ∀ inherited latestOnly,
      (t.withTag c name config).shownBuilds (t.tags.length + 1) inherited latestOnly none = [] := by
    intro inherited latestOnly
    rw [shownBuilds, shownTaggings, hsources, List.flatMap_singleton, htaggings]
    cases latestOnly <;> rfl
  have hgrouped : (t.withTag c name config).listGroups (t.tags.length + 1) none = [] := by
    rw [listGroups, groupView, hchain, List.flatMap_singleton, hgroups]
    rfl
  simp only [snapshot, hlisted, hbuilds, hgrouped, ite_self]
  rfl

end

end Tables

/-! ### What a dry run and the run itself find -/

namespace Clone

open Dialog

variable {h mid : Hub} {o : CloneOptions} {src dst : TagInfo} {size : BatchSize}
  {event : Option EventInfo} {state : DestinationState}

/-- A run that has no destination to make finds what a dry run finds. -/
lemma findDestination_eq_of_not_makes (makes : ∀ name, ¬ Makes o h name) (src : TagInfo)
    (dryRun : Bool) :
    outcome Hub.session (findDestination { o with dryRun } src) h =
      outcome Hub.session (findDestination o src) h := by
  rcases found : h.tables.getTag o.dst none with _ | dst
  · have hcreate : createDestination { o with dryRun } src = createDestination o src := by
      unfold createDestination
      rcases byName : o.dst with id | name
      · rfl
      · rcases selected : o.selection.config with _ | _
        · rfl
        · rw [byName, Tables.getTag_none, Option.map_eq_none_iff] at found
          exact absurd ⟨byName, found, selected⟩ (makes name)
    have hask : outcome Hub.session (ask (.getTag o.dst none)) h = (.ok none, h) := by
      rw [outcome_getTag, found]
    refine (outcome_bind_of_ok hask).trans ((outcome_bind_of_ok hask).trans ?_).symm
    rw [hcreate]
  · have found' : h.tables.getTag ({ o with dryRun } : CloneOptions).dst none = some dst := found
    rw [Clone.outcome_findDestination found, Clone.outcome_findDestination found']

/-- What a run finds that has no destination to make. -/
lemma existing_of_findDestination (ht : h.tables.Sound) (wet : o.dryRun = false)
    (makes : ∀ name, ¬ Makes o h name)
    (hrun : outcome Hub.session (findDestination o src) h = (.ok (dst, state), mid)) :
    Found o h src dst h ∧ mid = h ∧ state = .existing := by
  rcases found : h.tables.getTag o.dst none with _ | tag
  · obtain ⟨hf, -⟩ := found_of_findDestination ht wet hrun
    cases hf with
    | existing found' =>
      rw [found] at found'
      cases found'
    | created byName missing closed selected => exact absurd ⟨byName, missing, selected⟩ (makes _)
  · obtain ⟨hf, -⟩ := found_of_findDestination ht wet hrun
    obtain ⟨rfl, rfl⟩ := hf.of_getTag found
    rw [Clone.outcome_findDestination found] at hrun
    split at hrun
    · cases hrun
    · split at hrun
      · cases hrun
      · cases hrun
        exact ⟨hf, rfl, rfl⟩

/-! ### What they plan -/

/-- The plan for a tag that is yet to be made. -/
def planAhead (o : CloneOptions) (t : Tables) (event : Option EventId) (src dst : TagInfo) : Plan :=
  Diff.plan (t.snapshot src event (.source o.selection o.inheritBuilds o.latestOnly)) (.ofTag dst)
    o.selection o.diffOptions

/-- **The plan for an empty tag is the plan for the new one.** -/
lemma Found.planOn_created (hf : Found o h src dst mid) (hr : h.Reachable)
    (hl : LookedUp o h size event src) {name : String} (makes : Makes o h name) :
    dst.name = name ∧ dst.config = src.config ∧
      planOn o mid.tables (event.map EventInfo.id) src dst =
        planAhead o h.tables (event.map EventInfo.id) src (.planned name src.config) := by
  have hmid := (hf.reachable hr).sound
  obtain ⟨row, hrow, -⟩ := hr.sound.tag?_of_getTag hl.source
  have hle := hr.sound.tag_le (Tables.mem_of_tag? hrow)
  rw [Tables.id_of_tag? hrow] at hle
  cases hf with
  | existing found =>
    rw [makes.getTag_eq_none] at found
    cases found
  | @created name' byName missing closed selected =>
    obtain rfl : name' = name := by simpa [byName] using makes.byName
    have hsame := hr.sound.sameAnswers_withTag hr.grounded hle missing h.clock src.config
    refine ⟨rfl, rfl, ?_⟩
    rw [planOn, Tables.planFor, hsame.snapshot_eq hr.sound hmid,
      hr.sound.snapshot_withTag h.clock name' src.config hr.grounded]
    rfl

lemma outcome_reconcile_wouldCreate (ht : h.tables.Sound) (hsrc : (h.tables.tag? src.id).isSome)
    (event : Option EventId) (dst : TagInfo) :
    outcome Hub.session (reconcile o event src dst .wouldCreate) h =
      (.ok (planAhead o h.tables event src dst), h) := by
  refine (outcome_bind_of_ok (Hub.outcome_fetch ht hsrc _ _)).trans ?_
  rw [if_pos rfl]
  rfl

lemma outcome_proceed_wouldCreate (ht : h.tables.Sound) (hsrc : (h.tables.tag? src.id).isSome)
    (dry : o.dryRun = true) (id : String) (dst : TagInfo) :
    outcome Hub.session (proceed id o size event src dst .wouldCreate) h =
      (.ok (conclude id o event src dst .wouldCreate
        (planAhead o h.tables (event.map EventInfo.id) src dst) none), h) := by
  refine (outcome_bind_of_ok (outcome_reconcile_wouldCreate ht hsrc _ dst)).trans ?_
  simp [dry, conclude]

/-! ### What is in the way of a run -/

/-- The settings of a plan cannot be copied at last: a transaction is open, or one of the calls is
refused, which opens one. -/
def Stalls (flags : CallFlags) (h : Hub) (dst : TagInfo) (p : Plan) : Prop :=
  p.config ≠ none ∧ (h.before ≠ none ∨
    h.mayWrite dst = true ∧ ∃ x ∈ p.operations, h.tables.Refuses dst.id flags.force x)

namespace Found

variable (hf : Found o h src dst mid) (hr : h.Reachable) (hl : LookedUp o h size event src)

include hf hr hl

/-- The calls of a plan leave a transaction open that was open before, or that a refused one has
opened. -/
lemma before_answers_ne_none :
    let operations := (planOn o mid.tables (event.map EventInfo.id) src dst).operations
    (mid.answers dst o.flags operations).2.before ≠ none ↔ mid.before ≠ none ∨
      mid.mayWrite dst = true ∧ ∃ x ∈ operations, mid.tables.Refuses dst.id o.flags.force x := by
  intro operations
  simp only [← Option.isSome_iff_ne_none]
  rw [mid.isSome_before_answers]
  refine or_congr_right (and_congr_right fun may => ?_)
  have hrejected := exists_mem_zip_iff (mid.length_answers dst o.flags operations)
    (p := fun x => mid.tables.Refuses dst.id o.flags.force x)
    (q := fun result => ∃ fault, result = .error fault) fun p hp => by
      rw [← not_iff_not, ← hf.answers_eq_ok_iff hr hl may rfl p hp]
      rcases p.2 with fault | u <;> simp
  rw [← hrejected]
  constructor
  · rintro ⟨fault, hfault⟩
    exact ⟨_, hfault, fault, rfl⟩
  · rintro ⟨_, hfault, fault, rfl⟩
    exact ⟨fault, hfault⟩

/-- **A run goes wrong after its checks exactly if its plan stalls.** -/
theorem outcome_proceed (wet : o.dryRun = false) (hstate : state ≠ .wouldCreate) (id : String) :
    let plan := planOn o mid.tables (event.map EventInfo.id) src dst
    (Stalls o.flags mid dst plan →
      outcome Hub.session (proceed id o size event src dst state) mid =
        (.error Hub.nested, (mid.answers dst o.flags plan.operations).2)) ∧
    (¬ Stalls o.flags mid dst plan → ∃ a h',
      outcome Hub.session (proceed id o size event src dst state) mid =
        (.ok (conclude id o event src dst state plan (some a)), h')) := by
  intro plan
  have hmid := (hf.reachable hr).sound
  have hdst := hf.getTag_destination hr
  have hsrc := hf.isSome_tag? (hr.sound.isSome_tag?_of_getTag hl.source)
  have hbefore := hf.before_answers_ne_none hr hl
  rw [Clone.outcome_proceed hmid hsrc (hmid.isSome_tag?_of_getTag hdst) hstate, wet]
  simp only [Bool.false_eq_true, if_false]
  constructor
  · rintro ⟨settings, opened⟩
    rw [outcome_apply_of_open hdst settings (hbefore.mpr opened)]
  · intro hstalls
    have free : plan.config = none ∨ (mid.answers dst o.flags plan.operations).2.before = none := by
      by_contra hboth
      rw [not_or] at hboth
      exact hstalls ⟨hboth.1, hbefore.mp hboth.2⟩
    obtain ⟨a, h', happly⟩ := exists_outcome_apply hdst free size
    exact ⟨a, h', by rw [happly]⟩

end Found

/-! ### Whole runs -/

/-- What is in the way of a run of which a dry run says that it will succeed. -/
inductive Obstructed (flags : CallFlags) (h : Hub) (r : CloneResult) : Prop where
  | making (missing : r.destination = .wouldCreate) (opened : h.before ≠ none)
  | copying (stalls : Stalls flags h r.dst r.plan)

/-- What a dry run says about the run itself. -/
structure Foretells (dry wet : CloneResult) : Prop where
  requestId : wet.requestId = dry.requestId
  event : wet.event = dry.event
  src : wet.src = dry.src
  plan : wet.plan = dry.plan
  report : wet.report = dry.report
  name : wet.dst.name = dry.dst.name
  config : wet.dst.config = dry.dst.config
  existing : dry.destination = .existing → wet.dst = dry.dst
  created : wet.destination = .created ↔ dry.destination = .wouldCreate

section

variable (hr : h.Reachable) (wet : o.dryRun = false) (hl : LookedUp o h size event src)
  (id : String)

include hr wet hl

/-- A dry run whose destination is there, and the run itself. -/
lemma Found.foretells (hf : Found o h src dst h) :
    let r := conclude id { o with dryRun := true } event src dst .existing
      (planOn o h.tables (event.map EventInfo.id) src dst) none
    let ran := outcome Hub.session (proceed id o size event src dst .existing) h
    outcome Hub.session (proceed id { o with dryRun := true } size event src dst .existing) h =
        (.ok r, h) ∧
      (Obstructed o.flags h r → ran.1 = .error Hub.nested) ∧
      (¬ Obstructed o.flags h r → ∃ r', ran.1 = .ok r' ∧ Foretells r r') := by
  intro r ran
  have hexisting : DestinationState.existing ≠ .wouldCreate := nofun
  have hsrc := hr.sound.isSome_tag?_of_getTag hl.source
  have hdst := hr.sound.isSome_tag?_of_getTag (hf.getTag_destination hr)
  obtain ⟨hstalls, hgoes⟩ := hf.outcome_proceed hr hl wet hexisting id
  refine ⟨?_, fun obstructed => ?_, fun free => ?_⟩
  · rw [Clone.outcome_proceed hr.sound hsrc hdst hexisting, if_pos rfl]
    rfl
  · cases obstructed with
    | making missing => cases missing
    | copying stalls => exact congrArg Prod.fst (hstalls stalls)
  · obtain ⟨a, h', hran⟩ := hgoes fun stalls => free (.copying stalls)
    refine ⟨_, congrArg Prod.fst hran, ?_⟩
    exact { requestId := rfl, event := rfl, src := rfl, plan := rfl, report := rfl, name := rfl
            config := rfl, existing := fun _ => rfl, created := iff_of_false nofun nofun }

/-- A dry run whose destination has to be made, and the run itself. -/
lemma Makes.foretells {name : String} (makes : Makes o h name) :
    let r := conclude id { o with dryRun := true } event src (.planned name src.config)
      .wouldCreate (planAhead o h.tables (event.map EventInfo.id) src (.planned name src.config))
      none
    let ran := outcome Hub.session
      (findDestination o src >>= fun (dst, state) => proceed id o size event src dst state) h
    outcome Hub.session (findDestination { o with dryRun := true } src >>= fun (dst, state) =>
          proceed id { o with dryRun := true } size event src dst state) h =
        (.ok r, h) ∧
      (Obstructed o.flags h r → ran.1 = .error Hub.nested) ∧
      (¬ Obstructed o.flags h r → ∃ r', ran.1 = .ok r' ∧ Foretells r r') := by
  intro r ran
  have hsrc := hr.sound.isSome_tag?_of_getTag hl.source
  have hmakes : Makes { o with dryRun := true } h name :=
    ⟨makes.byName, makes.missing, makes.selected⟩
  have hkeeps : r.plan.config = none := by
    have hsame : Diff.config src (.planned name src.config) = none := if_pos rfl
    show (if o.selection.config then Diff.config src (.planned name src.config) else none) = none
    rw [hsame, ite_self]
  refine ⟨?_, fun obstructed => ?_, fun free => ?_⟩
  · refine (outcome_bind_of_ok (hmakes.outcome_findDestination rfl src)).trans ?_
    exact outcome_proceed_wouldCreate hr.sound hsrc rfl id _
  · cases obstructed with
    | making _ opened =>
      exact congrArg Prod.fst (outcome_bind_of_error (outcome_findDestination_of_open makes.byName
        makes.getTag_eq_none opened makes.selected wet src))
    | copying stalls => exact absurd hkeeps stalls.1
  · have closed : h.before = none := by
      by_contra opened
      exact free (.making rfl opened)
    have hf : Found o h src _ _ := .created makes.byName makes.missing closed makes.selected
    have hcreated : DestinationState.created ≠ .wouldCreate := nofun
    obtain ⟨-, -, hplan⟩ := hf.planOn_created hr hl makes
    obtain ⟨-, hgoes⟩ := hf.outcome_proceed hr hl wet hcreated id
    rw [hplan] at hgoes
    obtain ⟨a, h', hproceed⟩ := hgoes fun stalls => stalls.1 hkeeps
    have hfind := outcome_findDestination_of_missing hr hl wet makes.byName makes.missing closed
      makes.selected
    have hran : ran = _ := (outcome_bind_of_ok hfind).trans hproceed
    refine ⟨_, congrArg Prod.fst hran, ?_⟩
    exact { requestId := rfl, event := rfl, src := rfl, plan := rfl, report := rfl, name := rfl
            config := rfl, existing := nofun, created := iff_of_true rfl rfl }

end

lemma outcome_stages_of_error {e : Failure}
    (hlook : outcome Hub.session (lookUp o) h = (.error e, mid)) (id : String) :
    outcome Hub.session (stages id o) h = (.error e, mid) := by
  rw [stages_eq]
  exact outcome_bind_of_error hlook

lemma LookedUp.outcome_stages (hl : LookedUp o h size event src) (id : String) :
    outcome Hub.session (stages id o) h =
      outcome Hub.session (findDestination o src >>= fun (dst, state) =>
        proceed id o size event src dst state) h := by
  rw [stages_eq]
  refine (outcome_bind_of_ok (outcome_lookUp_eq_ok.mpr ⟨hl, rfl⟩)).trans ?_
  rfl

/-- A dry run and the run itself, stage by stage. -/
lemma stages_foretold (hr : h.Reachable) (wet : o.dryRun = false) (id : String) :
    let rehearsed := outcome Hub.session (stages id { o with dryRun := true }) h
    let ran := outcome Hub.session (stages id o) h
    (∀ f, rehearsed.1 = .error f → ran = (.error f, h)) ∧
      ∀ r, rehearsed.1 = .ok r → (Obstructed o.flags h r → ran.1 = .error Hub.nested) ∧
        (¬ Obstructed o.flags h r → ∃ r', ran.1 = .ok r' ∧ Foretells r r') := by
  intro rehearsed ran
  rcases hlook : outcome Hub.session (lookUp o) h with ⟨e | ⟨size, event, src⟩, h₁⟩
  · obtain rfl : h₁ = h := by rw [← readOnly_lookUp o h, hlook]
    have hrehearsed : rehearsed = (.error e, h₁) :=
      outcome_stages_of_error (o := { o with dryRun := true }) hlook id
    have hran : ran = (.error e, h₁) := outcome_stages_of_error hlook id
    rw [hrehearsed, hran]
    exact ⟨fun f hf => by cases hf; rfl, fun r hr => (nomatch hr)⟩
  obtain ⟨hl, rfl⟩ := outcome_lookUp_eq_ok.mp hlook
  have hl' : LookedUp { o with dryRun := true } h₁ size event src :=
    ⟨hl.options, hl.allowed, hl.pinned, hl.source, hl.unlocked⟩
  have hrehearsed : rehearsed = _ := hl'.outcome_stages id
  have hran : ran = _ := hl.outcome_stages id
  by_cases makes : ∃ name, Makes o h₁ name
  · obtain ⟨name, makes⟩ := makes
    obtain ⟨hdry, hboth⟩ := makes.foretells hr wet hl id
    rw [hrehearsed, hran, hdry]
    exact ⟨fun f hf => (nomatch hf), fun r hr => by cases hr; exact hboth⟩
  · have makes : ∀ name, ¬ Makes o h₁ name := not_exists.mp makes
    have hfinds := findDestination_eq_of_not_makes makes src true
    rcases hfind : outcome Hub.session (findDestination o src) h₁ with ⟨e | ⟨dst, state⟩, mid⟩
    · obtain rfl : mid = h₁ := by
        rw [← readOnly_findDestination (o := { o with dryRun := true }) rfl src h₁, hfinds, hfind]
      rw [hrehearsed, hran, outcome_bind_of_error (hfinds.trans hfind),
        outcome_bind_of_error hfind]
      exact ⟨fun f hf => by cases hf; rfl, fun r hr => (nomatch hr)⟩
    · obtain ⟨hf, rfl, rfl⟩ := existing_of_findDestination hr.sound wet makes hfind
      obtain ⟨hdry, hboth⟩ := hf.foretells hr wet hl id
      rw [hrehearsed, hran, outcome_bind_of_ok (hfinds.trans hfind), outcome_bind_of_ok hfind]
      dsimp only
      rw [hdry]
      exact ⟨fun f hf => (nomatch hf), fun r hr => by cases hr; exact hboth⟩

/-- **A dry run writes nothing, and foretells the run itself**: where it fails the run fails in the
same way, and where it succeeds the run finds and plans the same, and makes its destination just if
an empty tag stands for it now. Only one thing is not foretold. A run that makes its destination, or
copies the settings at last, fails if a transaction is open then, from before or from a call of its
own that was rejected. -/
theorem dryRun_foretells (hr : h.Reachable) (c : RunContext) (o : CloneOptions) :
    let rehearsed := (run c { o with dryRun := true }).run Hub.session h
    let ran := (run c { o with dryRun := false }).run Hub.session h
    rehearsed.state = h ∧
      (∀ f, rehearsed.result = .error f → ran.result = .error f ∧ ran.state = h) ∧
      ∀ r, rehearsed.result = .ok r →
        (Obstructed o.flags h r → ran.result = .error (inContext c Hub.nested)) ∧
        (¬ Obstructed o.flags h r → ∃ r', ran.result = .ok r' ∧ Foretells r r') := by
  intro rehearsed ran
  obtain ⟨hfails, hsucceeds⟩ :=
    stages_foretold (o := { o with dryRun := false }) hr rfl c.requestId
  obtain ⟨hrehearsed, hstate⟩ := run_eq c { o with dryRun := true } h
  obtain ⟨hran, hlast⟩ := run_eq c { o with dryRun := false } h
  refine ⟨hstate.trans (readOnly_stages rfl c.requestId h), fun f hf => ?_, fun r hok => ?_⟩
  · rcases hdry : outcome Hub.session (stages c.requestId { o with dryRun := true }) h with
      ⟨e | r, h'⟩
    · rw [hdry] at hrehearsed
      obtain rfl : inContext c e = f := Except.error.inj (hrehearsed.symm.trans hf)
      have hsame := hfails e (congrArg Prod.fst hdry)
      rw [hsame] at hran hlast
      exact ⟨hran, hlast⟩
    · rw [hdry] at hrehearsed
      cases hrehearsed.symm.trans hf
  · rcases hdry : outcome Hub.session (stages c.requestId { o with dryRun := true }) h with
      ⟨e | r', h'⟩
    · rw [hdry] at hrehearsed
      cases hrehearsed.symm.trans hok
    rw [hdry] at hrehearsed
    obtain rfl : r' = r := Except.ok.inj (hrehearsed.symm.trans hok)
    obtain ⟨hobstructed, hfree⟩ := hsucceeds r' (congrArg Prod.fst hdry)
    refine ⟨fun obstructed => ?_, fun free => ?_⟩
    · rw [hobstructed obstructed] at hran
      exact hran
    · obtain ⟨r, hr, hforetells⟩ := hfree free
      rw [hr] at hran
      exact ⟨r, hran, hforetells⟩

/-! ### A destination that refuses a build -/

/-- The source `s` has other settings than the destination `d`, and a build of the package `b`,
which `d` blocks. -/
def contested : Seed :=
  { schemaVersion := 0, users := [⟨"u", ["admin"]⟩]
    builds := ["a", "b"].map fun package =>
      { package, version := "1", release := "1", owner := "u" }
    tags := [
      { name := "s", config := { arches := some "i686" }
        packages := ["a", "b"].map fun name => { name, owner := "u" }
        builds := ["a-1-1", "b-1-1"] },
      { name := "d", packages := [{ name := "b", owner := "u", blocked := true }] }] }

def contestedHub : Hub := (({ user := "u" } : Hub).importSeed contested).2

lemma reachable_contestedHub : contestedHub.Reachable := by
  have checked : contested.check .empty = .ok () := rfl
  exact .importSeed checked (.start "u" _)

def contestedOptions : CloneOptions := { src := .byName "s", dst := .byName "d" }

/-- A dry run says that the settings of `d` will be copied, but the run fails to do so, since the
build of `b` is refused before. The same run to a new tag does what a dry run says. -/
theorem dryRun_foretells_contested :
    (∃ r, ((run ⟨"r", none⟩ { contestedOptions with dryRun := true }).run Hub.session
        contestedHub).result = .ok r ∧ r.plan.config = some { arches := some "i686" } ∧
      ((run ⟨"r", none⟩ contestedOptions).run Hub.session contestedHub).result =
        .error (inContext ⟨"r", none⟩ Hub.nested)) ∧
    ∃ r r', ((run ⟨"r", none⟩ { src := .byName "s", dst := .byName "n", dryRun := true }).run
        Hub.session contestedHub).result = .ok r ∧
      ((run ⟨"r", none⟩ { src := .byName "s", dst := .byName "n" }).run
        Hub.session contestedHub).result = .ok r' ∧
      r'.destination = .created ∧ r'.plan = r.plan ∧ r.plan.operationCount = 4 := by
  constructor
  · obtain ⟨-, -, hsucceeds⟩ :=
      dryRun_foretells reachable_contestedHub ⟨"r", none⟩ contestedOptions
    obtain ⟨r, hr, hplan⟩ := exists_result (c := ⟨"r", none⟩)
      (o := { contestedOptions with dryRun := true }) (h := contestedHub)
      (p := fun r => r.plan.config = some { arches := some "i686" } ∧
        r.dst = ⟨2, "d", {}⟩ ∧ .tagBuild "b-1-1" ∈ r.plan.operations) (by decide +kernel)
    obtain ⟨hconfig, hdst, hbuild⟩ := of_decide_eq_true hplan
    refine ⟨r, hr, hconfig, (hsucceeds r hr).1 (.copying ⟨by rw [hconfig]; nofun, .inr ?_⟩)⟩
    rw [hdst]
    exact ⟨rfl, _, hbuild, by decide +kernel⟩
  · obtain ⟨-, -, hsucceeds⟩ := dryRun_foretells reachable_contestedHub ⟨"r", none⟩
      { src := .byName "s", dst := .byName "n" }
    obtain ⟨r, hr, hplan⟩ := exists_result (c := ⟨"r", none⟩)
      (o := { src := .byName "s", dst := .byName "n", dryRun := true }) (h := contestedHub)
      (p := fun r => r.plan.config = none ∧ r.destination = .wouldCreate ∧
        r.plan.operationCount = 4) (by decide +kernel)
    obtain ⟨hconfig, hmissing, hcount⟩ := of_decide_eq_true hplan
    obtain ⟨r', hr', hforetells⟩ := (hsucceeds r hr).2 fun obstructed => by
      cases obstructed with
      | making _ opened => exact opened rfl
      | copying stalls => exact stalls.1 hconfig
    exact ⟨r, r', hr, hr', hforetells.created.mpr hmissing, hforetells.plan, hcount⟩

end Clone

end TagSync
