import TagSync.Proofs.Rejections
import TagSync.Proofs.Replica

/-!
Runs that make their destination.

When all is selected and nothing is left out, the new tag is a copy of the source, and a second
run has nothing to do. Only a hub with an open transaction cannot make the tag.
-/

namespace TagSync.Clone

open Dialog

variable {h h' mid : Hub} {o : CloneOptions} {src dst : TagInfo} {size : BatchSize}
  {event : Option EventInfo} {r : CloneResult}

/-! ### A destination that is made -/

namespace Found

variable (hf : Found o h src dst mid) (missing : h.tables.getTag o.dst none = none)

include hf missing

lemma exists_created : ∃ name, h.tables.tagNamed? name = none ∧
    dst = ⟨h.tables.tags.length + 1, name, src.config⟩ ∧
    mid = { h with tables := h.tables.withTag h.clock name src.config } := by
  cases hf with
  | existing found =>
    rw [missing] at found
    cases found
  | created byName new => exact ⟨_, new, rfl, rfl⟩

lemma layers_blank (hr : h.Reachable) : mid.tables.layers dst.id = .blank := by
  rw [hf.layers_eq hr]
  obtain ⟨name, -, rfl, -⟩ := hf.exists_created missing
  exact Tables.layers_new hr.sound hr.grounded

/-- Who may write to a tag with the settings of the source may write to the new tag. -/
lemma mayWrite_eq : mid.mayWrite dst = h.mayWrite src := by
  obtain ⟨name, -, rfl, rfl⟩ := hf.exists_created missing
  rfl

/-- The new tag does not change what the others list. -/
lemma replica {d : TagId} {t' : Tables} {m : Option EventId} {inheritBuilds : Bool}
    (hr : h.Reachable) {id : TagId} (hid : id ≤ h.tables.tags.length)
    (copy : mid.tables.Replica id m inheritBuilds t' d) :
    h.tables.Replica id m inheritBuilds t' d := by
  have hmid := (hf.reachable hr).sound
  obtain ⟨name, new, -, rfl⟩ := hf.exists_created missing
  have honward : h.tables.Onward (h.tables.withTag h.clock name src.config) :=
    (Tables.Onward.refl h.tables).step hr.sound (.createTag src.config new)
  have hsame : Tables.SameRecords h.tables m (h.tables.withTag h.clock name src.config) m :=
    ⟨rfl, rfl, rfl, rfl⟩
  have hpackages := honward.listPackages_eq hr.sound hmid hsame hid true
  have hbuilds := honward.listBuilds_eq hr.sound hmid hsame hid hr.grounded inheritBuilds false
  have hgroups := honward.listGroups_eq hr.sound hmid hsame hid
  exact ⟨by rw [← hpackages]; exact copy.packages, by rw [← hbuilds]; exact copy.builds,
    by rw [← hgroups]; exact copy.groups, copy.active⟩

end Found

/-! ### The run -/

/-- Once its destination is found, a run goes on with it. -/
lemma Found.outcome_stages (hf : Found o h src dst mid) (hr : h.Reachable)
    (hl : LookedUp o h size event src) (wet : o.dryRun = false) (id : String) :
    ∃ state, state ≠ .wouldCreate ∧ outcome Hub.session (stages id o) h =
      outcome Hub.session (proceed id o size event src dst state) mid := by
  obtain ⟨state, hstate, hfind⟩ := hf.outcome_findDestination hr hl wet
  refine ⟨state, hstate, ?_⟩
  rw [stages_eq]
  refine (outcome_bind_of_ok (outcome_lookUp_eq_ok.mpr ⟨hl, rfl⟩)).trans ?_
  dsimp only
  rw [outcome_bind_of_ok hfind]

/-- **A run is clean** when no call of its plan is refused. -/
theorem exists_cleanRun_of_accepted (hr : h.Reachable) (wet : o.dryRun = false)
    (hl : LookedUp o h size event src) (hf : Found o h src dst mid)
    (may : mid.mayWrite dst = true)
    (keeps : (planOn o mid.tables (event.map EventInfo.id) src dst).config = none)
    (accepted : ∀ op ∈ (planOn o mid.tables (event.map EventInfo.id) src dst).operations,
      ¬ mid.tables.Refuses dst.id o.flags.force op) (c : RunContext) :
    ∃ r, ((run c o).run Hub.session h).result = .ok r ∧
      CleanRun o h r ((run c o).run Hub.session h).state ∧ r.src = src ∧ r.dst = dst := by
  let plan := planOn o mid.tables (event.map EventInfo.id) src dst
  have hmid := (hf.reachable hr).sound
  have hdst := hf.getTag_destination hr
  have hsrc := hf.isSome_tag? (hr.sound.isSome_tag?_of_getTag hl.source)
  obtain ⟨state, hstate, hstages⟩ := hf.outcome_stages hr hl wet c.requestId
  rw [outcome_proceed hmid hsrc (hmid.isSome_tag?_of_getTag hdst) hstate] at hstages
  simp only [wet, Bool.false_eq_true, if_false, outcome_apply o.flags hdst, keeps] at hstages
  have hresult := (run_eq c o h).1
  rw [hstages] at hresult
  have hnamed : ((run c o).run Hub.session h).result = .ok _ := hresult
  refine ⟨_, hnamed, ⟨⟨c, hnamed, rfl⟩, ?_⟩, rfl, rfl⟩
  have hrejections :
      rejections (plan.operations.zip (mid.answers dst o.flags plan.operations).1) = [] := by
    refine List.filterMap_eq_nil_iff.mpr fun p hp => ?_
    have haccepted := accepted p.1 (List.of_mem_zip hp).1
    rw [(hf.answers_eq_ok_iff hr hl may rfl p hp).mpr haccepted]
  simp [conclude, Plan.answered, ApplyReport.counting, ApplyReport.isClean, plan, hrejections]

/-- While a transaction is open no tag can be made. -/
lemma outcome_findDestination_of_open {name : String} (byName : o.dst = .byName name)
    (missing : h.tables.getTag o.dst none = none) (opened : h.before ≠ none)
    (selected : o.selection.config = true) (wet : o.dryRun = false) (src : TagInfo) :
    outcome Hub.session (findDestination o src) h =
      (.error (Hub.storageFailure "cannot start a transaction within a transaction"), h) := by
  have hask : outcome Hub.session (ask (.getTag o.dst none)) h = (.ok none, h) := by
    rw [outcome_getTag, missing]
  have hnew : h.tables.tagNamed? name = none := by
    rwa [byName, Tables.getTag_none, Option.map_eq_none_iff] at missing
  refine (outcome_bind_of_ok hask).trans (outcome_bind_of_error ?_)
  unfold createDestination
  rw [byName]
  dsimp only
  rw [if_neg (by simp [selected]), if_neg (by simp [wet])]
  exact outcome_bind_of_error (outcome_createTag_of_open hnew opened src.config)

/-- **With an open transaction no copy is begun**: a run that needs a new tag fails, and leaves
the hub as it is. -/
theorem run_of_open {name : String} (hl : LookedUp o h size event src)
    (byName : o.dst = .byName name) (missing : h.tables.getTag o.dst none = none)
    (opened : h.before ≠ none) (selected : o.selection.config = true) (wet : o.dryRun = false)
    (c : RunContext) :
    ((run c o).run Hub.session h).state = h ∧ ((run c o).run Hub.session h).result =
      .error (inContext c
        (Hub.storageFailure "cannot start a transaction within a transaction")) := by
  have hstages : outcome Hub.session (stages c.requestId o) h =
      (.error (Hub.storageFailure "cannot start a transaction within a transaction"), h) := by
    rw [stages_eq]
    refine (outcome_bind_of_ok (outcome_lookUp_eq_ok.mpr ⟨hl, rfl⟩)).trans ?_
    exact outcome_bind_of_error
      (outcome_findDestination_of_open byName missing opened selected wet src)
  obtain ⟨hresult, hstate⟩ := run_eq c o h
  rw [hstages] at hresult hstate
  exact ⟨hstate, hresult⟩

/-- **A run that makes its destination is clean**, since a new tag refuses no call. -/
theorem exists_cleanRun_of_missing {name : String} (hr : h.Reachable)
    (hl : LookedUp o h size event src) (byName : o.dst = .byName name)
    (missing : h.tables.getTag o.dst none = none) (closed : h.before = none)
    (selected : o.selection.config = true) (wet : o.dryRun = false)
    (may : h.mayWrite src = true) (c : RunContext) :
    ∃ r, ((run c o).run Hub.session h).result = .ok r ∧
      CleanRun o h r ((run c o).run Hub.session h).state ∧ r.src = src := by
  have hnew : h.tables.tagNamed? name = none := by
    rwa [byName, Tables.getTag_none, Option.map_eq_none_iff] at missing
  have hf : Found o h src _ _ := .created byName hnew closed selected
  obtain ⟨row, hrow, -⟩ := (hf.reachable hr).sound.tag?_of_getTag (hf.getTag_destination hr)
  have hkeeps : Diff.config src ⟨h.tables.tags.length + 1, name, src.config⟩ = none := if_pos rfl
  obtain ⟨r, hresult, clean, hsrc, -⟩ := exists_cleanRun_of_accepted hr wet hl hf
    (by rwa [hf.mayWrite_eq missing]) (by rw [planOn_config, hkeeps, ite_self])
    (fun op _ => Tables.not_refuses_of_blank hrow (hf.layers_blank missing hr) _ op) c
  exact ⟨r, hresult, clean, hsrc⟩

/-- **A clean run makes a copy** of its source if all is selected and nothing is left out. -/
theorem Course.replica (c : Course o h r h') (hr : h.Reachable) (all : o.selection = .all)
    (full : o.latestOnly = false) (missing : h.tables.getTag o.dst none = none) :
    h.tables.Replica r.src.id (c.event.map EventInfo.id) o.inheritBuilds h'.tables r.dst.id := by
  have hmid := (c.found.reachable hr).sound
  obtain ⟨row, hrow⟩ := c.exists_row hr
  have blank : c.layers = .blank := c.found.layers_blank missing hr
  have hlast := c.later.confined.sound hmid
  obtain ⟨row', hrow', -⟩ := hlast.tag?_of_getTag (hlast.getTag_byId c.getTag_dst)
  have hlayers := c.layers_after hr
  rw [all, blank, Wish.after_blank, Course.wish, all, full] at hlayers
  have hcalled := c.called
  rw [c.plan, planOn, all, full] at hcalled
  have hsource := hr.sound.tag?_of_getTag c.looked.source
  obtain ⟨srcRow, hsrcRow, -⟩ := hsource
  have hid := hr.sound.tag_le (Tables.mem_of_tag? hsrcRow)
  rw [Tables.id_of_tag? hsrcRow] at hid
  refine c.found.replica missing hr hid (Tables.replica_of_record hlast hrow' hlayers hmid full ?_)
  intro name
  have hrows :=
    Tables.packageRow?_of_carriedOut hrow blank hmid Tables.snapshot_packages hcalled name
  rw [c.tables_eq, Tables.packageRow?_copyConfig]
  exact hrows

/-- **After a copy there is nothing left to do**, if nobody else touches the hub. -/
theorem Course.isEmpty_again_of_missing (c : Course o h r h') (hr : h.Reachable)
    (hc : h.clock.Forward) (wet : o.dryRun = false) (all : o.selection = .all)
    (missing : h.tables.getTag o.dst none = none) (c' : RunContext) :
    ∃ r', ((run c' o).run Hub.session h').result = .ok r' ∧ r'.plan.isEmpty = true := by
  obtain ⟨dst, hdst, hid, hunlocked, hconfig⟩ := c.exists_dst
  have apart : Apart o h := by
    intro _ _ dst hdst
    rw [missing] at hdst
    cases hdst
  obtain ⟨r', hresult', hempty⟩ := c.exists_next hr hc apart c.later wet hdst hid hunlocked
    hconfig c'
  have hlisted : c.wish.Listed :=
    Tables.listed_ofSnapshot (c.found.reachable hr).sound c.looked.selects
  have blank : c.layers = .blank := c.found.layers_blank missing hr
  refine ⟨r', hresult', hempty.mpr fun s => ?_⟩
  rw [c.layers_after hr, all, blank]
  exact Wish.write?_after_blank hlisted _ s

/-- **A run copies a tag to a name that is not taken**: it is clean, the new tag shows what the
source shows and has its settings, and a second run has nothing to do. With an open transaction
the run fails, and leaves the hub as it is. -/
theorem replica_of_missing {name : String} (hr : h.Reachable) (hc : h.clock.Forward)
    (all : o.selection = .all) (full : o.latestOnly = false) (wet : o.dryRun = false)
    (batch : 0 ≤ o.batch)
    (allowed : (h.tables.hasPerm h.user "admin" || h.tables.hasPerm h.user "tag") = true)
    (pinned : h.tables.pinned? o.asOf = some event)
    (source : h.tables.getTag o.src (event.map EventInfo.id) = some src)
    (unlocked : (src.isLocked && !o.flags.force) = false) (may : h.mayWrite src = true)
    (byName : o.dst = .byName name) (missing : h.tables.getTag o.dst none = none)
    (c : RunContext) :
    let done := (run c o).run Hub.session h
    (h.before = none → ∃ r dst, done.result = .ok r ∧
      r.applied.any ApplyReport.isClean = true ∧
      done.state.tables.getTag o.dst none = some dst ∧ dst.config = src.config ∧
      h.tables.Replica src.id (event.map EventInfo.id) o.inheritBuilds done.state.tables dst.id ∧
      ∀ c', ∃ r', ((run c' o).run Hub.session done.state).result = .ok r' ∧
        r'.plan.isEmpty = true) ∧
    (h.before ≠ none → done.state = h ∧ done.result = .error (inContext c
      (Hub.storageFailure "cannot start a transaction within a transaction"))) := by
  intro done
  have hne : o.src ≠ o.dst := by
    intro heq
    rw [heq] at source
    rw [Tables.getTag_now source] at missing
    cases missing
  have hl : LookedUp o h ⟨o.batch.toNat⟩ event src := by
    refine ⟨?_, allowed, pinned, source, unlocked⟩
    simp [checkOptions, hne, BatchSize.ofInt, Int.not_lt.mpr batch, all, ClassSelection.all]
  have selected : o.selection.config = true := by rw [all]; rfl
  refine ⟨fun closed => ?_, fun opened => run_of_open hl byName missing opened selected wet c⟩
  obtain ⟨r, hresult, clean, rfl⟩ :=
    exists_cleanRun_of_missing hr hl byName missing closed selected wet may c
  obtain ⟨course⟩ := clean.course hr wet
  have hcopy := course.replica hr all full missing
  rw [(hl.unique course.looked).1] at hcopy
  obtain ⟨dst, hdst, hid, -, hconfig⟩ := course.exists_dst
  exact ⟨r, dst, hresult, clean.clean, hdst, (hconfig selected).symm, by rw [hid]; exact hcopy,
    course.isEmpty_again_of_missing hr hc wet all missing⟩

/-! ### A tag with blocks -/

/-- The source `s` blocks a package and a member, has a build that failed, and inherits from `p`,
which blocks a group. -/
def patchwork : Seed :=
  { schemaVersion := 0, users := [⟨"u", ["tag"]⟩]
    builds := [
      { package := "a", version := "1", release := "1", owner := "u" },
      { package := "a", version := "2", release := "1", state := "FAILED", owner := "u" },
      { package := "b", version := "1", release := "1", owner := "u" }]
    tags := [
      { name := "p", packages := [{ name := "b", owner := "u" }], builds := ["b-1-1"]
        groups := [{ name := "f", blocked := true }] },
      { name := "s", config := { arches := some "i686" }, parents := [{ name := "p" }]
        packages := [{ name := "a", owner := "u", extraArches := some "ppc" },
          { name := "c", owner := "v", blocked := true }]
        builds := ["a-1-1", "a-2-1"]
        groups := [
          { name := "g", members := [{ name := "a" }, { name := "b", blocked := true }] }] }] }

def patchworkHub : Hub :=
  (({ user := "u", clock := .wall fun _ => 0 } : Hub).importSeed patchwork).2

/-- The hub after a call that was rejected. -/
def patchworkOpenHub : Hub :=
  (patchworkHub.session (.multicall 2 [.removeGroup "f"] {})).state

def patchworkOptions : CloneOptions :=
  { src := .byName "s", dst := .byName "n", inheritBuilds := true, asOf := some (.event 1)
    batch := 0 }

/-- The copy has all packages, and what is neither blocked nor failed of the rest. -/
theorem replica_of_missing_patchwork :
    (∃ t dst own, dst.config.arches = some "i686" ∧
      ((run ⟨"r", none⟩ patchworkOptions).run Hub.session patchworkHub).state.tables = t ∧
      t.getTag (.byName "n") none = some dst ∧
      (t.listPackages dst.id true none).map PackageEntry.listed =
        [("a", "u", false, some "ppc"), ("b", "u", false, none), ("c", "v", true, none)] ∧
      t.listBuilds dst.id false false none = .ok own ∧
      (own.map BuildEntry.nvr).Perm ["a-1-1", "b-1-1"] ∧
      (t.listGroups dst.id none).map GroupEntry.roster = [("g", ["a"])]) ∧
    ((run ⟨"r", none⟩ patchworkOptions).run Hub.session patchworkOpenHub).result.toOption =
      none := by
  have checked : patchwork.check .empty = .ok () := rfl
  have hr : patchworkHub.Reachable := .importSeed checked (.start "u" _)
  have hc : patchworkHub.clock.Forward := Clock.forward_wall fun _ => by decide +kernel
  have pinned : patchworkHub.tables.pinned? patchworkOptions.asOf = some (some ⟨1, 0⟩) := rfl
  have source : patchworkHub.tables.getTag patchworkOptions.src (some 1) =
      some ⟨2, "s", { arches := some "i686" }⟩ := by decide +kernel
  have missing : patchworkHub.tables.getTag patchworkOptions.dst none = none := by decide +kernel
  constructor
  · obtain ⟨hcopy, -⟩ := replica_of_missing hr hc rfl rfl rfl (by decide) (by decide +kernel)
      pinned source rfl rfl rfl missing ⟨"r", none⟩
    obtain ⟨r, dst, -, -, hdst, hconfig, copy, -⟩ := hcopy rfl
    obtain ⟨shown, own, hshown, hown, hperm⟩ := copy.builds
    have hcomplete : (patchworkHub.tables.listBuilds 2 true false (some 1)).toOption.map
        (fun l => (l.filter BuildEntry.isComplete).map BuildEntry.nvr) =
          some ["a-1-1", "b-1-1"] := by decide +kernel
    rw [show patchworkHub.tables.listBuilds 2 true false (some 1) = .ok shown from hshown]
      at hcomplete
    refine ⟨_, dst, own, by rw [hconfig], rfl, hdst, copy.packages.trans ?_, hown,
      hperm.trans (.of_eq (Option.some.inj hcomplete)), copy.groups.trans ?_⟩ <;> decide +kernel
  · -- the rejected call has changed no tables
    have hr : patchworkOpenHub.Reachable := hr.request _
    have hc : patchworkOpenHub.clock.Forward := hc
    have pinned : patchworkOpenHub.tables.pinned? patchworkOptions.asOf = some (some ⟨1, 0⟩) := rfl
    have source : patchworkOpenHub.tables.getTag patchworkOptions.src (some 1) =
        some ⟨2, "s", { arches := some "i686" }⟩ := by decide +kernel
    have missing : patchworkOpenHub.tables.getTag patchworkOptions.dst none = none := by
      decide +kernel
    obtain ⟨-, hfails⟩ := replica_of_missing hr hc rfl rfl rfl (by decide) (by decide +kernel)
      pinned source rfl rfl rfl missing ⟨"r", none⟩
    rw [(hfails nofun).2]
    rfl

end TagSync.Clone
