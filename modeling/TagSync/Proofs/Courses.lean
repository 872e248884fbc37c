import TagSync.Proofs.Runs
import TagSync.Proofs.Settling

/-!
Clean runs, one after another.

A clean run carries out its plan as a whole. Since nothing but its destination changes, the next
run with the same options finds the same source and the same wishes.
-/

namespace TagSync

/-! ### Points of history -/

/-- A point of history that was found once is found later, and nothing was written between the
two events it means. -/
lemma Tables.pinned?_later {c : Clock} {t t' : Tables} {asOf : Option AsOf}
    {event : Option EventInfo} {new : List EventInfo} (ht : t.Sound) (ht' : t'.Sound)
    (htimed : t'.Timed c) (hevents : t'.events = t.events ++ new) (hrepos : t'.repos = t.repos)
    (h : t.pinned? asOf = some event) :
    ∃ event', t'.pinned? asOf = some event' ∧
      SameMoment t.events.length (event.map EventInfo.id) (event'.map EventInfo.id) ∧
      ∀ i', event'.map EventInfo.id = some i' → ∃ i, event.map EventInfo.id = some i ∧ i ≤ i' := by
  rcases asOf with _ | asOf
  · cases h
    exact ⟨none, rfl, .inl rfl, nofun⟩
  · obtain ⟨e, he, rfl⟩ := Option.map_eq_some_iff.mp h
    obtain ⟨e', he', hsame⟩ := Tables.resolveEvent_later htimed hevents hrepos he
    refine ⟨some e', by rw [pinned?, he']; rfl, ?_⟩
    rcases hsame with rfl | ⟨hlast, hmem⟩
    · exact ⟨.inl rfl, fun i' hi' => ⟨i', hi', Int.le_refl _⟩⟩
    · have hid := ht.id_getLast? hlast
      have hlt := ht'.lt_id_of_mem_new hevents hmem
      refine ⟨.inr ⟨fun i hi => ?_, fun i hi => ?_⟩, fun i hi => ⟨e.id, rfl, ?_⟩⟩ <;> cases hi
      · exact Int.le_of_eq hid.symm
      · exact Int.le_of_lt hlt
      · exact Int.le_trans (Int.le_of_eq hid) (Int.le_of_lt hlt)

namespace Clone

variable {h h' h'' mid : Hub} {o : CloneOptions} {src dst : TagInfo} {size : BatchSize}
  {event : Option EventInfo} {r r' : CloneResult}

/-- The source does not inherit from the destination, if both are there. -/
def Apart (o : CloneOptions) (h : Hub) : Prop :=
  ∀ src ∈ h.tables.getTag o.src none, ∀ dst ∈ h.tables.getTag o.dst none,
    ∀ a ∈ h.tables.chain src.id, a.id ≠ dst.id

instance (o : CloneOptions) (h : Hub) : Decidable (Apart o h) :=
  inferInstanceAs (Decidable (∀ src ∈ h.tables.getTag o.src none,
    ∀ dst ∈ h.tables.getTag o.dst none, ∀ a ∈ h.tables.chain src.id, a.id ≠ dst.id))

/-- **A clean run** from one hub to another: it succeeds, and no call of its plan is rejected. -/
structure CleanRun (o : CloneOptions) (h : Hub) (r : CloneResult) (h' : Hub) : Prop where
  ran : ∃ c : RunContext, ((run c o).run Hub.session h).result = .ok r ∧
    ((run c o).run Hub.session h).state = h'
  clean : r.applied.any ApplyReport.isClean = true

lemma exists_cleanRun (c : RunContext) {p : CloneResult → Bool}
    (clean : (((run c o).run Hub.session h).result.toOption.any fun r =>
      r.applied.any ApplyReport.isClean && p r) = true) :
    ∃ r, CleanRun o h r ((run c o).run Hub.session h).state ∧ p r = true := by
  obtain ⟨r, hresult, hboth⟩ := exists_result clean
  obtain ⟨hclean, hp⟩ := (Bool.and_eq_true ..).mp hboth
  exact ⟨r, ⟨⟨c, hresult, rfl⟩, hclean⟩, hp⟩

lemma CleanRun.reachable (hr : h.Reachable) (run : CleanRun o h r h') : h'.Reachable := by
  obtain ⟨c, -, hstate⟩ := run.ran
  rw [← hstate]
  exact hr.run _

/-! ### What finding the destination changes -/

namespace Found

variable (hf : Found o h src dst mid)

include hf

lemma same : mid.tables.users = h.tables.users ∧ mid.tables.perms = h.tables.perms ∧
    mid.tables.inheritance = h.tables.inheritance ∧ mid.tables.repos = h.tables.repos := by
  cases hf <;> exact ⟨rfl, rfl, rfl, rfl⟩

lemma events : ∃ new, mid.tables.events = h.tables.events ++ new := by
  cases hf with
  | existing => exact ⟨[], (List.append_nil _).symm⟩
  | created => exact ⟨_, rfl⟩

/-- Nothing is written to the content of any tag. -/
lemma writtenTo (ht : h.tables.Sound) : mid.tables.WrittenTo h.tables.events.length := by
  cases hf with
  | existing => exact ht.writtenTo
  | created => exact ⟨ht.packages, ht.taggings, ht.groups, ht.members⟩

lemma getTag_of {ref : TagRef} {m : Option EventId} {tag : TagInfo}
    (found : h.tables.getTag ref m = some tag) : mid.tables.getTag ref m = some tag := by
  cases hf with
  | existing => exact found
  | created => exact Tables.getTag_withTag_of found ..

lemma getTag_dst : mid.tables.getTag o.dst none = some dst := by
  cases hf with
  | existing found => exact found
  | created byName missing =>
    rw [byName]
    exact Tables.getTag_withTag_self missing ..

lemma of_getTag {tag : TagInfo} (found : h.tables.getTag o.dst none = some tag) :
    mid = h ∧ dst = tag := by
  cases hf with
  | existing found' => exact ⟨rfl, Option.some.inj (found'.symm.trans found)⟩
  | created byName missing =>
    rw [byName, Tables.getTag_none, Tables.row?, missing] at found
    cases found

lemma unlocked (hl : LookedUp o h size event src) :
    (dst.isLocked && !o.flags.force) = false := by
  cases hf with
  | existing _ unlocked => exact unlocked
  | created => exact hl.unlocked

/-- A destination that is made has no records, nor has it had any before. -/
lemma layers_eq (hr : h.Reachable) :
    mid.tables.layers dst.id = h.tables.layers dst.id := by
  cases hf with
  | existing => rfl
  | created =>
    have hparents := hr.sound.parents_new
    have hparents' : ∀ c name config, (h.tables.withTag c name config).parents
        (h.tables.tags.length + 1) = [] := fun _ _ _ => by
      rw [Tables.parents_congr rfl]
      exact hparents
    rw [Tables.layers, Tables.layers, Tables.above_of_parents hparents,
      Tables.above_of_parents (hparents' ..)]
    rfl

lemma ne (hr : h.Reachable) (hl : LookedUp o h size event src) : src.id ≠ dst.id := by
  cases hf with
  | existing _ _ apart => exact apart
  | created =>
    obtain ⟨row, hrow, -⟩ := hr.sound.tag?_of_getTag hl.source
    have := hr.sound.tag_le (Tables.mem_of_tag? hrow)
    rw [Tables.id_of_tag? hrow] at this
    exact Int.ne_of_lt (Int.lt_add_one_of_le this)

/-- The source does not inherit from the destination, which may be new. -/
lemma not_mem_walk (hr : h.Reachable) (apart : Apart o h) (hl : LookedUp o h size event src) :
    dst.id ∉ mid.tables.walk [src.id] [] := by
  have hne := hf.ne hr hl
  intro hwalk
  rw [Tables.walk_congr hf.same.2.2.1] at hwalk
  cases hf with
  | existing found =>
    obtain ⟨row, hrow, -⟩ := hr.sound.tag?_of_getTag found
    refine apart src (Tables.getTag_now hl.source) dst found row ?_ (Tables.id_of_tag? hrow)
    exact List.mem_filterMap.mpr ⟨dst.id, hwalk, hrow⟩
  | created =>
    rcases Tables.mem_todo_or_parent_of_mem_walk hwalk with hmem | ⟨r, hr', hparent⟩
    · exact hne (List.mem_singleton.mp hmem).symm
    · have := (hr.sound.heirs r hr').2
      rw [hparent] at this
      exact absurd this (Int.not_le.mpr (Int.lt_add_one_of_le (Int.le_refl _)))

end Found

/-! ### Later hubs -/

/-- A hub at a later time, when nothing but one tag has been changed. -/
structure Later (h mid : Hub) (d : TagId) (h' : Hub) : Prop where
  user : h'.user = h.user
  clock : h'.clock = h.clock
  confined : mid.tables.Confined h.clock d h'.tables

/-- A run looks up what an earlier run did, or a point of history as good as the one before. -/
theorem LookedUp.later (hr : h.Reachable) (hc : h.clock.Forward)
    (hl : LookedUp o h size event src) (hf : Found o h src dst mid)
    (later : Later h mid dst.id h') :
    ∃ event', LookedUp o h' size event' src ∧
      SameMoment h.tables.events.length (event.map EventInfo.id)
        (event'.map EventInfo.id) := by
  obtain ⟨hfound, hnew⟩ := hf.same, later.confined.events
  obtain ⟨made, hmade⟩ := hf.events
  obtain ⟨new, hnew⟩ := hnew
  rw [hmade, List.append_assoc] at hnew
  have hperm : h'.tables.hasPerm h'.user = h.tables.hasPerm h.user := by
    funext perm
    rw [Tables.hasPerm, Tables.hasPerm, later.confined.users, later.confined.perms, hfound.1,
      hfound.2.1, later.user]
  have hmid := hf.reachable hr
  have htimed : mid.tables.Timed h.clock := by
    rw [← hf.keeps.2.1]
    exact hmid.timed (by rw [hf.keeps.2.1]; exact hc)
  obtain ⟨event', hpinned, hmoment, hafter⟩ := Tables.pinned?_later hr.sound
    (later.confined.sound hmid.sound) (later.confined.timed hc htimed) hnew
    (later.confined.repos.trans hfound.2.2.2) hl.pinned
  refine ⟨event', ⟨hl.options, by rw [hperm]; exact hl.allowed, hpinned, ?_, hl.unlocked⟩, hmoment⟩
  obtain ⟨f, hsettings⟩ := later.confined.settings
  have hsrc := Tables.getTag_of_settings hsettings (hf.getTag_of hl.source) hafter
  rwa [if_neg (hf.ne hr hl)] at hsrc

lemma LookedUp.unique {size' : BatchSize} {event' : Option EventInfo} {src' : TagInfo}
    (hl : LookedUp o h size event src) (hl' : LookedUp o h size' event' src') :
    event' = event ∧ src' = src := by
  obtain rfl := Option.some.inj (hl.pinned.symm.trans hl'.pinned)
  exact ⟨rfl, (Option.some.inj (hl.source.symm.trans hl'.source)).symm⟩

/-- What a clean run found, and what it did. -/
structure Course (o : CloneOptions) (h : Hub) (r : CloneResult) (h' : Hub) where
  size : BatchSize
  event : Option EventInfo
  looked : LookedUp o h size event r.src
  /-- The hub once the destination is there. -/
  hub : Hub
  found : Found o h r.src r.dst hub
  plan : r.plan = planOn o hub.tables (event.map EventInfo.id) r.src r.dst
  /-- The tables after all calls of the plan. -/
  tables : Tables
  called : hub.tables.callEach hub.clock r.dst o.flags r.plan.operations = .ok tables
  ended : h' = { hub with tables := tables.copyConfig hub.clock r.dst.id r.plan.config }

theorem CleanRun.course (hr : h.Reachable) (wet : o.dryRun = false) (run : CleanRun o h r h') :
    Nonempty (Course o h r h') := by
  obtain ⟨c, hresult, hstate⟩ := run.ran
  rw [(run_eq c o h).1] at hresult
  rw [(run_eq c o h).2] at hstate
  have hstages : Dialog.outcome Hub.session (stages c.requestId o) h = (.ok r, h') := by
    refine Prod.ext ?_ hstate
    rcases hout : (Dialog.outcome Hub.session (stages c.requestId o) h).1 with e | r'
    · rw [hout] at hresult
      cases hresult
    · rw [hout] at hresult
      exact hresult
  obtain ⟨size, event, src, dst, state, mid, a, hl, hf, rfl, happly⟩ :=
    exists_of_stages hr wet hstages
  have hclean : a.isClean = true := run.clean
  obtain ⟨t, hcalled, hended⟩ :=
    callEach_of_isClean (hf.getTag_destination hr) happly hclean
  exact ⟨size, event, hl, mid, hf, rfl, t, hcalled, hended⟩

namespace Course

variable (c : Course o h r h')

/-- What the source asked for. -/
def wish : Wish :=
  Wish.ofSnapshot (c.hub.tables.snapshot r.src (c.event.map EventInfo.id)
    (.source o.selection o.inheritBuilds o.latestOnly)) o.diffOptions

/-- The records of the destination when the plan was made. -/
def layers : Layers := c.hub.tables.layers r.dst.id

include c

lemma clock_eq : c.hub.clock = h.clock := c.found.keeps.2.1

lemma tables_eq : h'.tables = c.tables.copyConfig h.clock r.dst.id r.plan.config :=
  (congrArg Hub.tables c.ended).trans (by rw [c.clock_eq])

/-- A run is over, and only its destination has been changed. -/
lemma later : Later h c.hub r.dst.id h' where
  user := (congrArg Hub.user c.ended).trans c.found.keeps.1
  clock := (congrArg Hub.clock c.ended).trans c.clock_eq
  confined := by
    have hconfined := Tables.confined_of_callEach c.called
    rw [c.clock_eq] at hconfined
    rw [c.tables_eq]
    exact hconfined.trans (Tables.confined_copyConfig ..)

/-- The settings of the destination are copied if the plan says so. -/
lemma getTag_dst : h'.tables.getTag o.dst none =
    some { r.dst with config := r.plan.config.getD r.dst.config } := by
  have hsettings : h'.tables.tags = c.hub.tables.tags.map fun x =>
      if x.id = r.dst.id then { x with config := r.plan.config.getD x.config } else x := by
    rw [c.tables_eq, Tables.tags_copyConfig, Tables.tags_of_callEach c.called]
  rw [Tables.getTag_none_of_settings hsettings c.found.getTag_dst, if_pos rfl]

/-- After a clean run the destination may be written to by the next one, and has the settings it
should have. -/
lemma exists_dst : ∃ dst, h'.tables.getTag o.dst none = some dst ∧ dst.id = r.dst.id ∧
    (dst.isLocked && !o.flags.force) = false ∧
    (o.selection.config = true → r.src.config = dst.config) := by
  have hplan : r.plan.config = if o.selection.config then Diff.config r.src r.dst else none := by
    rw [c.plan, planOn_config]
  refine ⟨_, c.getTag_dst, rfl, ?_⟩
  rcases hselected : o.selection.config with _ | _
  · rw [hplan, hselected]
    exact ⟨c.found.unlocked c.looked, nofun⟩
  · have hcopied : r.plan.config.getD r.dst.config = r.src.config := by
      rw [hplan, hselected, if_pos rfl, Diff.config]
      split
      · rename_i hsame
        exact hsame.symm
      · rfl
    rw [hcopied]
    exact ⟨c.looked.unlocked, fun _ => rfl⟩

variable (hr : h.Reachable)

include hr

lemma exists_row : ∃ row, c.hub.tables.tag? r.dst.id = some row := by
  obtain ⟨row, hrow, -⟩ :=
    (c.found.reachable hr).sound.tag?_of_getTag (c.found.getTag_destination hr)
  exact ⟨row, hrow⟩

/-- **A clean run does all that its plan intends.** -/
theorem layers_after : h'.tables.layers r.dst.id = c.wish.after o.selection o.delete c.layers := by
  obtain ⟨row, hrow⟩ := c.exists_row hr
  have hsound := (c.found.reachable hr).sound
  have hcalled := c.called
  rw [c.plan] at hcalled
  have hown : h'.tables.own r.dst.id = (c.wish.after o.selection o.delete c.layers).own := by
    funext s
    rw [c.tables_eq, Tables.own_copyConfig]
    exact Tables.own_of_carriedOut hsound hrow (Tables.comparable_snapshot ..) hcalled s
  have habove : h'.tables.above r.dst.id = c.hub.tables.above r.dst.id :=
    c.later.confined.above_eq hsound
  rw [Tables.layers, hown, habove]
  rfl

lemma taggable : c.wish.Taggable o.selection o.delete c.layers := by
  obtain ⟨row, hrow⟩ := c.exists_row hr
  have hcalled := c.called
  rw [c.plan] at hcalled
  intro n hn
  exact Tables.own_eq_none_of_carriedOut (c.found.reachable hr).sound hrow
    (Tables.comparable_snapshot ..) hcalled hn

/-! ### The next run -/

variable {g g' : Hub} (hc : h.clock.Forward) (apart : Apart o h) (later : Later h c.hub r.dst.id g)

include hc apart later

/-- **A later run finds the same tags**, and the source has the same wishes. -/
theorem again : ∃ event config, LookedUp o g c.size event r.src ∧
    g.tables.getTag o.dst none = some { r.dst with config } ∧
    Wish.ofSnapshot (g.tables.snapshot r.src (event.map EventInfo.id)
      (.source o.selection o.inheritBuilds o.latestOnly)) o.diffOptions = c.wish := by
  obtain ⟨event, hl, hmoment⟩ := c.looked.later hr hc c.found later
  obtain ⟨f, hsettings⟩ := later.confined.settings
  have hdst := Tables.getTag_none_of_settings hsettings c.found.getTag_dst
  rw [if_pos rfl] at hdst
  refine ⟨event, _, hl, hdst, ?_⟩
  rw [later.confined.snapshot_eq (c.found.writtenTo hr.sound) hmoment
    (c.found.not_mem_walk hr apart c.looked)]
  rfl

/-- **Clean runs go on from one another.** -/
theorem follow (c' : Course o g r' g') :
    r'.dst.id = r.dst.id ∧ r'.src = r.src ∧ c'.wish = c.wish ∧
      c'.layers = g.tables.layers r.dst.id ∧ Later h c.hub r.dst.id g' := by
  obtain ⟨event, config, hl, hdst, hwish⟩ := c.again hr hc apart later
  obtain ⟨hevent, hsrc⟩ := hl.unique c'.looked
  obtain ⟨hhub, hid⟩ := c'.found.of_getTag hdst
  refine ⟨by rw [hid], hsrc, ?_, by rw [layers, hhub, hid], ?_⟩
  · rw [← hwish, wish, hhub, hevent, hsrc]
  · have hlater := c'.later
    rw [hhub, hid] at hlater
    refine ⟨hlater.user.trans later.user, hlater.clock.trans later.clock, ?_⟩
    have hconfined := hlater.confined
    rw [later.clock] at hconfined
    exact later.confined.trans hconfined

/-- **What the next run does** when the settings are as they should be: it succeeds, and its plan
is empty if nothing is left to write. -/
theorem exists_next {dst : TagInfo} (wet : o.dryRun = false)
    (found : g.tables.getTag o.dst none = some dst) (hid : dst.id = r.dst.id)
    (unlocked : (dst.isLocked && !o.flags.force) = false)
    (hconfig : o.selection.config = true → r.src.config = dst.config) (context : RunContext) :
    ∃ r', ((run context o).run Hub.session g).result = .ok r' ∧
      (r'.plan.isEmpty = true ↔ ∀ s,
        c.wish.write? o.selection o.delete (g.tables.layers r.dst.id) s = none) := by
  obtain ⟨event, config, hl, -, hwish⟩ := c.again hr hc apart later
  have hsound := later.confined.sound (c.found.reachable hr).sound
  have hkeeps : (planOn o g.tables (event.map EventInfo.id) r.src dst).config = none := by
    rw [planOn_config]
    split
    · rename_i hselected
      exact if_pos (hconfig hselected)
    · rfl
  obtain ⟨r', hresult, hplan⟩ := exists_run hsound hl found unlocked
    (by rw [hid]; exact c.found.ne hr c.looked) wet hkeeps context
  refine ⟨r', hresult, ?_⟩
  obtain ⟨row, hrow, -⟩ := hsound.tag?_of_getTag found
  rw [hplan, Plan.isEmpty_iff, hkeeps, planOn, ← hwish, ← hid]
  simp only [and_true]
  exact Tables.planFor_operations_eq_nil_iff hsound hrow (Tables.comparable_snapshot ..)

end Course

end Clone

end TagSync
