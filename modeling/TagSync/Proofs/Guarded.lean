import TagSync.Proofs.Runs

/-!
Destinations guarded by a permission that the user does not hold.

No call of a run gets through to such a tag. Its settings are not guarded: where they differ from
those of the source, a run that is otherwise allowed overwrites them.
-/

namespace TagSync

/-- What is stored about the content of all tags, with all of its history. -/
def Tables.content (t : Tables) :
    History PackageRow × History TaggingRow × History GroupRow × History MemberRow :=
  (t.packages, t.taggings, t.groups, t.members)

lemma Tables.content_copyConfig (t : Tables) (c : Clock) (d : TagId) (config : Option TagConfig) :
    (t.copyConfig c d config).content = t.content := by
  cases config <;> rfl

namespace Clone

open Dialog

variable {h h' : Hub} {o : CloneOptions} {src dst : TagInfo} {size : BatchSize} {id : String}
  {event : Option EventInfo} {p : Plan}

/-- What a run does to a hub and a destination: nothing, or it overwrites the settings. -/
inductive Spared (h : Hub) (o : CloneOptions) (dst : TagInfo)
    (result : Except Failure CloneResult) : Hub → Prop
  | untouched (keeps : ∀ r, result = .ok r → o.dryRun = true ∨ r.plan.config = none) :
    Spared h o dst result h
  | overwritten {r : CloneResult} {config : TagConfig} (returned : result = .ok r)
    (wet : o.dryRun = false) (planned : r.plan.config = some config)
    (other : config ≠ dst.config) :
    Spared h o dst result
      { h with tables := h.tables.copyConfig h.clock dst.id (some config) }

/-- A run that fails on its way to a plan leaves all as it is. -/
lemma Spared.failed (e : Failure) : Spared h o dst (.error e) h :=
  .untouched fun _ hr => by cases hr

/-- The user holds neither the permission that guards a tag nor the one of administrators. -/
structure Barred (h : Hub) (tag : TagInfo) : Prop where
  guarded : ∃ perm, tag.config.perm = some perm ∧ h.tables.hasPerm h.user perm = false
  admin : h.tables.hasPerm h.user "admin" = false

namespace Barred

variable (hb : Barred h dst)

include hb

lemma mayWrite : h.mayWrite dst = false := by
  obtain ⟨perm, hperm, hlacks⟩ := hb.guarded
  simp [Hub.mayWrite, hperm, hb.admin, hlacks]

/-- All calls are rejected, and the hub stays as it is. -/
lemma answered : (p.answered h dst size o.flags).2 = h := by
  rw [Plan.answered, Hub.answers, hb.mayWrite]
  rfl

/-- What is left of a plan are the settings. -/
lemma outcome_apply (found : h.tables.getTag (.byId dst.id) none = some dst)
    {applied : Except Failure ApplyReport}
    (hrun : outcome Hub.session (p.apply dst.id size o.flags) h = (applied, h')) :
    h' = h ∧ (∀ a, applied = .ok a → p.config = none) ∨
      (∃ a, applied = .ok a) ∧ ∃ config, p.config = some config ∧
        h' = { h with tables := h.tables.copyConfig h.clock dst.id (some config) } := by
  rw [TagSync.outcome_apply o.flags found, hb.answered] at hrun
  rcases hconfig : p.config with _ | config
  · rw [hconfig] at hrun
    cases hrun
    exact .inl ⟨rfl, fun _ _ => rfl⟩
  · rw [hconfig] at hrun
    dsimp only at hrun
    rcases h.editTag_cases dst.id config with ⟨e, hedit⟩ | hedit <;> rw [hedit] at hrun <;>
      cases hrun
    · exact .inl ⟨rfl, nofun⟩
    · exact .inr ⟨⟨_, rfl⟩, config, rfl, rfl⟩

/-- A run that gets as far as its plan. -/
lemma spared_of_unlocked (ht : h.tables.Sound) (hl : LookedUp o h size event src)
    (found : h.tables.getTag o.dst none = some dst)
    (unlocked : (dst.isLocked && !o.flags.force) = false) (apart : src.id ≠ dst.id)
    {result : Except Failure CloneResult}
    (hrun : outcome Hub.session (stages id o) h = (result, h')) : Spared h o dst result h' := by
  have hsrc := ht.isSome_tag?_of_getTag hl.source
  have hdst := ht.isSome_tag?_of_getTag found
  have hexisting : DestinationState.existing ≠ .wouldCreate := nofun
  rw [outcome_stages id hl found unlocked apart,
    outcome_proceed ht hsrc hdst hexisting] at hrun
  rcases hdry : o.dryRun with _ | _
  · rw [hdry] at hrun
    simp only [Bool.false_eq_true, if_false] at hrun
    rcases happly : outcome Hub.session ((planOn o h.tables (event.map EventInfo.id) src
      dst).apply dst.id size o.flags) h with ⟨applied, h₂⟩
    rw [happly] at hrun
    rcases hb.outcome_apply (ht.getTag_byId found) happly with
      ⟨rfl, hnone⟩ | ⟨⟨a, rfl⟩, config, hconfig, rfl⟩
    · rcases applied with e | a
      · cases hrun
        exact .failed e
      · cases hrun
        refine .untouched fun r hr => ?_
        cases hr
        exact .inr (hnone a rfl)
    · cases hrun
      exact .overwritten rfl hdry hconfig (ne_of_planOn_config hconfig)
  · rw [hdry] at hrun
    cases hrun
    exact .untouched fun _ _ => .inl hdry

/-- No run does more to a guarded destination than to overwrite its settings. -/
lemma spared (ht : h.tables.Sound) (found : h.tables.getTag o.dst none = some dst)
    {result : Except Failure CloneResult}
    (hrun : outcome Hub.session (stages id o) h = (result, h')) : Spared h o dst result h' := by
  rcases hlook : outcome Hub.session (lookUp o) h with ⟨e | ⟨size, event, src⟩, h₁⟩
  · have hstate : (outcome Hub.session (lookUp o) h).2 = h := readOnly_lookUp o h
    rw [hlook] at hstate
    obtain rfl : h₁ = h := hstate
    rw [stages_eq, outcome_bind_of_error hlook] at hrun
    cases hrun
    exact .failed e
  obtain ⟨hl, rfl⟩ := outcome_lookUp_eq_ok.mp hlook
  have hfails : ∀ e, outcome Hub.session (findDestination o src) h₁ = (.error e, h₁) →
      Spared h₁ o dst result h' := by
    intro e he
    rw [stages_eq, outcome_bind_of_ok hlook] at hrun
    dsimp only at hrun
    rw [outcome_bind_of_error he] at hrun
    cases hrun
    exact .failed e
  have hfind := outcome_findDestination found src
  by_cases hlock : (dst.isLocked && !o.flags.force) = true
  · rw [if_pos hlock] at hfind
    exact hfails _ hfind
  by_cases hsame : src.id = dst.id
  · rw [if_neg hlock, if_pos hsame] at hfind
    exact hfails _ hfind
  exact hb.spared_of_unlocked ht hl found (Bool.eq_false_iff.mpr hlock) hsame hrun

end Barred

/-- **A guarded destination keeps its content**, whatever the run returns. Its settings are
overwritten exactly when a run that is not dry succeeds with settings in its plan. -/
theorem run_of_barred (hr : h.Reachable) (found : h.tables.getTag o.dst none = some dst)
    (hb : Barred h dst) (c : RunContext) :
    let out := (run c o).run Hub.session h
    out.state.tables.content = h.tables.content ∧
      (out.state.tables.getTag (.byId dst.id) none = some dst ↔
        ¬ ∃ r, out.result = .ok r ∧ o.dryRun = false ∧ r.plan.config.isSome = true) := by
  intro out
  obtain ⟨hresult, hstate⟩ := run_eq c o h
  rcases hout : outcome Hub.session (stages c.requestId o) h with ⟨result, h'⟩
  rw [hout] at hresult hstate
  have hok : ∀ r, out.result = .ok r ↔ result = .ok r := by
    intro r
    rw [hresult]
    cases result <;> simp [Except.mapError]
  simp only [hok]
  rw [hstate]
  have hbyId := hr.sound.getTag_byId found
  cases hb.spared hr.sound found hout with
  | untouched keeps =>
    refine ⟨rfl, fun _ => ?_, fun _ => hbyId⟩
    rintro ⟨r, hr', hwet, hsome⟩
    rcases keeps r hr' with hdry | hnone
    · rw [hwet] at hdry
      cases hdry
    · rw [hnone] at hsome
      cases hsome
  | @overwritten r config returned wet planned other =>
    refine ⟨Tables.content_copyConfig .., fun hkept => ?_, fun hno => ?_⟩
    · have hnow := Tables.getTag_none_of_settings
        (Tables.tags_copyConfig h.tables h.clock dst.id (some config)) hbyId
      rw [if_pos rfl] at hnow
      have heq := Option.some.inj (hnow.symm.trans hkept)
      exact absurd (congrArg TagInfo.config heq) other
    · exact absurd ⟨r, returned, wet, by rw [planned]; rfl⟩ hno

/-! ### A destination that loses its guard -/

def guarded : Seed :=
  { schemaVersion := 0, users := [⟨"u", ["tag"]⟩]
    tags := [{ name := "s" }, { name := "d", config := { perm := some "x" } }] }

def guardedHub : Hub := (({ user := "u" } : Hub).importSeed guarded).2

def guardedOptions : CloneOptions := { src := .byName "s", dst := .byName "d" }

/-- The user may not write to `d`, and yet the run takes away the permission that guards it. -/
theorem run_of_barred_guarded :
    let out := (run ⟨"r", none⟩ guardedOptions).run Hub.session guardedHub
    out.state.tables.content = guardedHub.tables.content ∧
      out.state.tables.getTag (.byId 2) none ≠ some ⟨2, "d", { perm := some "x" }⟩ := by
  have checked : guarded.check .empty = .ok () := rfl
  have hr : guardedHub.Reachable := .importSeed checked (.start "u" _)
  have found : guardedHub.tables.getTag guardedOptions.dst none =
      some ⟨2, "d", { perm := some "x" }⟩ := by decide +kernel
  have hb : Barred guardedHub ⟨2, "d", { perm := some "x" }⟩ :=
    ⟨⟨"x", rfl, by decide +kernel⟩, by decide +kernel⟩
  obtain ⟨r, hresult, hconfig⟩ : ∃ r,
      ((run ⟨"r", none⟩ guardedOptions).run Hub.session guardedHub).result = .ok r ∧
        r.plan.config.isSome = true := exists_result (by decide +kernel)
  obtain ⟨hcontent, hsettings⟩ := run_of_barred hr found hb ⟨"r", none⟩
  exact ⟨hcontent, fun hkept => hsettings.mp hkept ⟨r, hresult, rfl, hconfig⟩⟩

end Clone

end TagSync
