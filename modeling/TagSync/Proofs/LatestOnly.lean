import TagSync.Proofs.Plans
import TagSync.Proofs.Reachable
import TagSync.Proofs.Snapshots

/-!
The newest builds of a tag, picked by the hub or picked by the comparison.

The hub picks among all builds and the comparison among the complete ones, so they differ on
packages whose newest build is not complete.
-/

namespace TagSync

namespace BuildEntry

/-- The newest complete build of its package is overtaken by one that is not complete. -/
structure Overtaken (l : List BuildEntry) (b : BuildEntry) : Prop where
  complete : b.isComplete
  newest : Newest (l.filter isComplete) b
  below : ¬ Newest l b

/-- Of the newest builds the complete ones are kept. -/
lemma latest_filter_isComplete {l m : List BuildEntry} (hl : (l.map nvr).Nodup)
    (hm : (m.map nvr).Nodup) (h : ∀ b, b ∈ m ↔ b ∈ l ∧ Newest l b) :
    latest (m.filter isComplete) = (latest (l.filter isComplete)).filter (Newest l ·) := by
  refine Keyed.eq_of_ascending (latest_pairwise _) ((latest_pairwise _).filter _) fun b => ?_
  rw [List.mem_filter, decide_eq_true_eq, mem_latest_iff (hl.sublist (List.filter_sublist.map _)),
    mem_latest_iff (hm.sublist (List.filter_sublist.map _))]
  simp only [List.mem_filter, h]
  constructor
  · rintro ⟨⟨⟨hb, hnewest⟩, hcomplete⟩, -⟩
    exact ⟨⟨⟨hb, hcomplete⟩, fun x hx => hnewest x (List.mem_filter.mp hx).1⟩, hnewest⟩
  · rintro ⟨⟨⟨hb, hcomplete⟩, -⟩, hnewest⟩
    refine ⟨⟨⟨hb, hnewest⟩, hcomplete⟩, fun x hx => hnewest x ?_⟩
    exact ((h x).mp (List.mem_filter.mp hx).1).1

end BuildEntry

namespace Diff

open BuildEntry

variable {full latest dest : Snapshot} {o : DiffOptions} {b : BuildEntry}

/-- A build that is at the destination and would not be untagged there, wanted or not. -/
structure Untouched (dest : Snapshot) (delete : Bool) (b : BuildEntry) : Prop where
  present : dest.builds.contains b.nvr
  stays : delete → ∀ e ∈ dest.builds.values, e.ownership.isDirect → e.nvr ≠ b.nvr

/-- Fewer builds are wanted, but no call changes, when those that are dropped are untouched. -/
lemma builds_eq_of_filter {p : BuildEntry → Bool}
    (h : wantedBuilds latest o = (wantedBuilds full o).filter p)
    (hp : ∀ b ∈ wantedBuilds full o, p b = false → Untouched dest o.delete b) :
    builds latest dest o = builds full dest o := by
  have hmissing : missingBuilds (wantedBuilds latest o) dest =
      missingBuilds (wantedBuilds full o) dest := by
    rw [h, missingBuilds, missingBuilds, List.filter_filter]
    refine List.filter_congr fun b hb => ?_
    rcases hpb : p b with _ | _
    · simp [(hp b hb hpb).present]
    · simp
  have hunwanted : o.delete = true → unwantedBuilds (wantedBuilds latest o) dest =
      unwantedBuilds (wantedBuilds full o) dest := by
    intro hdelete
    refine List.filter_congr fun e he => ?_
    rcases hdirect : e.ownership.isDirect with _ | _
    · rfl
    · have hany : (wantedBuilds latest o).any (·.nvr == e.nvr) =
          (wantedBuilds full o).any (·.nvr == e.nvr) := by
        rw [h, Bool.eq_iff_iff]
        simp only [List.any_eq_true, List.mem_filter, beq_iff_eq]
        constructor
        · rintro ⟨w, ⟨hw, -⟩, hnvr⟩
          exact ⟨w, hw, hnvr⟩
        · rintro ⟨w, hw, hnvr⟩
          refine ⟨w, ⟨hw, ?_⟩, hnvr⟩
          by_contra hpw
          exact (hp w hw (Bool.eq_false_iff.mpr hpw)).stays hdelete e he hdirect hnvr.symm
      rw [hany]
  rw [builds, builds, hmissing]
  rcases hdelete : o.delete with _ | _
  · rfl
  · simp only [if_true, hunwanted hdelete]

/-- A build that only one of two sources wants is untouched if the calls are the same. -/
lemma untouched_of_builds_eq (h : builds latest dest o = builds full dest o)
    (hfull : b ∈ wantedBuilds full o) (hlatest : ∀ w ∈ wantedBuilds latest o, w.nvr ≠ b.nvr) :
    Untouched dest o.delete b where
  present := by
    by_contra hnone
    have htag : .tagBuild b.nvr ∈ builds latest dest o := by
      rw [h]
      exact mem_builds.mpr (.inr ⟨b, hfull, rfl, Bool.eq_false_iff.mpr hnone⟩)
    rcases mem_builds.mp htag with ⟨e, -, heq, -⟩ | ⟨w, hw, heq, -⟩
    · cases heq
    · exact hlatest w hw (Operation.tagBuild.inj heq).symm
  stays hdelete e he hdirect hnvr := by
    have huntag : .untagBuild e.nvr ∈ builds full dest o := by
      rw [← h]
      exact mem_builds.mpr (.inl ⟨e, he, rfl, hdelete, hdirect, fun w hw => hnvr ▸ hlatest w hw⟩)
    rcases mem_builds.mp huntag with ⟨x, -, heq, -, -, hx⟩ | ⟨w, -, heq, -⟩
    · exact hx b hfull (hnvr.symm.trans (Operation.untagBuild.inj heq))
    · cases heq

/-- **Picking the newest builds first and the complete ones of them changes nothing exactly
when the builds that are overtaken are untouched.** -/
theorem builds_eq_iff (ho : o.latestOnly = true) (hfull : full.builds.NamedBy nvr)
    (hlatest : latest.builds.NamedBy nvr)
    (h : ∀ b, b ∈ latest.builds.values ↔
      b ∈ full.builds.values ∧ Newest full.builds.values b) :
    builds latest dest o = builds full dest o ↔
      ∀ b ∈ full.builds.values, Overtaken full.builds.values b → Untouched dest o.delete b := by
  have hwanted : wantedBuilds latest o =
      (wantedBuilds full o).filter (Newest full.builds.values ·) := by
    simp only [wantedBuilds, ho, if_true]
    exact latest_filter_isComplete hfull.nodup_values hlatest.nodup_values h
  have hmem : ∀ b, b ∈ wantedBuilds full o ↔ (b ∈ full.builds.values ∧ b.isComplete) ∧
      Newest (full.builds.values.filter isComplete) b := by
    intro b
    simp only [wantedBuilds, ho, if_true]
    rw [mem_latest_iff (hfull.nodup_values.sublist (List.filter_sublist.map _)), List.mem_filter]
  constructor
  · intro heq b hb hover
    refine untouched_of_builds_eq heq ((hmem b).mpr ⟨⟨hb, hover.complete⟩, hover.newest⟩) ?_
    intro w hw hnvr
    rw [hwanted, List.mem_filter, decide_eq_true_eq] at hw
    have hwfull := ((hmem w).mp hw.1).1.1
    obtain rfl := List.inj_on_of_nodup_map hfull.nodup_values hwfull hb hnvr
    exact hover.below hw.2
  · intro huntouched
    refine builds_eq_of_filter hwanted fun b hb hbelow => ?_
    obtain ⟨⟨hb, hcomplete⟩, hnewest⟩ := (hmem b).mp hb
    exact huntouched b hb ⟨hcomplete, hnewest, of_decide_eq_false hbelow⟩

end Diff

/-! ### Both ways on a hub -/

namespace Tables

open BuildEntry

variable {t : Tables} {id : TagId} {event : Option EventId} {tag : TagInfo} {scope : FetchScope}
  {b : BuildEntry}

/-- A fetch of the newest builds gives the newest ones of a whole fetch. -/
lemma mem_latestOnly_builds :
    b ∈ (t.snapshot tag event { scope with latestOnly := true }).builds.values ↔
      b ∈ (t.snapshot tag event { scope with latestOnly := false }).builds.values ∧
        Newest (t.snapshot tag event { scope with latestOnly := false }).builds.values b := by
  by_cases hscope : scope.builds = true
  · let listed := t.shownBuilds tag.id scope.inheritBuilds false event
    have hall : ∀ x, x ∈ (t.snapshot tag event { scope with latestOnly := false }).builds.values ↔
        ∃ e ∈ listed, e.stamp tag.id = x := fun _ => mem_snapshot_builds hscope
    have hlatest : b ∈ (t.snapshot tag event { scope with latestOnly := true }).builds.values ↔
        ∃ e ∈ latest listed, e.stamp tag.id = b := mem_snapshot_builds hscope
    have hnewest : ∀ e, e ∈ latest listed ↔ e ∈ listed ∧ Newest listed e :=
      fun _ => mem_latest_iff (nodup_shownBuilds t tag.id scope.inheritBuilds false event)
    rw [hlatest]
    constructor
    · rintro ⟨e, he, rfl⟩
      obtain ⟨he, hmax⟩ := (hnewest e).mp he
      refine ⟨(hall _).mpr ⟨e, he, rfl⟩, fun x hx => ?_⟩
      obtain ⟨y, hy, rfl⟩ := (hall x).mp hx
      exact hmax y hy
    · rintro ⟨hb, hmax⟩
      obtain ⟨e, he, rfl⟩ := (hall b).mp hb
      refine ⟨e, (hnewest e).mpr ⟨he, fun y hy => ?_⟩, rfl⟩
      exact hmax (y.stamp tag.id) ((hall _).mpr ⟨y, hy, rfl⟩)
  · -- no builds are asked for
    exact iff_of_false (fun hb => hscope (mem_builds_of_mem_snapshot hb).1)
      fun hb => hscope (mem_builds_of_mem_snapshot hb.1).1

end Tables

namespace Hub

open Dialog

variable {h : Hub} {tag : TagInfo}

/-- **Letting the hub pick the newest builds gives the same calls as picking them from all
builds exactly when the builds that are overtaken are untouched.** -/
theorem builds_latestOnly_eq_iff (hr : h.Reachable) (htag : (h.tables.tag? tag.id).isSome)
    (event : Option EventId) (scope : FetchScope) (delete : Bool) (dest : Snapshot) :
    ∃ latest full,
      outcome session (Snapshot.fetch tag event { scope with latestOnly := true }) h =
        (.ok latest, h) ∧
      outcome session (Snapshot.fetch tag event { scope with latestOnly := false }) h =
        (.ok full, h) ∧
      (Diff.builds latest dest ⟨delete, true⟩ = Diff.builds full dest ⟨delete, true⟩ ↔
        ∀ b ∈ full.builds.values, BuildEntry.Overtaken full.builds.values b →
          Diff.Untouched dest delete b) :=
  ⟨_, _, outcome_fetch hr.sound htag event _, outcome_fetch hr.sound htag event _,
    Diff.builds_eq_iff rfl Tables.snapshot_builds Tables.snapshot_builds
      fun _ => Tables.mem_latestOnly_builds⟩

/-! ### A newest build that failed -/

def overtaken : Seed :=
  { schemaVersion := 0, users := [⟨"u", ["admin"]⟩]
    builds := [
      { package := "foo", version := "1", release := "1", owner := "u" },
      { package := "foo", version := "2", release := "1", state := "FAILED", owner := "u" }]
    tags := [
      { name := "s", packages := [{ name := "foo", owner := "u" }]
        builds := ["foo-1-1", "foo-2-1"] }] }

def overtakenHub : Hub := (({ user := "u" } : Hub).importSeed overtaken).2

def overtakenTag : TagInfo := ⟨1, "s", {}⟩

/-- The older build is complete, and tagged only when the hub lists all builds. -/
theorem builds_latestOnly_eq_iff_overtaken :
    ∃ latest full,
      outcome session (Snapshot.fetch overtakenTag none { builds := true, latestOnly := true })
        overtakenHub = (.ok latest, overtakenHub) ∧
      outcome session (Snapshot.fetch overtakenTag none { builds := true }) overtakenHub =
        (.ok full, overtakenHub) ∧
      Diff.builds latest (.ofTag ⟨2, "d", {}⟩) ⟨false, true⟩ ≠
        Diff.builds full (.ofTag ⟨2, "d", {}⟩) ⟨false, true⟩ := by
  have checked : overtaken.check .empty = .ok () := rfl
  have hr : overtakenHub.Reachable := .importSeed checked (.start "u" _)
  have htag : (overtakenHub.tables.tag? overtakenTag.id).isSome := by decide +kernel
  obtain ⟨latest, full, hlatest, hfull, hiff⟩ :=
    builds_latestOnly_eq_iff hr htag none { builds := true } false (.ofTag ⟨2, "d", {}⟩)
  refine ⟨latest, full, hlatest, hfull, fun heq => ?_⟩
  have hfetch := outcome_fetch hr.sound htag none { builds := true }
  obtain rfl : overtakenHub.tables.snapshot overtakenTag none { builds := true } = full := by
    simpa using hfetch.symm.trans hfull
  let listed :=
    (overtakenHub.tables.snapshot overtakenTag none { builds := true }).builds.values
  obtain ⟨b, hb, hcomplete, hnewest, hbelow⟩ : ∃ b ∈ listed, b.isComplete = true ∧
      BuildEntry.Newest (listed.filter BuildEntry.isComplete) b ∧
      ¬ BuildEntry.Newest listed b := by decide +kernel
  exact absurd (hiff.mp heq b hb ⟨hcomplete, hnewest, hbelow⟩).present Bool.false_ne_true

end Hub

end TagSync
