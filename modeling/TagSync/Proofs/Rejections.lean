import TagSync.Proofs.Exchanges
import TagSync.Proofs.Verdicts

/-!
Which calls of a run are rejected.

Once a run writes, a user who may write to its destination sees every call accepted, except for
builds that are tagged into the destination already without being shown, and without force those
whose packages are blocked there.
-/

namespace TagSync.Clone

variable {h mid : Hub} {o : CloneOptions} {src dst : TagInfo} {size : BatchSize}
  {event : Option EventInfo}

/-- A build that a plan tags is not among the builds that the destination lists. -/
lemma not_mem_listBuilds {t : Tables} {m : Option EventId} {nvr : String}
    {listed : List BuildEntry} (ht : t.Sound)
    (h : .tagBuild nvr ∈ (planOn o t m src dst).operations)
    (hlisted : t.listBuilds dst.id false false none = .ok listed) :
    nvr ∉ listed.map BuildEntry.nvr := by
  rw [Tables.listBuilds_eq ht] at hlisted
  cases hlisted
  obtain ⟨hsel, hmem⟩ := List.mem_ite_nil_right.mp (Tables.mem_ofClass h)
  rcases Diff.mem_builds.mp hmem with ⟨b, -, hb, -⟩ | ⟨w, -, hw, hmissing⟩
  · cases hb
  · cases hw
    rw [Keyed.contains_eq_isSome, Tables.snapshot_find?_build hsel, Option.isSome_map,
      Option.isSome_eq_false_iff, Option.isNone_iff_eq_none, List.find?_eq_none] at hmissing
    intro hlist
    obtain ⟨b, hb, hnvr⟩ := List.mem_map.mp hlist
    exact hmissing b hb (by simp [hnvr])

/-- What a user who may write is answered: each call of a plan is accepted unless it is
refused. -/
lemma Found.answers_eq_ok_iff (hf : Found o h src dst mid) (hr : h.Reachable)
    (hl : LookedUp o h size event src) (may : mid.mayWrite dst = true) {operations : List Operation}
    (hplan : (planOn o mid.tables (event.map EventInfo.id) src dst).operations = operations) :
    ∀ p ∈ operations.zip (mid.answers dst o.flags operations).1,
      p.2 = .ok () ↔ ¬ mid.tables.Refuses dst.id o.flags.force p.1 := by
  have hmid := (hf.reachable hr).sound
  obtain ⟨row, hrow, -⟩ := hmid.tag?_of_getTag (hf.getTag_destination hr)
  have hanswers : mid.answers dst o.flags operations = mid.callAll dst o.flags operations :=
    if_pos may
  rw [hanswers]
  exact Tables.callAll_eq_ok_iff hmid hrow (Tables.comparable_snapshot ..)
    (Tables.named_snapshot ..) hl.selects (Tables.listed_ofSnapshot hmid hl.selects)
    (hf.unlocked hl) (hplan.trans (List.nil_append _).symm) (.nil mid.clock mid.tables)

/-- **Exactly the refused builds are rejected** in a run that comes to write, by a user who may
write to the destination. All calls of the plan are made, and a build that is tagged into the
destination already is one that it does not list. -/
theorem rejected_iff (hr : h.Reachable) (wet : o.dryRun = false)
    (hl : LookedUp o h size event src) (hf : Found o h src dst mid)
    (may : mid.mayWrite dst = true) (c : RunContext) :
    let plan := planOn o mid.tables (event.map EventInfo.id) src dst
    let calls := ((run c o).run Hub.session h).calls
    calls.map Prod.fst = plan.operations ∧
      (∀ p ∈ calls, (∃ fault, p.2 = .error fault) ↔
        mid.tables.Refuses dst.id o.flags.force p.1) ∧
      ∀ nvr, .tagBuild nvr ∈ plan.operations →
        ∀ listed, mid.tables.listBuilds dst.id false false none = .ok listed →
          nvr ∉ listed.map BuildEntry.nvr := by
  intro plan calls
  have hcalls : calls = plan.operations.zip (mid.answers dst o.flags plan.operations).1 :=
    calls_run hr wet hl hf c
  have hlength : (mid.answers dst o.flags plan.operations).1.length = plan.operations.length := by
    rw [Hub.answers, if_pos may, mid.length_callAll]
  refine ⟨by rw [hcalls, List.map_fst_zip hlength.ge], fun p hp => ?_,
    fun nvr hnvr listed => not_mem_listBuilds (hf.reachable hr).sound hnvr⟩
  rw [← not_iff_not, ← hf.answers_eq_ok_iff hr hl may rfl p (by rwa [hcalls] at hp)]
  rcases p.2 with fault | u <;> simp

/-! ### A destination that hides a build -/

/-- The destination `d` blocks the package `b`, and has a build of `c` without listing `c`. -/
def concealing : Seed :=
  { schemaVersion := 0, users := [⟨"u", ["admin"]⟩]
    builds := ["a", "b", "c"].map fun package =>
      { package, version := "1", release := "1", owner := "u" }
    tags := [
      { name := "s", packages := ["a", "b", "c"].map fun name => { name, owner := "u" }
        builds := ["a-1-1", "b-1-1", "c-1-1"] },
      { name := "d", packages := [{ name := "b", owner := "u", blocked := true }]
        builds := ["c-1-1"] }] }

def concealingHub : Hub := (({ user := "u" } : Hub).importSeed concealing).2

def concealingOptions : CloneOptions := { src := .byName "s", dst := .byName "d" }

/-- The build of `b` is rejected since `b` is blocked, that of `c` since it is there already. -/
theorem rejected_iff_concealing :
    let calls := ((run ⟨"r", none⟩ concealingOptions).run Hub.session concealingHub).calls
    calls.map Prod.fst = [.addPackage "a" "u" false none, .addPackage "c" "u" false none,
        .tagBuild "a-1-1", .tagBuild "b-1-1", .tagBuild "c-1-1"] ∧
      ∀ p ∈ calls, (∃ fault, p.2 = .error fault) ↔
        p.1 = .tagBuild "b-1-1" ∨ p.1 = .tagBuild "c-1-1" := by
  have checked : concealing.check .empty = .ok () := rfl
  have hr : concealingHub.Reachable := .importSeed checked (.start "u" _)
  have hl : LookedUp concealingOptions concealingHub ⟨1000⟩ none ⟨1, "s", {}⟩ :=
    ⟨rfl, by decide +kernel, rfl, by decide +kernel, rfl⟩
  have hf : Found concealingOptions concealingHub ⟨1, "s", {}⟩ ⟨2, "d", {}⟩ concealingHub :=
    .existing (by decide +kernel) rfl (by decide)
  obtain ⟨hoperations, hrejected, -⟩ := rejected_iff hr rfl hl hf rfl ⟨"r", none⟩
  have hplan : (planOn concealingOptions concealingHub.tables none ⟨1, "s", {}⟩
      ⟨2, "d", {}⟩).operations = [.addPackage "a" "u" false none, .addPackage "c" "u" false none,
        .tagBuild "a-1-1", .tagBuild "b-1-1", .tagBuild "c-1-1"] := by decide +kernel
  have hrefused : ∀ op ∈ (planOn concealingOptions concealingHub.tables none ⟨1, "s", {}⟩
      ⟨2, "d", {}⟩).operations, concealingHub.tables.Refuses 2 false op ↔
        op = .tagBuild "b-1-1" ∨ op = .tagBuild "c-1-1" := by
    rw [hplan]
    decide +kernel
  refine ⟨hoperations.trans hplan, fun p hp => (hrejected p hp).trans (hrefused p.1 ?_)⟩
  have hmem : p.1 ∈ _ := List.mem_map_of_mem hp
  rwa [hoperations] at hmem

end TagSync.Clone
