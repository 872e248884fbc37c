import TagSync.Proofs.Courses

/-!
A second run right after a clean one.

It finds nothing left to do unless the first one brought something to light on the destination
that the source does not ask for, or hid what it does ask for.
-/

namespace TagSync

/-- A plan leaves a record that blocks or not, or no record, in a place. -/
def Plan.Writes (p : Plan) (s : Slot) (v : Option Bool) : Prop :=
  ∃ op ∈ p.operations, op.write? s = some v

lemma Tables.writes_iff {t : Tables} {tag : TagInfo} {row : TagRow} {src : Snapshot}
    {selection : ClassSelection} {o : DiffOptions} (ht : t.Sound)
    (hrow : t.tag? tag.id = some row) (hsrc : t.Comparable src) {s : Slot} {v : Option Bool} :
    (t.planFor tag src selection o).Writes s v ↔ t.intent tag src selection o s = some v :=
  ⟨fun ⟨_, hop, hv⟩ => intent_of_mem ht hrow hsrc hop hv, exists_mem_of_intent ht hrow hsrc⟩

namespace Clone

variable {h h' mid : Hub} {o : CloneOptions} {src dst : TagInfo} {r : CloneResult}

/-- What a run brings to light on its destination, given the tables before it. -/
def Uncovers (o : CloneOptions) (t : Tables) (r : CloneResult) : Prop :=
  (t.layers r.dst.id).Uncovered r.plan.Writes o.selection.builds o.delete

namespace Course

variable (c : Course o h r h') (hr : h.Reachable)

include hr

lemma writes_iff {s : Slot} {v : Option Bool} :
    r.plan.Writes s v ↔ c.wish.write? o.selection o.delete c.layers s = some v := by
  obtain ⟨row, hrow⟩ := c.exists_row hr
  rw [c.plan]
  exact Tables.writes_iff (c.found.reachable hr).sound hrow (Tables.comparable_snapshot ..)

lemma uncovers_iff :
    Uncovers o h.tables r ↔
      c.layers.Uncovered (fun s v => c.wish.write? o.selection o.delete c.layers s = some v)
        o.selection.builds o.delete := by
  have hwrites : r.plan.Writes =
      fun s v => c.wish.write? o.selection o.delete c.layers s = some v :=
    funext₂ fun _ _ => propext (c.writes_iff hr)
  rw [Uncovers, ← c.found.layers_eq hr, hwrites]
  rfl

end Course

/-- **A second run finds nothing left to do exactly when the first one has uncovered nothing.** -/
theorem isEmpty_again_iff (hr : h.Reachable) (hc : h.clock.Forward) (wet : o.dryRun = false)
    (apart : Apart o h) (first : CleanRun o h r h') (context : RunContext) :
    ∃ r', ((run context o).run Hub.session h').result = .ok r' ∧
      (r'.plan.isEmpty = true ↔ ¬ Uncovers o h.tables r) := by
  obtain ⟨c⟩ := first.course hr wet
  obtain ⟨dst, hdst, hid, hunlocked, hconfig⟩ := c.exists_dst
  obtain ⟨r', hresult, hempty⟩ :=
    c.exists_next hr hc apart c.later wet hdst hid hunlocked hconfig context
  refine ⟨r', hresult, hempty.trans ?_⟩
  rw [c.layers_after hr, c.uncovers_iff hr, ← Wish.exists_write?_after_iff (c.taggable hr)
    (Tables.listed_ofSnapshot (c.found.reachable hr).sound c.looked.selects) c.looked.selects]
  simp

/-! ### A group below another one -/

/-- The destination `d` has a group that the tag above it has, too. -/
def shadowing : Seed :=
  { schemaVersion := 0, users := [⟨"u", ["admin"]⟩]
    tags := [
      { name := "s" },
      { name := "p", groups := [{ name := "g" }] },
      { name := "d", parents := [{ name := "p" }], groups := [{ name := "g" }] }] }

def shadowingHub : Hub :=
  (({ user := "u", clock := .wall fun _ => 0 } : Hub).importSeed shadowing).2

def shadowingOptions : CloneOptions := { src := .byName "s", dst := .byName "d" }

/-- The first run removes the group of `d`, and the second one has to block that of `p`. -/
theorem isEmpty_again_iff_shadowing :
    ∃ r h' r', CleanRun shadowingOptions shadowingHub r h' ∧
      ((run ⟨"r", none⟩ shadowingOptions).run Hub.session h').result = .ok r' ∧
      r'.plan.isEmpty = false := by
  have checked : shadowing.check .empty = .ok () := rfl
  have hr : shadowingHub.Reachable := .importSeed checked (.start "u" _)
  have hc : shadowingHub.clock.Forward := Clock.forward_wall fun _ => by decide +kernel
  have apart : Apart shadowingOptions shadowingHub := by decide +kernel
  obtain ⟨r, first, hplan⟩ : ∃ r, CleanRun shadowingOptions shadowingHub r
      ((run ⟨"r", none⟩ shadowingOptions).run Hub.session shadowingHub).state ∧
      (r.plan.operations = [.removeGroup "g"] && r.dst.id = 3 : Bool) = true :=
    exists_cleanRun ⟨"r", none⟩ (by decide +kernel)
  simp only [Bool.and_eq_true, decide_eq_true_eq] at hplan
  obtain ⟨hoperations, hid⟩ := hplan
  obtain ⟨r', hresult, hempty⟩ := isEmpty_again_iff hr hc rfl apart first ⟨"r", none⟩
  have hremoves : r.plan.Writes (.group "g") none :=
    ⟨.removeGroup "g", by rw [hoperations]; exact .head _, rfl⟩
  have habove : shadowingHub.tables.above r.dst.id (.group "g") = some false := by
    rw [hid]
    decide +kernel
  refine ⟨r, _, r', first, hresult, Bool.eq_false_iff.mpr fun he => ?_⟩
  exact hempty.mp he (.group hremoves habove)

end Clone

end TagSync
