import TagSync.Proofs.Courses

/-!
Runs that are repeated until there is nothing left to do.
-/

namespace TagSync.Clone

variable {o : CloneOptions} {h h₁ h₂ h₃ : Hub} {r₁ r₂ r₃ : CloneResult}

/-- **After three clean runs in a row there is nothing left to do**: the fourth one succeeds with
an empty plan, if nobody else touches the hub. -/
theorem isEmpty_after_three_cleanRuns (hr : h.Reachable) (hc : h.clock.Forward)
    (wet : o.dryRun = false) (apart : Apart o h) (first : CleanRun o h r₁ h₁)
    (second : CleanRun o h₁ r₂ h₂) (third : CleanRun o h₂ r₃ h₃) (context : RunContext) :
    ∃ r, ((run context o).run Hub.session h₃).result = .ok r ∧ r.plan.isEmpty = true := by
  have hr₁ := first.reachable hr
  have hr₂ := second.reachable hr₁
  obtain ⟨c₁⟩ := first.course hr wet
  obtain ⟨c₂⟩ := second.course hr₁ wet
  obtain ⟨c₃⟩ := third.course hr₂ wet
  obtain ⟨hid₂, -, hwish₂, hlayers₂, hlater₂⟩ := c₁.follow hr hc apart c₁.later c₂
  obtain ⟨hid₃, hsrc₃, hwish₃, hlayers₃, hlater₃⟩ := c₁.follow hr hc apart hlater₂ c₃
  obtain ⟨dst, hdst, hid, hunlocked, hconfig⟩ := c₃.exists_dst
  rw [hsrc₃] at hconfig
  obtain ⟨r, hresult, hempty⟩ := c₁.exists_next hr hc apart hlater₃ wet hdst (hid.trans hid₃)
    hunlocked hconfig context
  refine ⟨r, hresult, hempty.mpr ?_⟩
  -- each run takes the records of the destination one step on
  have hstep₁ := c₁.layers_after hr
  have hstep₂ := c₂.layers_after hr₁
  have hstep₃ := c₃.layers_after hr₂
  have htaggable := c₃.taggable hr₂
  rw [hid₂, hwish₂, hlayers₂, hstep₁] at hstep₂
  rw [hwish₃, hlayers₃, hstep₂] at htaggable
  rw [hid₃, hwish₃, hlayers₃, hstep₂] at hstep₃
  rw [hstep₃]
  exact Wish.write?_after_after_after htaggable

/-! ### A group that takes three runs -/

/-- The destination `d` blocks a group with a member of its own, and both are above it, too. -/
def layered : Seed :=
  { schemaVersion := 0, users := [⟨"u", ["admin"]⟩]
    tags := [
      { name := "s", groups := [{ name := "g", members := [{ name := "a" }] }] },
      { name := "p", groups := [{ name := "g", members := [{ name := "m" }] }] },
      { name := "d", parents := [{ name := "p" }],
        groups := [{ name := "g", blocked := true, members := [{ name := "m" }] }] }] }

def layeredHub : Hub := (({ user := "u", clock := .wall fun _ => 0 } : Hub).importSeed layered).2

def layeredOptions : CloneOptions := { src := .byName "s", dst := .byName "d" }

/-- The hub after some runs. -/
def layeredAfter : Nat → Hub
  | 0 => layeredHub
  | n + 1 => ((run ⟨"r", none⟩ layeredOptions).run Hub.session (layeredAfter n)).state

/-- The first three runs all have something to do. -/
theorem isEmpty_after_three_cleanRuns_layered :
    (∀ n < 3, ∃ r, CleanRun layeredOptions (layeredAfter n) r (layeredAfter (n + 1)) ∧
      (!r.plan.isEmpty) = true) ∧
    ∃ r, ((run ⟨"r", none⟩ layeredOptions).run Hub.session (layeredAfter 3)).result = .ok r ∧
      r.plan.isEmpty = true := by
  have checked : layered.check .empty = .ok () := rfl
  have hr : layeredHub.Reachable := .importSeed checked (.start "u" _)
  have hc : layeredHub.clock.Forward := Clock.forward_wall fun _ => by decide +kernel
  have apart : Apart layeredOptions layeredHub := by decide +kernel
  have hclean : ∀ n < 3, ∃ r, CleanRun layeredOptions (layeredAfter n) r (layeredAfter (n + 1)) ∧
      (!r.plan.isEmpty) = true :=
    fun n hn => exists_cleanRun ⟨"r", none⟩ (by decide +kernel +revert)
  obtain ⟨r₁, first, -⟩ := hclean 0 (by decide)
  obtain ⟨r₂, second, -⟩ := hclean 1 (by decide)
  obtain ⟨r₃, third, -⟩ := hclean 2 (by decide)
  exact ⟨hclean, isEmpty_after_three_cleanRuns hr hc rfl apart first second third _⟩

end TagSync.Clone
