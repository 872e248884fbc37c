import TagSync.Plan.Diff
import TagSync.Proofs.Slot

/-!
What a source asks for, and what a plan writes for it.

A destination has two layers of records: its own, and those above it. A plan looks at both, but
it writes only the first; in every place it writes at most one thing (`Wish.write?`).
-/

namespace TagSync

/-- What a source asks a destination to see. -/
structure Wish where
  /-- The listed packages, and whether they are blocked. -/
  package : String → Option Bool
  build : Nvr → Bool
  /-- The groups that are not blocked. -/
  group : String → Bool
  member : String → String → Bool

/-- The records of a tag, place by place: its own, and those above it. -/
structure Layers where
  own : Slot → Option Bool
  above : Slot → Option Bool

namespace Layers

/-- The own record comes first. -/
def sees (l : Layers) (s : Slot) : Option Bool := (l.own s).or (l.above s)

/-- Whether a build is shown: it is tagged, and its package is seen and not blocked. -/
def shows (l : Layers) (n : Nvr) : Bool :=
  l.own (.build n) = some false && l.sees (.package n.name) = some false

/-- What is written for a record that should be active, or not. What is inherited can only be
blocked. -/
def adjust (l : Layers) (wanted delete : Bool) (s : Slot) : Option (Option Bool) :=
  if wanted then if l.sees s = some false then none else some (some false)
  else if l.sees s = some false then
    if (l.own s).isSome then if delete then some none else none else some (some true)
  else none

lemma adjust_eq_some_iff {l : Layers} {wanted delete : Bool} {s : Slot} {v : Option Bool} :
    l.adjust wanted delete s = some v ↔
      wanted = true ∧ l.sees s ≠ some false ∧ v = some false ∨
      wanted = false ∧ l.sees s = some false ∧ (l.own s).isSome = true ∧ delete = true ∧ v = none ∨
      wanted = false ∧ l.sees s = some false ∧ (l.own s).isSome = false ∧ v = some true := by
  unfold adjust
  rcases wanted with _ | _ <;> by_cases hs : l.sees s = some false <;>
    rcases (l.own s).isSome with _ | _ <;> rcases delete with _ | _ <;> simp [hs, eq_comm]

end Layers

namespace Wish

/-- What a source's snapshot asks for. -/
def ofSnapshot (s : Snapshot) (o : DiffOptions) : Wish where
  package name := (s.packages.find? name).map PackageEntry.blocked
  build n := (Diff.wantedBuilds s o).any fun b => Nvr.parse? b.nvr = some n
  group name := (Diff.activeGroup? s name).isSome
  member group package := (Diff.activeGroup? s group).any fun g => g.hasActive package

/-- Wanted builds belong to packages that are listed. -/
def Listed (w : Wish) : Prop := ∀ n, w.build n = true → w.package n.name = some false

/-- What a plan writes in a place, if anything. -/
def write? (w : Wish) (selection : ClassSelection) (delete : Bool) (l : Layers) :
    Slot → Option (Option Bool)
  | .package name =>
    if selection.packages then
      match w.package name, l.sees (.package name) with
      | some blocked, none => some (some blocked)
      | none, some false => if delete then some (some true) else none
      | _, _ => none
    else none
  | .build n =>
    if selection.builds then
      if w.build n then if l.shows n then none else some (some false)
      else if l.shows n && delete then some none
      else none
    else none
  | .group name => if selection.groups then l.adjust (w.group name) delete (.group name) else none
  | .member group package =>
    if selection.groups then
      if w.group group then
        if l.sees (.group group) = some false then
          l.adjust (w.member group package) delete (.member group package)
        else if w.member group package then some (some false)
        else none
      -- a group that goes takes its own members along
      else if l.adjust false delete (.group group) = some none then some none
      else none
    else none

end Wish

end TagSync
