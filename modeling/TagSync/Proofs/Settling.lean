import TagSync.Proofs.Wish

/-!
How repeated plans settle.

A plan writes only a destination's own records; what lies above them may come to light when one
of them goes. So packages are as they should be after one plan, builds and groups after two, and
the members of a group, which may have to wait for their group, after three.
-/

namespace TagSync

variable {w : Wish} {selection : ClassSelection} {wanted delete : Bool} {l l' : Layers} {s : Slot}
  {name group package : String} {n : Nvr} {v : Option Bool}

namespace Layers

/-- What is seen after a write: the record written, or what comes to light without one. -/
def seesAfter (l : Layers) (s : Slot) : Option (Option Bool) → Option Bool
  | none => l.sees s
  | some none => l.above s
  | some (some blocked) => some blocked

lemma sees_write {write : Option (Option Bool)} (hown : l'.own s = write.getD (l.own s))
    (habove : l'.above s = l.above s) : l'.sees s = l.seesAfter s write := by
  rcases write with _ | _ | blocked <;> simp [sees, seesAfter, hown, habove]

/-! ### Records that are adjusted -/

/-- In one place what was wanted is done, and nothing above has changed. -/
structure Adjusted (wanted delete : Bool) (s : Slot) (l l' : Layers) : Prop where
  own : l'.own s = (l.adjust wanted delete s).getD (l.own s)
  above : l'.above s = l.above s

namespace Adjusted

lemma of_wanted (h : Adjusted true delete s l l') : l'.sees s = some false := by
  rw [sees_write h.own h.above, adjust, if_pos rfl]
  by_cases hs : l.sees s = some false
  · rwa [if_pos hs]
  · rw [if_neg hs, seesAfter]

/-- Only what lies above a record that was taken away is left to do. -/
theorem adjust_eq_some_iff (h : Adjusted wanted delete s l l') :
    l'.adjust wanted delete s = some v ↔
      l.adjust wanted delete s = some none ∧ l.above s = some false ∧ v = some true := by
  rcases wanted with _ | _
  · have hown := h.own
    have hsees := sees_write h.own h.above
    rcases hadjust : l.adjust false delete s with _ | _ | blocked
    · -- nothing was written, so nothing is to be written now
      rw [hadjust] at hown hsees
      have hsame : l'.adjust false delete s = l.adjust false delete s := by
        simp only [adjust, hown, hsees, seesAfter, Option.getD_none]
      simp [hsame, hadjust]
    · rw [hadjust] at hown hsees
      simp [Layers.adjust_eq_some_iff, hown, hsees, seesAfter]
    · obtain ⟨hno, -⟩ | ⟨-, -, -, -, hno⟩ | ⟨-, -, -, hblocked⟩ :=
        Layers.adjust_eq_some_iff.mp hadjust
      · cases hno
      · cases hno
      · rw [hadjust, hblocked] at hsees
        simp [Layers.adjust_eq_some_iff, hsees, seesAfter]
  · rw [Layers.adjust, if_pos rfl, if_pos h.of_wanted, Layers.adjust, if_pos rfl]
    split <;> simp

/-- Nothing is left to do after the second time. -/
theorem twice {l'' : Layers} (h : Adjusted wanted delete s l l')
    (h' : Adjusted wanted delete s l' l'') : l''.adjust wanted delete s = none := by
  by_contra hne
  obtain ⟨v, hv⟩ := Option.ne_none_iff_exists'.mp hne
  obtain ⟨hnone, -⟩ := h'.adjust_eq_some_iff.mp hv
  obtain ⟨-, -, hsome⟩ := h.adjust_eq_some_iff.mp hnone
  cases hsome

end Adjusted

/-- What writes on a tag's own records bring to light that is not as it should be, if builds are
selected or not. -/
inductive Uncovered (l : Layers) (writes : Slot → Option Bool → Prop) (builds delete : Bool) :
    Prop where
  /-- A build is tagged whose package is blocked, so it is not shown. -/
  | hidden {n : Nvr} (tags : writes (.build n) (some false))
      (blocked : l.sees (.package n.name) = some true)
  /-- The package is listed of a build that was tagged already, but not shown. -/
  | listed {n : Nvr} (lists : writes (.package n.name) (some false))
      (held : l.own (.build n) = some false) (selected : builds = true) (deletes : delete = true)
  /-- A group is taken away above which there is another one. -/
  | group {group : String} (removes : writes (.group group) none)
      (above : l.above (.group group) = some false)
  /-- Or a member of a group that stays. -/
  | member {group package : String} (removes : writes (.member group package) none)
      (keeps : ¬ writes (.group group) none) (above : l.above (.member group package) = some false)
  /-- A group is added, and a member comes with it that is not added with it. -/
  | restored {group package : String} (adds : writes (.group group) (some false))
      (leaves : ¬ writes (.member group package) (some false))
      (stays : l.sees (.member group package) = some false)
      (clears : (l.own (.member group package)).isSome → delete = true)

end Layers

namespace Wish

open Layers

/-- The records after a plan that was carried out as a whole. -/
def after (w : Wish) (selection : ClassSelection) (delete : Bool) (l : Layers) : Layers :=
  { l with own := fun s => (w.write? selection delete l s).getD (l.own s) }

/-- No build is wanted that is tagged and yet not shown. -/
def Taggable (w : Wish) (selection : ClassSelection) (delete : Bool) (l : Layers) : Prop :=
  ∀ n, w.write? selection delete l (.build n) = some (some false) → l.own (.build n) = none

lemma sees_after : (w.after selection delete l).sees s =
    l.seesAfter s (w.write? selection delete l s) := sees_write rfl rfl

lemma own_after : (w.after selection delete l).own s =
    (w.write? selection delete l s).getD (l.own s) := rfl

lemma adjusted_after (h : w.write? selection delete l s = l.adjust wanted delete s) :
    Adjusted wanted delete s l (w.after selection delete l) :=
  ⟨by rw [own_after, h], rfl⟩

/-! ### Packages -/

/-- **Packages are settled** by one plan. -/
theorem write?_package_after :
    w.write? selection delete (w.after selection delete l) (.package name) = none := by
  rcases hsel : selection.packages with _ | _
  · simp [write?, hsel]
  · simp only [write?, sees_after, hsel, if_true]
    rcases hwish : w.package name with _ | blocked <;>
      rcases hsees : l.sees (.package name) with _ | _ | _ <;>
      rcases delete with _ | _ <;>
      simp [seesAfter, hsees]

lemma sees_package_after_after :
    (w.after selection delete (w.after selection delete l)).sees (.package name) =
      (w.after selection delete l).sees (.package name) := by
  rw [sees_after, write?_package_after, seesAfter]

/-! ### Builds -/

/-- What is wanted is tagged by one plan, shown or not. -/
lemma own_build_after (hsel : selection.builds = true) (hwish : w.build n = true) :
    (w.after selection delete l).own (.build n) = some false := by
  rw [own_after, write?, if_pos hsel, if_pos hwish]
  split
  · rename_i hshows
    simp only [shows, Bool.and_eq_true, decide_eq_true_eq] at hshows
    exact hshows.1
  · rfl

/-- What is not wanted and not shown stays as it is. -/
lemma own_build_after_of_hidden (hwish : w.build n = false) (hhidden : l.shows n = false) :
    (w.after selection delete l).own (.build n) = l.own (.build n) := by
  rw [own_after, write?, hwish, hhidden]
  split <;> rfl

/-- What is not wanted and shown is untagged. -/
lemma own_build_after_of_shown (hsel : selection.builds = true) (hwish : w.build n = false)
    (hshows : l.shows n = true) : (w.after selection true l).own (.build n) = none := by
  rw [own_after, write?, if_pos hsel, hwish, hshows]
  rfl

/-- **Builds are settled** by two plans, since the second one was not asked to tag a build that
is tagged. -/
theorem write?_build_after_after
    (ht : w.Taggable selection delete (w.after selection delete l)) :
    w.write? selection delete
      (w.after selection delete (w.after selection delete l)) (.build n) = none := by
  have hsees : (w.after selection delete (w.after selection delete l)).sees (.package n.name) =
    (w.after selection delete l).sees (.package n.name) := sees_package_after_after
  rcases hsel : selection.builds with _ | _
  · simp [write?, hsel]
  rcases hwish : w.build n with _ | _
  · rcases hshows : (w.after selection delete l).shows n with _ | _
    · have hshows' : (w.after selection delete (w.after selection delete l)).shows n = false := by
        rw [← hshows, shows, shows, own_build_after_of_hidden hwish hshows, hsees]
      rw [write?, if_pos hsel, hwish, hshows']
      rfl
    · rcases delete with _ | _
      · simp [write?, hwish]
      · simp [write?, hwish, shows, own_build_after_of_shown hsel hwish hshows]
  · have hshows : (w.after selection delete l).shows n = true := by
      by_contra hhidden
      have hnone := ht n (by simp [write?, hsel, hwish, hhidden])
      rw [own_build_after hsel hwish] at hnone
      cases hnone
    have hshown : (w.after selection delete l).sees (.package n.name) = some false := by
      simp only [shows, Bool.and_eq_true, decide_eq_true_eq] at hshows
      exact hshows.2
    simp [write?, hwish, shows, own_build_after hsel hwish, hsees, hshown]

/-! ### Groups -/

lemma write?_group (hsel : selection.groups = true) :
    w.write? selection delete l (.group group) =
      l.adjust (w.group group) delete (.group group) := by
  rw [write?, if_pos hsel]

/-- A group that is wanted is there after one plan. -/
lemma sees_group_after (hsel : selection.groups = true) (hwish : w.group group = true) :
    (w.after selection delete l).sees (.group group) = some false := by
  have hwrite : w.write? selection delete l (.group group) =
      l.adjust true delete (.group group) := by rw [write?_group hsel, hwish]
  exact (adjusted_after hwrite).of_wanted

/-- **Groups are settled** by two plans. -/
theorem write?_group_after_after :
    w.write? selection delete
      (w.after selection delete (w.after selection delete l)) (.group group) = none := by
  rcases hsel : selection.groups with _ | _
  · simp [write?, hsel]
  · rw [write?_group hsel]
    exact (adjusted_after (write?_group hsel)).twice (adjusted_after (write?_group hsel))

/-! ### Members -/

/-- The members of a group that is wanted and seen are adjusted one by one. -/
lemma write?_member (hsel : selection.groups = true) (hwish : w.group group = true)
    (hsees : l.sees (.group group) = some false) :
    w.write? selection delete l (.member group package) =
      l.adjust (w.member group package) delete (.member group package) := by
  rw [write?, if_pos hsel, if_pos hwish, if_pos hsees]

/-- **Members are settled** by three plans. -/
theorem write?_member_after_after_after :
    w.write? selection delete
      (w.after selection delete (w.after selection delete (w.after selection delete l)))
      (.member group package) = none := by
  rcases hsel : selection.groups with _ | _
  · simp [write?, hsel]
  rcases hwish : w.group group with _ | _
  · -- the group has gone by then, and its members with it
    have hgroup : w.write? selection delete (w.after selection delete
        (w.after selection delete (w.after selection delete l))) (.group group) = none :=
      write?_group_after_after
    rw [write?_group hsel, hwish] at hgroup
    simp [write?, hwish, hgroup]
  · rw [write?_member hsel hwish (sees_group_after hsel hwish)]
    exact (adjusted_after (write?_member hsel hwish (sees_group_after hsel hwish))).twice
      (adjusted_after (write?_member hsel hwish (sees_group_after hsel hwish)))

/-- **Three plans settle all** if the last of them was not asked to tag a build that is tagged. -/
theorem write?_after_after_after
    (ht : w.Taggable selection delete
      (w.after selection delete (w.after selection delete l))) (s : Slot) :
    w.write? selection delete
      (w.after selection delete (w.after selection delete (w.after selection delete l))) s =
      none := by
  cases s with
  | package name => exact write?_package_after
  | build n => exact write?_build_after_after ht
  | group name => exact write?_group_after_after
  | member group package => exact write?_member_after_after_after

/-! ### After one plan -/

lemma write?_group_after_ne_none_iff :
    w.write? selection delete (w.after selection delete l) (.group group) ≠ none ↔
      w.write? selection delete l (.group group) = some none ∧
        l.above (.group group) = some false := by
  rcases hsel : selection.groups with _ | _
  · simp [write?, hsel]
  · have hwrite : w.write? selection delete l (.group group) = _ := write?_group hsel
    rw [write?_group hsel, Option.ne_none_iff_exists', hwrite]
    simp [(adjusted_after hwrite).adjust_eq_some_iff]

/-- A group that is wanted is never taken away. -/
lemma write?_group_ne (hwish : w.group group = true) :
    w.write? selection delete l (.group group) ≠ some none := by
  rw [write?, hwish, adjust, if_pos rfl]
  split
  · split <;> nofun
  · nofun

/-- The members of a group that is not wanted go with it, at once or never. -/
lemma write?_member_after_of_unwanted (hwish : w.group group = false) :
    w.write? selection delete (w.after selection delete l) (.member group package) = none := by
  rcases hsel : selection.groups with _ | _
  · simp [write?, hsel]
  have hnever : (w.after selection delete l).adjust false delete (.group group) ≠ some none := by
    intro hnone
    have hwrite : w.write? selection delete l (.group group) = _ := write?_group hsel
    rw [hwish] at hwrite
    obtain ⟨-, -, hv⟩ := (adjusted_after hwrite).adjust_eq_some_iff.mp hnone
    cases hv
  simp [write?, hwish, hnever]

/-- Where the group was there before, its members are adjusted a second time. -/
lemma write?_member_after_of_seen (hsel : selection.groups = true) (hwish : w.group group = true)
    (hseen : l.sees (.group group) = some false) :
    w.write? selection delete (w.after selection delete l) (.member group package) ≠ none ↔
      w.write? selection delete l (.member group package) = some none ∧
        l.above (.member group package) = some false := by
  have hmember : w.write? selection delete l (.member group package) = _ :=
    write?_member hsel hwish hseen
  rw [write?_member hsel hwish (sees_group_after hsel hwish), Option.ne_none_iff_exists', hmember]
  simp [(adjusted_after hmember).adjust_eq_some_iff]

/-- Where the group is new, members come with it that nobody has looked at before. -/
lemma write?_member_after_of_unseen (hsel : selection.groups = true)
    (hwish : w.group group = true) (hunseen : l.sees (.group group) ≠ some false) :
    w.write? selection delete (w.after selection delete l) (.member group package) ≠ none ↔
      w.write? selection delete l (.member group package) ≠ some (some false) ∧
        l.sees (.member group package) = some false ∧
        ((l.own (.member group package)).isSome → delete = true) := by
  have hmember : w.write? selection delete l (.member group package) =
      if w.member group package then some (some false) else none := by
    rw [write?, if_pos hsel, if_pos hwish, if_neg hunseen]
  have hafter : (w.after selection delete l).sees (.member group package) = _ := sees_after
  have hown : (w.after selection delete l).own (.member group package) = _ := own_after
  rw [hmember] at hafter hown
  rw [write?_member hsel hwish (sees_group_after hsel hwish), hmember]
  rcases hw : w.member group package with _ | _
  · simp only [hw, Bool.false_eq_true, if_false, seesAfter, Option.getD_none] at hafter hown
    rw [adjust, hafter, hown]
    by_cases hs : l.sees (.member group package) = some false <;>
      rcases (l.own (.member group package)).isSome with _ | _ <;>
      rcases delete with _ | _ <;> simp [hs]
  · simp only [hw, if_true, seesAfter] at hafter
    rw [adjust, if_pos rfl, if_pos hafter]
    simp

lemma write?_member_after_ne_none_iff :
    w.write? selection delete (w.after selection delete l) (.member group package) ≠ none ↔
      w.write? selection delete l (.member group package) = some none ∧
          w.write? selection delete l (.group group) ≠ some none ∧
          l.above (.member group package) = some false ∨
        w.write? selection delete l (.group group) = some (some false) ∧
          w.write? selection delete l (.member group package) ≠ some (some false) ∧
          l.sees (.member group package) = some false ∧
          ((l.own (.member group package)).isSome → delete = true) := by
  rcases hsel : selection.groups with _ | _
  · simp [write?, hsel]
  have hgroup : w.write? selection delete l (.group group) = _ := write?_group hsel
  rcases hwish : w.group group with _ | _
  · rw [hwish] at hgroup
    have hadd : l.adjust false delete (.group group) ≠ some (some false) := by
      simp [adjust_eq_some_iff]
    have hmember : w.write? selection delete l (.member group package) = some none →
        l.adjust false delete (.group group) = some none := by
      intro hremoves
      by_contra hstays
      simp [write?, hwish, hstays] at hremoves
    rw [write?_member_after_of_unwanted hwish, hgroup]
    simp only [ne_eq, not_true_eq_false, hadd, false_and, or_false, false_iff, not_and]
    exact fun hremoves hkeeps => absurd (hmember hremoves) hkeeps
  · have hne : w.write? selection delete l (.group group) ≠ some none := write?_group_ne hwish
    by_cases hseen : l.sees (.group group) = some false
    · rw [write?_member_after_of_seen hsel hwish hseen]
      simp [hgroup, hwish, adjust, hseen]
    · have hadds : w.write? selection delete l (.group group) = some (some false) := by
        rw [hgroup, hwish, adjust, if_pos rfl, if_neg hseen]
      have hnever : w.write? selection delete l (.member group package) ≠ some none := by
        rw [write?, if_pos hsel, if_pos hwish, if_neg hseen]
        split <;> simp
      rw [write?_member_after_of_unseen hsel hwish hseen]
      simp [hadds, hnever]

/-- A package is listed anew only where none was seen. -/
lemma write?_package_iff :
    w.write? selection delete l (.package name) = some (some false) ↔
      selection.packages = true ∧ w.package name = some false ∧ l.sees (.package name) = none := by
  rcases hsel : selection.packages with _ | _
  · simp [write?, hsel]
  · rcases hwish : w.package name with _ | blocked <;>
      rcases hsees : l.sees (.package name) with _ | _ | _ <;>
      rcases delete with _ | _ <;>
      simp [write?, hsel, hwish, hsees]

lemma sees_package_after_iff :
    (w.after selection delete l).sees (.package name) = some false ↔
      w.write? selection delete l (.package name) = some (some false) ∨
        w.write? selection delete l (.package name) = none ∧
          l.sees (.package name) = some false := by
  have hne : w.write? selection delete l (.package name) ≠ some none := by
    simp only [write?]
    split
    · split
      · nofun
      · split <;> nofun
      · nofun
    · nofun
  rw [sees_after]
  rcases hwrite : w.write? selection delete l (.package name) with _ | _ | blocked
  · simp [seesAfter]
  · exact absurd hwrite hne
  · simp [seesAfter]

lemma shows_eq_false (hs : l.sees (.package n.name) ≠ some false) : l.shows n = false := by
  simp [shows, hs]

/-- A build that is not wanted is left over when its package has been listed only now. -/
lemma write?_build_after_of_unwanted (hsel : selection.builds = true)
    (hwish : w.build n = false) :
    w.write? selection delete (w.after selection delete l) (.build n) ≠ none ↔
      w.write? selection delete l (.package n.name) = some (some false) ∧
        l.own (.build n) = some false ∧ delete = true := by
  have hleft : w.write? selection delete (w.after selection delete l) (.build n) ≠ none ↔
      (w.after selection delete l).shows n = true ∧ delete = true := by
    simp [write?, hsel, hwish]
  rw [hleft]
  constructor
  · rintro ⟨hshown, rfl⟩
    have hhidden : l.shows n = false := by
      rw [Bool.eq_false_iff]
      intro hs
      simp [shows, own_build_after_of_shown hsel hwish hs] at hshown
    simp only [shows, own_build_after_of_hidden hwish hhidden, Bool.and_eq_true,
      decide_eq_true_eq] at hshown
    obtain ⟨hheld, hseen⟩ := hshown
    rcases sees_package_after_iff.mp hseen with hlists | ⟨-, hsame⟩
    · exact ⟨hlists, hheld, rfl⟩
    · simp [shows, hheld, hsame] at hhidden
  · rintro ⟨hlists, hheld, rfl⟩
    have hunseen := (write?_package_iff.mp hlists).2.2
    have hhidden : l.shows n = false := shows_eq_false (by simp [hunseen])
    have hown : (w.after selection true l).own (.build n) = _ :=
      own_build_after_of_hidden hwish hhidden
    refine ⟨?_, rfl⟩
    simp [shows, hown, hheld, sees_package_after_iff.mpr (.inl hlists)]

/-- A build that is wanted is asked for again when its package is blocked. -/
lemma write?_build_after_of_wanted (ht : w.Taggable selection delete l)
    (hsel : selection.builds = true) (hpackages : selection.packages = true)
    (hwish : w.build n = true) (hlisted : w.package n.name = some false) :
    w.write? selection delete (w.after selection delete l) (.build n) ≠ none ↔
      w.write? selection delete l (.build n) = some (some false) ∧
          l.sees (.package n.name) = some true ∨
        w.write? selection delete l (.package n.name) = some (some false) ∧
          l.own (.build n) = some false ∧ delete = true := by
  have hlist : w.write? selection delete l (.package n.name) = some (some false) ↔
      l.sees (.package n.name) = none := by
    simp [write?_package_iff, hpackages, hlisted]
  have htags : w.write? selection delete l (.build n) = some (some false) ↔
      l.shows n = false := by
    simp [write?, hsel, hwish]
  have hleft : w.write? selection delete (w.after selection delete l) (.build n) ≠ none ↔
      (w.after selection delete l).sees (.package n.name) ≠ some false := by
    simp [write?, hsel, hwish, shows, own_build_after hsel hwish]
  rw [hleft, ne_eq, sees_package_after_iff, hlist, htags, not_or]
  constructor
  · rintro ⟨hunlisted, hseen⟩
    rcases hs : l.sees (.package n.name) with _ | _ | _
    · exact absurd hs hunlisted
    · refine absurd ⟨?_, hs⟩ hseen
      simp [write?, hlisted, hs]
    · exact .inl ⟨shows_eq_false (by simp [hs]), rfl⟩
  · rintro (⟨-, hblocked⟩ | ⟨hunlisted, hheld, -⟩)
    · simp [hblocked]
    · have hnone := ht n (htags.mpr (shows_eq_false (by simp [hunlisted])))
      rw [hheld] at hnone
      cases hnone

lemma write?_build_after_ne_none_iff (ht : w.Taggable selection delete l) (hw : w.Listed)
    (hpackages : selection.builds = true → selection.packages = true) :
    w.write? selection delete (w.after selection delete l) (.build n) ≠ none ↔
      w.write? selection delete l (.build n) = some (some false) ∧
          l.sees (.package n.name) = some true ∨
        w.write? selection delete l (.package n.name) = some (some false) ∧
          l.own (.build n) = some false ∧ selection.builds = true ∧ delete = true := by
  rcases hsel : selection.builds with _ | _
  · simp [write?, hsel]
  simp only [true_and]
  rcases hwish : w.build n with _ | _
  · have hnever : w.write? selection delete l (.build n) ≠ some (some false) := by
      simp only [write?, hsel, hwish, if_true, Bool.false_eq_true, if_false]
      split <;> simp
    rw [write?_build_after_of_unwanted hsel hwish]
    simp [hnever]
  · exact write?_build_after_of_wanted ht hsel (hpackages hsel) hwish (hw n hwish)

/-- **One plan settles all unless it brings something to light**, if it was not asked to tag a
build that is tagged. -/
theorem exists_write?_after_iff (ht : w.Taggable selection delete l) (hw : w.Listed)
    (hpackages : selection.builds = true → selection.packages = true) :
    (∃ s, w.write? selection delete (w.after selection delete l) s ≠ none) ↔
      l.Uncovered (fun s v => w.write? selection delete l s = some v) selection.builds delete := by
  constructor
  · rintro ⟨s, hs⟩
    cases s with
    | package name => exact absurd write?_package_after hs
    | build n =>
      rcases (write?_build_after_ne_none_iff ht hw hpackages).mp hs with
        ⟨htags, hblocked⟩ | ⟨hlists, hheld, hsel, hdelete⟩
      · exact .hidden htags hblocked
      · exact .listed hlists hheld hsel hdelete
    | group group =>
      obtain ⟨hremoves, habove⟩ := write?_group_after_ne_none_iff.mp hs
      exact .group hremoves habove
    | member group package =>
      rcases write?_member_after_ne_none_iff.mp hs with
        ⟨hremoves, hkeeps, habove⟩ | ⟨hadds, hleaves, hstays, hclears⟩
      · exact .member hremoves hkeeps habove
      · exact .restored hadds hleaves hstays hclears
  · intro hu
    cases hu with
    | @hidden n htags hblocked =>
      exact ⟨.build n, (write?_build_after_ne_none_iff ht hw hpackages).mpr
        (.inl ⟨htags, hblocked⟩)⟩
    | @listed n hlists hheld hsel hdelete =>
      exact ⟨.build n, (write?_build_after_ne_none_iff ht hw hpackages).mpr
        (.inr ⟨hlists, hheld, hsel, hdelete⟩)⟩
    | @group group hremoves habove =>
      exact ⟨.group group, write?_group_after_ne_none_iff.mpr ⟨hremoves, habove⟩⟩
    | @member group package hremoves hkeeps habove =>
      exact ⟨.member group package, write?_member_after_ne_none_iff.mpr
        (.inl ⟨hremoves, hkeeps, habove⟩)⟩
    | @restored group package hadds hleaves hstays hclears =>
      exact ⟨.member group package, write?_member_after_ne_none_iff.mpr
        (.inr ⟨hadds, hleaves, hstays, hclears⟩)⟩

end Wish

end TagSync
