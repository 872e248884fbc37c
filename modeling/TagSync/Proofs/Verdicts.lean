import TagSync.Proofs.Accepts
import TagSync.Proofs.Delivery
import TagSync.Proofs.Intent
import TagSync.Proofs.Order

/-!
Which calls of a plan are rejected.

A plan is made before anything is written, while each of its calls is judged after those before
it. What these have written is what the plan intends, and what they have failed to write only
concerns builds; so only builds can be refused, and the tables the plan was made from tell which.
-/

namespace TagSync

/-! ### Who writes what -/

namespace Operation

variable {o : Operation} {group package : String} {n : Nvr} {v : Option Bool}

lemma eq_addPackage_of_write (h : o.write? (.package package) = some (some false)) :
    ∃ owner arches, o = .addPackage package owner false arches := by
  cases o <;> simp_all [write?]

lemma eq_addGroup_of_write (h : o.write? (.group group) = some (some false)) :
    o = .addGroup group := by
  cases o <;> simp_all [write?]

lemma eq_removeGroup_of_write (h : o.write? (.group group) = some none) :
    o = .removeGroup group := by
  cases o <;> simp_all [write?]

lemma eq_of_write_member_none (h : o.write? (.member group package) = some none) :
    o = .removeGroupPackage group package ∨ o = .removeGroup group := by
  cases o <;> simp_all [write?]

lemma eq_of_write_build (h : o.write? (.build n) = some v) :
    ∃ nvr, Nvr.parse? nvr = some n ∧
      (o = .tagBuild nvr ∧ v = some false ∨ o = .untagBuild nvr ∧ v = none) := by
  cases o <;> simp_all [write?]

end Operation

namespace Tables

/-- The tables after some calls of a plan, as far as the rest of the plan can tell. Each call was
accepted or rejected, but only builds may have been rejected. -/
structure Midway (c : Clock) (d : TagId) (done : List Operation) (t t' : Tables) : Prop where
  confined : Confined c d t t'
  tags : t'.tags = t.tags
  written : ∀ s, t'.own d s = t.own d s ∨ ∃ o ∈ done, o.write? s = some (t'.own d s)
  effective : ∀ o ∈ done, (∀ nvr, o ≠ .tagBuild nvr) →
    ∀ s v, o.write? s = some v → t'.own d s = v

/-- What a tag does not accept of a plan made for it: builds that are tagged into it already, and
without force those of packages that are blocked for it. -/
def Refuses (t : Tables) (d : TagId) (force : Bool) : Operation → Prop
  | .tagBuild nvr => ∃ n, Nvr.parse? nvr = some n ∧ (t.holdsBuild d n = true ∨
    force = false ∧ ∃ p ∈ t.listPackages d true none, p.name = n.name ∧ p.blocked = true)
  | _ => False

instance (t : Tables) (d : TagId) (force : Bool) : DecidablePred (t.Refuses d force)
  | .tagBuild nvr =>
    match h : Nvr.parse? nvr with
    | none => isFalse fun ⟨_, hn, _⟩ => by rw [h] at hn; cases hn
    | some n => decidable_of_iff (t.holdsBuild d n = true ∨
        force = false ∧ ∃ p ∈ t.listPackages d true none, p.name = n.name ∧ p.blocked = true)
        ⟨fun hr => ⟨n, h, hr⟩, fun ⟨_, hn, hr⟩ => Option.some.inj (h.symm.trans hn) ▸ hr⟩
  | .addPackage .. | .blockPackage _ | .addGroup _ | .removeGroup _ | .blockGroup _
  | .addGroupPackage .. | .removeGroupPackage .. | .blockGroupPackage .. | .untagBuild _ =>
    isFalse id

variable {t t' : Tables} {tag : TagInfo} {row : TagRow} {src : Snapshot} {o : DiffOptions}
  {selection : ClassSelection} {done : List Operation} {x : Operation} {c : Clock} {force : Bool}
  {group package : String}

lemma sees_blocked_iff (hrow : t.tag? tag.id = some row) (package : String) :
    t.sees tag.id (.package package) = some true ↔
      ∃ p ∈ t.listPackages tag.id true none, p.name = package ∧ p.blocked = true := by
  rw [← any_blocked_package? hrow, package?, Option.any_eq_true]
  constructor
  · rintro ⟨p, hp, hblocked⟩
    have hname := packageView_named t none _ _ _ hp
    exact ⟨p, (packageView_named t none _).mem_values.mpr (by rwa [hname]), hname, hblocked⟩
  · rintro ⟨p, hp, rfl, hblocked⟩
    exact ⟨p, (packageView_named t none _).mem_values.mp hp, hblocked⟩

/-! ### What a plan tells about its calls -/

/-- A call of a plan is one of its class. -/
lemma mem_ofClass (hx : x ∈ (t.planFor tag src selection o).operations) :
    x ∈ (t.planFor tag src selection o).ofClass x.entityClass := by
  rcases mem_planFor_operations.mp hx with ⟨hsel, h⟩ | ⟨hsel, h⟩ | ⟨hsel, h⟩
  · rw [Diff.entityClass_of_mem_packages h]
    exact List.mem_ite_nil_right.mpr ⟨hsel, h⟩
  · rw [Diff.entityClass_of_mem_builds h]
    exact List.mem_ite_nil_right.mpr ⟨hsel, h⟩
  · rw [Diff.entityClass_of_mem_groups h]
    exact List.mem_ite_nil_right.mpr ⟨hsel, h⟩

section

variable (hsrc : t.Comparable src) (hx : x ∈ (t.planFor tag src selection o).operations)

include hsrc hx

/-- Calls about single members concern groups of the source. -/
lemma wish_group_of_mem {v : Option Bool} (h : x.write? (.member group package) = some v)
    (hne : x ≠ .removeGroup group) : (Wish.ofSnapshot src o).group group = true := by
  have hx := mem_ofClass hx
  have hgroup : x.group? = some group ∧ x.entityClass = .groups ∧ x ≠ .blockGroup group := by
    cases x <;> simp_all [Operation.write?, Operation.group?, Operation.entityClass]
  obtain ⟨hgroup, hclass, hne'⟩ := hgroup
  rw [hclass] at hx
  rcases (Diff.mem_groups hsrc.groups snapshot_groups).mp (List.mem_ite_nil_right.mp hx).2 with
    ⟨name, g, -, -, hmem⟩ | ⟨name, a, g, hs, hg, hmem⟩ | ⟨name, a, hs, -, hmem⟩
  · have hname := Option.some.inj ((Diff.group?_of_mem_suppressGroup hmem).symm.trans hgroup)
    rcases Diff.mem_suppressGroup.mp hmem with ⟨hblock, -⟩ | ⟨hremove, -⟩
    · exact absurd (by rw [hblock, hname]) hne'
    · exact absurd (by rw [hremove, hname]) hne
  · have hname := Diff.activeGroup?_name snapshot_groups hg
    have hname' := Diff.activeGroup?_name hsrc.groups hs
    have := (Diff.group?_of_mem_members (hname'.trans hname.symm) hmem).symm.trans hgroup
    simp [Wish.ofSnapshot, ← Option.some.inj this, hname, hs]
  · have hname' := Diff.activeGroup?_name hsrc.groups hs
    have := (Diff.group?_of_mem_createGroup hmem).symm.trans hgroup
    simp [Wish.ofSnapshot, ← Option.some.inj this, hname', hs]

end

/-- What a plan does about a member of a group that both sides see, unless it adds it. -/
lemma adjust_of_intent_member {v : Option Bool}
    (hwish : (Wish.ofSnapshot src o).group group = true)
    (hi : t.intent tag src selection o (.member group package) = some v) (hv : v ≠ some false) :
    t.sees tag.id (.group group) = some false ∧
      (v = none → (t.own tag.id (.member group package)).isSome) := by
  simp only [intent, Wish.write?, hwish, if_true] at hi
  obtain ⟨-, hi⟩ := Option.ite_none_right_eq_some.mp hi
  by_cases hseen : (t.layers tag.id).sees (.group group) = some false
  · rw [if_pos hseen, Layers.adjust_eq_some_iff] at hi
    refine ⟨hseen, fun hnone => ?_⟩
    rcases hi with ⟨-, -, h⟩ | ⟨-, -, hown, -⟩ | ⟨-, -, -, h⟩
    · exact absurd h hv
    · exact hown
    · rw [hnone] at h
      cases h
  · rw [if_neg hseen] at hi
    obtain ⟨-, hi⟩ := Option.ite_none_right_eq_some.mp hi
    exact absurd (Option.some.inj hi).symm hv

lemma isSome_buildNamed? (ht : t.Sound) (hsrc : t.Comparable src) {b : BuildEntry}
    (hb : b ∈ src.builds.values) {n : Nvr} (hn : Nvr.parse? b.nvr = some n) :
    (t.buildNamed? n).isSome = true := by
  obtain ⟨r, hr, hnvr⟩ := hsrc.builds b hb
  rw [hnvr, ht.readable r hr] at hn
  rw [← Option.some.inj hn, ht.buildNamed?_self hr]
  rfl

/-! ### The state in the middle of a plan -/

section

variable (ht : t.Sound) (hrow : t.tag? tag.id = some row) (hsrc : t.Comparable src)
  (m : Midway c tag.id done t t')
  (turn : Operation.Turn (t.planFor tag src selection o).operations done x)

include m in
lemma Midway.own_eq {s : Slot} (h : ∀ y ∈ done, y.write? s = none) :
    t'.own tag.id s = t.own tag.id s := by
  rcases m.written s with he | ⟨y, hy, hwrite⟩
  · exact he
  · rw [h y hy] at hwrite
    cases hwrite

include ht m in
lemma Midway.sees_eq {s : Slot} (h : t'.own tag.id s = t.own tag.id s) :
    t'.sees tag.id s = t.sees tag.id s := by
  rw [sees, sees, h, m.confined.above_eq ht]

include ht hrow hsrc turn

/-- In the places where a plan writes nothing, nothing has been written. -/
lemma write?_eq_none_of_done {s : Slot} (h : t.intent tag src selection o s = none) :
    ∀ y ∈ done, y.write? s = none := by
  intro y hy
  by_contra hne
  obtain ⟨v, hv⟩ := Option.ne_none_iff_exists'.mp hne
  rw [intent_of_mem ht hrow hsrc (turn.done_mem y hy) hv] at h
  cases h

include m

/-- A place holds what it held when the plan was made, or what the plan intends. -/
lemma Midway.own_cases {s : Slot} {v : Option Bool}
    (h : t.intent tag src selection o s = some v) :
    t'.own tag.id s = t.own tag.id s ∨ t'.own tag.id s = v := by
  refine (m.written s).imp_right fun ⟨y, hy, hwrite⟩ => ?_
  have := intent_of_mem ht hrow hsrc (turn.done_mem y hy) hwrite
  rw [h] at this
  exact (Option.some.inj this).symm

/-! ### Each call at its turn -/

lemma accepts_addPackage {owner : String} {blocked : Bool} {arches : Option String}
    (hx : x = .addPackage package owner blocked arches) : t'.Accepts tag.id force x := by
  subst hx
  rcases blocked with _ | _
  · have hi := intent_of_mem ht hrow hsrc turn.mem (s := .package package) (if_pos rfl)
    have hunseen : t.sees tag.id (.package package) = none := by
      simp only [intent, Wish.write?, layers_sees] at hi
      split at hi
      · split at hi <;> simp_all
      · cases hi
    rw [sees, Option.or_eq_none_iff] at hunseen
    refine .inr (.inr ?_)
    rw [sees, m.confined.above_eq ht, hunseen.2, Option.or_none]
    rcases t'.own tag.id (.package package) with _ | b <;> simp
  · exact .inr (.inl rfl)

lemma accepts_blockPackage (hx : x = .blockPackage package) : t'.Accepts tag.id force x := by
  subst hx
  obtain ⟨hsel, hmem⟩ := List.mem_ite_nil_right.mp (mem_ofClass turn.mem)
  have hi := intent_of_mem ht hrow hsrc turn.mem (s := .package package) (if_pos rfl)
  have hseen : t.sees tag.id (.package package) = some false := by
    rw [← destination_package hrow hsel]
    rcases (Diff.mem_packages hsrc.packages snapshot_packages).mp hmem with
      ⟨name, hx, -, -, hseen⟩ | ⟨name, e, hx, -⟩
    · cases hx
      exact hseen
    · cases hx
  rcases m.own_cases ht hrow hsrc turn hi with hown | hown
  · rw [Accepts, m.sees_eq ht hown, hseen]
    rfl
  · rw [Accepts, sees, hown]
    rfl

lemma accepts_removeGroup (hx : x = .removeGroup group) : t'.Accepts tag.id force x := by
  subst hx
  have hi := intent_of_mem ht hrow hsrc turn.mem (s := .group group) (if_pos rfl)
  have hown : (t.own tag.id (.group group)).isSome := by
    simp only [intent, Wish.write?] at hi
    split at hi
    · rw [Layers.adjust_eq_some_iff] at hi
      rcases hi with ⟨-, -, hv⟩ | ⟨-, -, hown, -⟩ | ⟨-, -, -, hv⟩
      · cases hv
      · exact hown
      · cases hv
    · cases hi
  rw [Accepts, m.own_eq fun y hy => ?_]
  · exact hown
  · by_contra hne
    obtain ⟨v, hv⟩ := Option.ne_none_iff_exists'.mp hne
    have hsame := intent_of_mem ht hrow hsrc (turn.done_mem y hy) hv
    obtain rfl := Option.some.inj (hi.symm.trans hsame)
    exact turn.done_ne y hy (Operation.eq_removeGroup_of_write hv)

lemma accepts_blockGroup (hx : x = .blockGroup group) : t'.Accepts tag.id force x := by
  subst hx
  have hi := intent_of_mem ht hrow hsrc turn.mem (s := .group group) (if_pos rfl)
  have hseen : t.sees tag.id (.group group) = some false := by
    simp only [intent, Wish.write?] at hi
    split at hi
    · rw [Layers.adjust_eq_some_iff, layers_sees] at hi
      rcases hi with ⟨-, -, hv⟩ | ⟨-, -, -, -, hv⟩ | ⟨-, hseen, -⟩
      · cases hv
      · cases hv
      · exact hseen
    · cases hi
  rcases m.own_cases ht hrow hsrc turn hi with hown | hown
  · rw [Accepts, m.sees_eq ht hown, hseen]
    rfl
  · rw [Accepts, sees, hown]
    rfl

/-- A group of the source is there when a call about its members has its turn. -/
lemma Midway.sees_group (hsel : selection.groups = true)
    (hwish : (Wish.ofSnapshot src o).group group = true)
    (ready : t.sees tag.id (.group group) = some false ∨ x.ReliesOn (.addGroup group)) :
    t'.sees tag.id (.group group) = some false := by
  by_cases hseen : t.sees tag.id (.group group) = some false
  · have hi : t.intent tag src selection o (.group group) = none := by
      simp [intent, Wish.write?, hsel, hwish, Layers.adjust, layers_sees, hseen]
    rw [m.sees_eq ht (m.own_eq (write?_eq_none_of_done ht hrow hsrc turn hi)), hseen]
  · have hi : t.intent tag src selection o (.group group) = some (some false) := by
      simp [intent, Wish.write?, hsel, hwish, Layers.adjust, layers_sees, hseen]
    obtain ⟨y, hy, hwrite⟩ := exists_mem_of_intent ht hrow hsrc hi
    obtain rfl := Operation.eq_addGroup_of_write hwrite
    have hdone := turn.relied _ hy (ready.resolve_left hseen)
    rw [sees, m.effective _ hdone (fun _ => by simp) _ _ hwrite]
    rfl

lemma accepts_addGroupPackage (hx : x = .addGroupPackage group package) :
    t'.Accepts tag.id force x := by
  subst hx
  obtain ⟨hsel, -⟩ := List.mem_ite_nil_right.mp (mem_ofClass turn.mem)
  have hwish := wish_group_of_mem hsrc turn.mem (if_pos rfl) (by simp)
  exact m.sees_group ht hrow hsrc turn hsel hwish (.inr rfl)

lemma accepts_blockGroupPackage (hx : x = .blockGroupPackage group package) :
    t'.Accepts tag.id force x := by
  subst hx
  obtain ⟨hsel, -⟩ := List.mem_ite_nil_right.mp (mem_ofClass turn.mem)
  have hwish := wish_group_of_mem hsrc turn.mem (if_pos rfl) (by simp)
  have hi := intent_of_mem ht hrow hsrc turn.mem (s := .member group package) (if_pos rfl)
  have hseen := (adjust_of_intent_member hwish hi (by simp)).1
  exact m.sees_group ht hrow hsrc turn hsel hwish (.inl hseen)

lemma accepts_removeGroupPackage (hx : x = .removeGroupPackage group package) :
    t'.Accepts tag.id force x := by
  subst hx
  obtain ⟨hsel, -⟩ := List.mem_ite_nil_right.mp (mem_ofClass turn.mem)
  have hwish := wish_group_of_mem hsrc turn.mem (if_pos rfl) (by simp)
  have hi := intent_of_mem ht hrow hsrc turn.mem (s := .member group package) (if_pos rfl)
  rw [Accepts, m.own_eq fun y hy => ?_]
  · exact (adjust_of_intent_member hwish hi (by simp)).2 rfl
  · by_contra hne
    obtain ⟨v, hv⟩ := Option.ne_none_iff_exists'.mp hne
    have hsame := intent_of_mem ht hrow hsrc (turn.done_mem y hy) hv
    obtain rfl := Option.some.inj (hi.symm.trans hsame)
    rcases Operation.eq_of_write_member_none hv with rfl | rfl
    · exact turn.done_ne _ hy rfl
    · -- the group is one of the source and not removed
      have hgroup := intent_of_mem ht hrow hsrc (turn.done_mem _ hy) (s := .group group)
        (if_pos rfl)
      simp [intent, Wish.write?, hsel, hwish, Layers.adjust] at hgroup

/-! ### Builds at their turn -/

omit turn hrow m in
/-- A plan calls builds by their full names. -/
lemma nvr_eq_display {nvr : String} {n : Nvr}
    (hx : x ∈ (t.planFor tag src selection o).operations)
    (hbuild : x = .tagBuild nvr ∨ x = .untagBuild nvr) (hn : Nvr.parse? nvr = some n) :
    nvr = n.display := by
  have hclass : x.entityClass = .builds := by
    rcases hbuild with rfl | rfl <;> rfl
  have hx := mem_ofClass hx
  rw [hclass] at hx
  rcases Diff.mem_builds.mp (List.mem_ite_nil_right.mp hx).2 with
    ⟨b, hb, rfl, -⟩ | ⟨w, hw, rfl, -⟩
  · have hnvr : b.nvr = nvr := by simpa using hbuild
    rw [← hnvr] at hn ⊢
    exact display_of_parse? ht (comparable_snapshot ..) hb hn
  · have hnvr : w.nvr = nvr := by simpa using hbuild
    rw [← hnvr] at hn ⊢
    exact display_of_parse? ht hsrc (Diff.mem_of_mem_wantedBuilds hw) hn

/-- A build is as it was when the plan was made, until the call about it has its turn. -/
lemma Midway.own_build_eq {n : Nvr} {v : Option Bool} (hx : x.write? (.build n) = some v) :
    t'.own tag.id (.build n) = t.own tag.id (.build n) := by
  have hi := intent_of_mem ht hrow hsrc turn.mem hx
  refine m.own_eq fun y hy => ?_
  by_contra hne
  obtain ⟨w, hw⟩ := Option.ne_none_iff_exists'.mp hne
  have hsame := intent_of_mem ht hrow hsrc (turn.done_mem y hy) hw
  obtain rfl := Option.some.inj (hi.symm.trans hsame)
  obtain ⟨nvr, hn, hxn⟩ := Operation.eq_of_write_build hx
  obtain ⟨nvr', hn', hyn⟩ := Operation.eq_of_write_build hw
  have hnvr := nvr_eq_display ht hsrc turn.mem (hxn.imp And.left And.left) hn
  have hnvr' := nvr_eq_display ht hsrc (turn.done_mem y hy) (hyn.imp And.left And.left) hn'
  refine turn.done_ne y hy ?_
  rcases hxn with ⟨rfl, rfl⟩ | ⟨rfl, rfl⟩
  · rw [(hyn.resolve_right fun h => nomatch h.2).1, hnvr, hnvr']
  · rw [(hyn.resolve_left fun h => nomatch h.2).1, hnvr, hnvr']

lemma accepts_untagBuild {nvr : String} (hx : x = .untagBuild nvr) : t'.Accepts tag.id force x := by
  subst hx
  obtain ⟨hsel, hmem⟩ := List.mem_ite_nil_right.mp (mem_ofClass turn.mem)
  rcases Diff.mem_builds.mp hmem with ⟨b, hb, hx, -⟩ | ⟨w, -, hx, -⟩
  · cases hx
    obtain ⟨n, hn⟩ := exists_parse? ht (comparable_snapshot ..) hb
    have hshown : t.shows tag.id n = true := by
      have hbn := display_of_parse? ht (comparable_snapshot ..) hb hn
      rw [← destination_build hrow ht hsel (by rwa [← hbn]), ← hbn, Keyed.contains_iff]
      exact ⟨b, snapshot_builds.mem_values.mp hb⟩
    have hholds : t.holdsBuild tag.id n = true := ((Bool.and_eq_true ..).mp hshown).1
    refine ⟨n, hn, ?_⟩
    rw [m.own_build_eq ht hrow hsrc turn (if_pos hn), own, hholds]
    rfl
  · cases hx

/-- The package of a build that is to be tagged is listed when the build has its turn, unless it
was blocked. -/
lemma Midway.sees_package (hselects : selection.builds = true → selection.packages = true)
    (hlisted : (Wish.ofSnapshot src o).Listed) {nvr : String} (hx : x = .tagBuild nvr) {n : Nvr}
    (hn : Nvr.parse? nvr = some n) :
    t'.sees tag.id (.package n.name) = some false ↔
      t.sees tag.id (.package n.name) ≠ some true := by
  subst hx
  obtain ⟨hsel, hmem⟩ := List.mem_ite_nil_right.mp (mem_ofClass turn.mem)
  have hwish : (Wish.ofSnapshot src o).package n.name = some false := by
    rcases Diff.mem_builds.mp hmem with ⟨b, -, hx, -⟩ | ⟨w, hw, hx, -⟩
    · cases hx
    · cases hx
      exact hlisted n (wish_build_iff.mpr ⟨w, hw, hn⟩)
  rcases hseen : t.sees tag.id (.package n.name) with _ | blocked
  · have hi : t.intent tag src selection o (.package n.name) = some (some false) := by
      simp [intent, Wish.write?, hselects hsel, hwish, layers_sees, hseen]
    obtain ⟨y, hy, hwrite⟩ := exists_mem_of_intent ht hrow hsrc hi
    obtain ⟨owner, arches, rfl⟩ := Operation.eq_addPackage_of_write hwrite
    have hdone := turn.relied _ hy trivial
    rw [sees, m.effective _ hdone (fun _ => by simp) _ _ hwrite]
    simp
  · have hi : t.intent tag src selection o (.package n.name) = none := by
      simp [intent, Wish.write?, hselects hsel, hwish, layers_sees, hseen]
    rw [m.sees_eq ht (m.own_eq (write?_eq_none_of_done ht hrow hsrc turn hi)), hseen]
    rcases blocked with _ | _ <;> simp

lemma accepts_tagBuild_iff (hselects : selection.builds = true → selection.packages = true)
    (hlisted : (Wish.ofSnapshot src o).Listed) {nvr : String} (hx : x = .tagBuild nvr) :
    t'.Accepts tag.id force x ↔ ¬ t.Refuses tag.id force x := by
  subst hx
  obtain ⟨hsel, hmem⟩ := List.mem_ite_nil_right.mp (mem_ofClass turn.mem)
  obtain ⟨n, hn, hfound⟩ : ∃ n, Nvr.parse? nvr = some n ∧ (t.buildNamed? n).isSome = true := by
    rcases Diff.mem_builds.mp hmem with ⟨b, -, hx, -⟩ | ⟨w, hw, hx, -⟩ <;> cases hx
    obtain ⟨n, hn⟩ := exists_parse? ht hsrc (Diff.mem_of_mem_wantedBuilds hw)
    exact ⟨n, hn, isSome_buildNamed? ht hsrc (Diff.mem_of_mem_wantedBuilds hw) hn⟩
  have hfound : (t'.buildNamed? n).isSome = true := by
    rwa [buildNamed?, m.confined.builds]
  have hpackage := m.sees_package ht hrow hsrc turn hselects hlisted rfl hn
  have hfree : t'.own tag.id (.build n) = none ↔ ¬ t.holdsBuild tag.id n = true := by
    rw [m.own_build_eq ht hrow hsrc turn (if_pos hn), own]
    split <;> simp_all
  simp only [Accepts, Refuses, hn, Option.some.injEq, exists_eq_left', hfound, true_and, hfree,
    hpackage, ← sees_blocked_iff hrow]
  rcases force with _ | _ <;> simp

/-- **A call of a plan is accepted at its turn** unless the tag refuses it. -/
theorem accepts_iff (hselects : selection.builds = true → selection.packages = true)
    (hlisted : (Wish.ofSnapshot src o).Listed) :
    t'.Accepts tag.id force x ↔ ¬ t.Refuses tag.id force x := by
  cases x with
  | addPackage => exact iff_of_true (accepts_addPackage ht hrow hsrc m turn rfl) id
  | blockPackage => exact iff_of_true (accepts_blockPackage ht hrow hsrc m turn rfl) id
  | addGroup => exact iff_of_true trivial id
  | removeGroup => exact iff_of_true (accepts_removeGroup ht hrow hsrc m turn rfl) id
  | blockGroup => exact iff_of_true (accepts_blockGroup ht hrow hsrc m turn rfl) id
  | addGroupPackage => exact iff_of_true (accepts_addGroupPackage ht hrow hsrc m turn rfl) id
  | removeGroupPackage => exact iff_of_true (accepts_removeGroupPackage ht hrow hsrc m turn rfl) id
  | blockGroupPackage => exact iff_of_true (accepts_blockGroupPackage ht hrow hsrc m turn rfl) id
  | tagBuild => exact accepts_tagBuild_iff ht hrow hsrc m turn hselects hlisted rfl
  | untagBuild => exact iff_of_true (accepts_untagBuild ht hrow hsrc m turn rfl) id

end

/-! ### The calls one after the other -/

namespace Midway

lemma nil (c : Clock) (t : Tables) : Midway c tag.id [] t t :=
  ⟨.refl .., rfl, fun _ => .inl rfl, fun _ ho => nomatch ho⟩

/-- A build that is rejected changes nothing. -/
lemma rejected (m : Midway c tag.id done t t') (nvr : String) :
    Midway c tag.id (done ++ [.tagBuild nvr]) t t' where
  confined := m.confined
  tags := m.tags
  written := fun s => (m.written s).imp_right fun ⟨y, hy, h⟩ => ⟨y, List.mem_append_left _ hy, h⟩
  effective := fun y hy hne => by
    rcases List.mem_append.mp hy with hy | hy
    · exact m.effective y hy hne
    · exact absurd (List.mem_singleton.mp hy) (hne nvr)

/-- A call that is accepted does what the plan intends. -/
lemma accepted (ht : t.Sound) (hrow : t.tag? tag.id = some row) (hsrc : t.Comparable src)
    (m : Midway c tag.id done t t')
    (turn : Operation.Turn (t.planFor tag src selection o).operations done x) {flags : CallFlags}
    {t'' : Tables} (hcall : t'.call c tag flags x = .ok t'') :
    Midway c tag.id (done ++ [x]) t t'' where
  confined := m.confined.trans (confined_of_call hcall)
  tags := (tags_of_call hcall).trans m.tags
  written := fun s => by
    have hown := own_of_call (m.confined.sound ht) hcall s
    rcases hwrite : x.write? s with _ | v
    · rw [hwrite, Option.getD_none] at hown
      rw [hown]
      exact (m.written s).imp_right fun ⟨y, hy, h⟩ => ⟨y, List.mem_append_left _ hy, h⟩
    · rw [hwrite, Option.getD_some] at hown
      exact .inr ⟨x, by simp, by rw [hwrite, hown]⟩
  effective := fun y hy hne s v hv => by
    have hown := own_of_call (m.confined.sound ht) hcall s
    rcases List.mem_append.mp hy with hy | hy
    · have hi := intent_of_mem ht hrow hsrc (turn.done_mem y hy) hv
      rcases hwrite : x.write? s with _ | w
      · rw [hwrite, Option.getD_none] at hown
        rw [hown]
        exact m.effective y hy hne s v hv
      · have hi' := intent_of_mem ht hrow hsrc turn.mem hwrite
        rw [hown, hwrite, Option.getD_some]
        exact Option.some.inj (hi'.symm.trans hi)
    · rw [List.mem_singleton.mp hy] at hv
      rw [hown, hv, Option.getD_some]

end Midway

/-- **Which calls of a plan are rejected** can be told from the tables the plan was made from. -/
theorem callAll_eq_ok_iff (ht : t.Sound) (hrow : t.tag? tag.id = some row)
    (hsrc : t.Comparable src) (hnamed : src.Named)
    (hselects : selection.builds = true → selection.packages = true)
    (hlisted : (Wish.ofSnapshot src o).Listed) {flags : CallFlags}
    (unlocked : (tag.isLocked && !flags.force) = false) {h : Hub} {rest : List Operation}
    (hplan : (t.planFor tag src selection o).operations = done ++ rest)
    (m : Midway h.clock tag.id done t h.tables) :
    ∀ p ∈ rest.zip (h.callAll tag flags rest).1,
      p.2 = .ok () ↔ ¬ t.Refuses tag.id flags.force p.1 := by
  have hordered : (t.planFor tag src selection o).operations.Pairwise Operation.MayPrecede :=
    Diff.pairwise_operations hnamed (named_snapshot ..)
  induction rest generalizing done h with
  | nil => exact fun p hp => nomatch hp
  | cons x rest ih =>
    have turn := Operation.turn_of_pairwise hordered hplan
    have hrow' : h.tables.tag? tag.id = some row := by rw [tag?, m.tags]; exact hrow
    have hiff := (exists_call_iff (c := h.clock) (m.confined.sound ht) hrow' unlocked).trans
      (accepts_iff ht hrow hsrc m turn hselects hlisted)
    have hplan' : (t.planFor tag src selection o).operations = (done ++ [x]) ++ rest := by
      rw [hplan, List.append_assoc, List.singleton_append]
    rcases hcall : h.tables.call h.clock tag flags x with fault | t₁
    · have hrefused : t.Refuses tag.id flags.force x := by
        by_contra hnot
        obtain ⟨t₁, ht₁⟩ := hiff.mpr hnot
        rw [hcall] at ht₁
        cases ht₁
      have hbuild : ∃ nvr, x = .tagBuild nvr := by
        cases x with
        | tagBuild nvr => exact ⟨nvr, rfl⟩
        | _ => exact hrefused.elim
      obtain ⟨nvr, rfl⟩ := hbuild
      simp only [Hub.callAll, Hub.callOne_of_error hcall, List.zip_cons_cons, List.forall_mem_cons]
      refine ⟨iff_of_false (by simp) (not_not.mpr hrefused), ?_⟩
      exact ih (h := { h with before := some h.durable }) hplan' (m.rejected nvr)
    · simp only [Hub.callAll, Hub.callOne_of_ok hcall, List.zip_cons_cons, List.forall_mem_cons]
      refine ⟨iff_of_true trivial (hiff.mp ⟨t₁, hcall⟩), ?_⟩
      exact ih (h := { h with tables := t₁ }) hplan' (m.accepted ht hrow hsrc turn hcall)

end Tables

end TagSync
