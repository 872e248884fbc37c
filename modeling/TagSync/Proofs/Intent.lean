import TagSync.Proofs.Calls
import TagSync.Proofs.Order
import TagSync.Proofs.Snapshots
import TagSync.Proofs.Wish

/-!
What a plan is about to write, place by place.

A plan is made from two snapshots. Its calls write what the source asks for, given the records of
the destination and those above it: each call writes nothing else, and for all that is to be
written there is a call.
-/

namespace TagSync

namespace Tables

/-- The records of a tag now. -/
def layers (t : Tables) (d : TagId) : Layers := ⟨t.own d, t.above d⟩

variable {t : Tables} {tag : TagInfo} {row : TagRow} {src : Snapshot} {o : DiffOptions}
  {selection : ClassSelection} {op : Operation} {s : Slot} {v : Option Bool}

lemma layers_sees (d : TagId) (s : Slot) : (t.layers d).sees s = t.sees d s := rfl

lemma layers_shows (d : TagId) (n : Nvr) : (t.layers d).shows n = t.shows d n := by
  have hown : (t.layers d).own (.build n) = if t.holdsBuild d n then some false else none := rfl
  unfold Layers.shows shows
  rw [hown, layers_sees]
  rcases t.holdsBuild d n with _ | _ <;> simp

/-- A snapshot of a source that can be compared with the tags of a hub. -/
structure Comparable (t : Tables) (s : Snapshot) : Prop where
  packages : s.packages.NamedBy PackageEntry.name
  groups : s.groups.NamedBy GroupEntry.name
  builds : ∀ b ∈ s.builds.values, ∃ r ∈ t.builds, b.nvr = r.nvr.display

lemma comparable_snapshot (t : Tables) (tag : TagInfo) (event : Option EventId)
    (scope : FetchScope) : t.Comparable (t.snapshot tag event scope) where
  packages := snapshot_packages
  groups := snapshot_groups
  builds := fun b hb => by
    obtain ⟨-, r, hr, hn, -⟩ := mem_builds_of_mem_snapshot hb
    exact ⟨r, hr, hn⟩

lemma named_snapshot (t : Tables) (tag : TagInfo) (event : Option EventId)
    (scope : FetchScope) : (t.snapshot tag event scope).Named :=
  ⟨snapshot_packages, snapshot_builds, snapshot_groups⟩

/-! ### Packages -/

section

variable (ht : t.Sound) (hrow : t.tag? tag.id = some row) (hsrc : t.Comparable src)

include hrow hsrc

lemma write_of_mem_packages (hsel : selection.packages)
    (h : op ∈ Diff.packages src (t.snapshot tag none (.destination selection)) o)
    (hop : op.write? s = some v) :
    (Wish.ofSnapshot src o).write? selection o.delete (t.layers tag.id) s = some v := by
  rcases (Diff.mem_packages hsrc.packages snapshot_packages).mp h with
    ⟨name, rfl, hdelete, hnone, hseen⟩ | ⟨name, e, rfl, he, hnone⟩
  · obtain ⟨rfl, hv⟩ := Option.ite_none_right_eq_some.mp hop
    rw [destination_package hrow hsel] at hseen
    simpa [Wish.write?, Wish.ofSnapshot, hsel, hnone, layers_sees, hseen, hdelete] using hv
  · obtain ⟨rfl, hv⟩ := Option.ite_none_right_eq_some.mp hop
    have hunseen := destination_package hrow hsel name
    rw [hnone] at hunseen
    simpa [Wish.write?, Wish.ofSnapshot, hsel, he, layers_sees, ← hunseen] using hv

lemma mem_packages_of_write (hsel : selection.packages) {name : String}
    (h : (Wish.ofSnapshot src o).write? selection o.delete (t.layers tag.id) (.package name) =
      some v) :
    ∃ op ∈ Diff.packages src (t.snapshot tag none (.destination selection)) o,
      op.write? (.package name) = some v := by
  have hseen := destination_package hrow hsel name
  simp only [Wish.write?, hsel, if_true, Wish.ofSnapshot, layers_sees, ← hseen] at h
  rcases he : src.packages.find? name with _ | e <;>
    rcases hd : (t.snapshot tag none (.destination selection)).packages.find? name with _ | p
  · simp [he, hd] at h
  · rcases hb : p.blocked with _ | _
    · rcases hdelete : o.delete with _ | _
      · simp [he, hd, hb, hdelete] at h
      · refine ⟨.blockPackage name, (Diff.mem_packages hsrc.packages snapshot_packages).mpr
          (.inl ⟨name, rfl, hdelete, he, by rw [hd, Option.map_some, hb]⟩), ?_⟩
        simpa [Operation.write?, he, hd, hb, hdelete] using h
    · simp [he, hd, hb] at h
  · refine ⟨.addPackage name e.owner e.blocked e.extraArches,
      (Diff.mem_packages hsrc.packages snapshot_packages).mpr (.inr ⟨name, e, rfl, he, hd⟩), ?_⟩
    simpa [Operation.write?, he, hd] using h
  · simp [he, hd] at h

end

/-! ### Builds -/

lemma display_of_parse? (ht : t.Sound) (hsrc : t.Comparable src) {b : BuildEntry}
    (hb : b ∈ src.builds.values) {n : Nvr} (hn : Nvr.parse? b.nvr = some n) :
    b.nvr = n.display := by
  obtain ⟨r, hr, hnvr⟩ := hsrc.builds b hb
  rw [hnvr, ht.readable r hr] at hn
  rw [hnvr, Option.some.inj hn]

lemma exists_parse? (ht : t.Sound) (hsrc : t.Comparable src) {b : BuildEntry}
    (hb : b ∈ src.builds.values) : ∃ n, Nvr.parse? b.nvr = some n := by
  obtain ⟨r, hr, hnvr⟩ := hsrc.builds b hb
  exact ⟨r.nvr, by rw [hnvr]; exact ht.readable r hr⟩

lemma wish_build_iff {n : Nvr} :
    (Wish.ofSnapshot src o).build n ↔
      ∃ w ∈ Diff.wantedBuilds src o, Nvr.parse? w.nvr = some n := by
  simp [Wish.ofSnapshot]

/-- A source only asks for builds whose packages it lists. -/
lemma listed_ofSnapshot (ht : t.Sound) {event : Option EventId} {scope : FetchScope}
    (hscope : scope.builds = true → scope.packages = true) :
    (Wish.ofSnapshot (t.snapshot tag event scope) o).Listed := by
  intro n hn
  obtain ⟨w, hw, hparse⟩ := wish_build_iff.mp hn
  have hmem := Diff.mem_of_mem_wantedBuilds hw
  obtain ⟨hbuilds, r, hr, hnvr, hallowed⟩ := mem_builds_of_mem_snapshot hmem
  have hname : r.nvr = n := by
    rw [hnvr, ht.readable r hr] at hparse
    exact Option.some.inj hparse
  rw [hname, allows, Option.any_eq_true] at hallowed
  obtain ⟨p, hp, hblocked⟩ := hallowed
  have hfind : (t.snapshot tag event scope).packages.find? n.name = _ :=
    snapshot_find?_package (hscope hbuilds) n.name
  rw [hp, Option.map_some] at hfind
  simpa [Wish.ofSnapshot, hfind, PackageEntry.stamp] using hblocked

section

variable (ht : t.Sound) (hrow : t.tag? tag.id = some row) (hsrc : t.Comparable src)

include ht hrow hsrc

lemma write_of_mem_builds (hsel : selection.builds)
    (h : op ∈ Diff.builds src (t.snapshot tag none (.destination selection)) o)
    (hop : op.write? s = some v) :
    (Wish.ofSnapshot src o).write? selection o.delete (t.layers tag.id) s = some v := by
  have hdest := comparable_snapshot t tag none (.destination selection)
  rcases Diff.mem_builds.mp h with ⟨b, hb, rfl, hdelete, -, hunwanted⟩ | ⟨w, hw, rfl, hmissing⟩
  · rcases s with _ | n | _ | _ <;> try cases hop
    obtain ⟨hn, hv⟩ := Option.ite_none_right_eq_some.mp hop
    have hbn := display_of_parse? ht hdest hb hn
    have hwish : (Wish.ofSnapshot src o).build n = false := by
      rw [Bool.eq_false_iff]
      intro hw
      obtain ⟨w, hw, hwn⟩ := wish_build_iff.mp hw
      exact hunwanted w hw
        (by rw [hbn, display_of_parse? ht hsrc (Diff.mem_of_mem_wantedBuilds hw) hwn])
    have hshows : t.shows tag.id n = true := by
      rw [← destination_build hrow ht hsel (by rwa [← hbn]), ← hbn, Keyed.contains_iff]
      exact ⟨b, snapshot_builds.mem_values.mp hb⟩
    simpa [Wish.write?, hsel, hwish, layers_shows, hshows, hdelete] using hv
  · rcases s with _ | n | _ | _ <;> try cases hop
    obtain ⟨hn, hv⟩ := Option.ite_none_right_eq_some.mp hop
    have hwn := display_of_parse? ht hsrc (Diff.mem_of_mem_wantedBuilds hw) hn
    have hwish : (Wish.ofSnapshot src o).build n = true := wish_build_iff.mpr ⟨w, hw, hn⟩
    have hshows : t.shows tag.id n = false := by
      rw [← destination_build hrow ht hsel (by rwa [← hwn]), ← hwn, hmissing]
    simpa [Wish.write?, hsel, hwish, layers_shows, hshows] using hv

lemma mem_builds_of_write (hsel : selection.builds) {n : Nvr}
    (h : (Wish.ofSnapshot src o).write? selection o.delete (t.layers tag.id) (.build n) =
      some v) :
    ∃ op ∈ Diff.builds src (t.snapshot tag none (.destination selection)) o,
      op.write? (.build n) = some v := by
  have hdest := comparable_snapshot t tag none (.destination selection)
  simp only [Wish.write?, hsel, if_true, layers_shows] at h
  rcases hwish : (Wish.ofSnapshot src o).build n with _ | _
  · rcases hshows : t.shows tag.id n with _ | _
    · simp [hwish, hshows] at h
    rcases hdelete : o.delete with _ | _
    · simp [hwish, hdelete] at h
    have hn := ((shows_iff ht hrow).mp hshows).2
    obtain ⟨b, hb⟩ := Keyed.contains_iff.mp
      ((destination_build hrow ht hsel hn).trans hshows)
    have hbn : b.nvr = n.display := snapshot_builds _ _ hb
    have hmem : b ∈ (t.snapshot tag none (.destination selection)).builds.values :=
      snapshot_builds.mem_values.mpr (by rwa [hbn])
    refine ⟨.untagBuild b.nvr, Diff.mem_builds.mpr (.inl ⟨b, hmem, rfl, hdelete,
      destination_build_isDirect hrow hsel hmem, fun w hw hwb => ?_⟩), ?_⟩
    · have : (Wish.ofSnapshot src o).build n = true :=
        wish_build_iff.mpr ⟨w, hw, by rw [hwb, hbn, hn]⟩
      rw [hwish] at this
      cases this
    · simpa [Operation.write?, hbn, hn, hwish, hshows, hdelete] using h
  · rcases hshows : t.shows tag.id n with _ | _
    · obtain ⟨w, hw, hn⟩ := wish_build_iff.mp hwish
      have hwn := display_of_parse? ht hsrc (Diff.mem_of_mem_wantedBuilds hw) hn
      refine ⟨.tagBuild w.nvr, Diff.mem_builds.mpr (.inr ⟨w, hw, rfl, ?_⟩), ?_⟩
      · rw [hwn, destination_build hrow ht hsel (by rwa [← hwn]), hshows]
      · simpa [Operation.write?, hn, hwish, hshows] using h
    · simp [hwish, hshows] at h

end

/-! ### Groups -/

section

variable (hrow : t.tag? tag.id = some row) (hsel : selection.groups) {name : String}
  {a g : GroupEntry}

include hrow hsel

lemma write_of_mem_suppressGroup (hs : Diff.activeGroup? src name = none)
    (hg : Diff.activeGroup? (t.snapshot tag none (.destination selection)) name = some g)
    (h : op ∈ Diff.suppressGroup o g) (hop : op.write? s = some v) :
    (Wish.ofSnapshot src o).write? selection o.delete (t.layers tag.id) s = some v := by
  have hown : (t.layers tag.id).own = t.own tag.id := rfl
  have hname := Diff.activeGroup?_name snapshot_groups hg
  have hseen := (destination_activeGroup?_isSome hrow hsel name).mp (by rw [hg]; rfl)
  have hdirect := destination_group_isDirect hrow hsel hg
  rcases Diff.mem_suppressGroup.mp h with ⟨rfl, hd⟩ | ⟨rfl, hd, hdelete⟩
  · rw [hname] at hop
    obtain ⟨rfl, hv⟩ := Option.ite_none_right_eq_some.mp hop
    simpa [Wish.write?, Wish.ofSnapshot, hsel, hs, Layers.adjust, layers_sees, hseen, hown,
      ← hdirect, hd] using hv
  · have hadjust : (t.layers tag.id).adjust false o.delete (.group name) = some none := by
      simp [Layers.adjust, layers_sees, hseen, hown, ← hdirect, hd, hdelete]
    rw [hname] at hop
    rcases s with _ | _ | name' | ⟨name', package⟩ <;> try cases hop
    · obtain ⟨rfl, hv⟩ := Option.ite_none_right_eq_some.mp hop
      simpa [Wish.write?, Wish.ofSnapshot, hsel, hs, hadjust] using hv
    · obtain ⟨rfl, hv⟩ := Option.ite_none_right_eq_some.mp hop
      simpa [Wish.write?, Wish.ofSnapshot, hsel, hs, hadjust] using hv

lemma write_of_mem_members (hsrc : t.Comparable src) (hs : Diff.activeGroup? src name = some a)
    (hg : Diff.activeGroup? (t.snapshot tag none (.destination selection)) name = some g)
    (h : op ∈ Diff.members a g o) (hop : op.write? s = some v) :
    (Wish.ofSnapshot src o).write? selection o.delete (t.layers tag.id) s = some v := by
  have hown : (t.layers tag.id).own = t.own tag.id := rfl
  have hname := Diff.activeGroup?_name snapshot_groups hg
  have hname' := Diff.activeGroup?_name hsrc.groups hs
  have hseen := (destination_activeGroup?_isSome hrow hsel name).mp (by rw [hg]; rfl)
  rcases Diff.mem_members.mp h with
    ⟨package, m, hm, hblocked, hlacks, hsup⟩ | ⟨package, hhas, hlacks, rfl⟩
  · have hmember := destination_member hrow hsel hg package
    rw [hm, Option.map_some, hblocked] at hmember
    have hdirect := destination_member_isDirect hrow hsel hg hm
    rw [hname] at hsup
    rcases Diff.mem_suppressMember.mp hsup with ⟨rfl, hd⟩ | ⟨rfl, hd, hdelete⟩
    · obtain ⟨rfl, hv⟩ := Option.ite_none_right_eq_some.mp hop
      simpa [Wish.write?, Wish.ofSnapshot, hsel, hs, hlacks, layers_sees, hseen,
        Layers.adjust, ← hmember, hown, ← hdirect, hd] using hv
    · obtain ⟨rfl, hv⟩ := Option.ite_none_right_eq_some.mp hop
      simpa [Wish.write?, Wish.ofSnapshot, hsel, hs, hlacks, layers_sees, hseen,
        Layers.adjust, ← hmember, hown, ← hdirect, hd, hdelete] using hv
  · have hmember : t.sees tag.id (.member name package) ≠ some false := by
      rw [← destination_member hrow hsel hg package]
      intro hactive
      rw [Diff.hasActive_iff.mpr hactive] at hlacks
      cases hlacks
    rw [hname'] at hop
    obtain ⟨rfl, hv⟩ := Option.ite_none_right_eq_some.mp hop
    simpa [Wish.write?, Wish.ofSnapshot, hsel, hs, hhas, layers_sees, hseen, Layers.adjust,
      hmember] using hv

lemma write_of_mem_createGroup (hsrc : t.Comparable src)
    (hs : Diff.activeGroup? src name = some a)
    (hg : Diff.activeGroup? (t.snapshot tag none (.destination selection)) name = none)
    (h : op ∈ Diff.createGroup a) (hop : op.write? s = some v) :
    (Wish.ofSnapshot src o).write? selection o.delete (t.layers tag.id) s = some v := by
  have hname' := Diff.activeGroup?_name hsrc.groups hs
  have hunseen := (destination_activeGroup?_eq_none hrow hsel name).mp hg
  rcases Diff.mem_createGroup.mp h with rfl | ⟨package, hhas, rfl⟩
  · rw [hname'] at hop
    obtain ⟨rfl, hv⟩ := Option.ite_none_right_eq_some.mp hop
    simpa [Wish.write?, Wish.ofSnapshot, hsel, hs, layers_sees, hunseen, Layers.adjust] using hv
  · rw [hname'] at hop
    obtain ⟨rfl, hv⟩ := Option.ite_none_right_eq_some.mp hop
    simpa [Wish.write?, Wish.ofSnapshot, hsel, hs, hhas, layers_sees, hunseen] using hv

lemma write_of_mem_groups (hsrc : t.Comparable src)
    (h : op ∈ Diff.groups src (t.snapshot tag none (.destination selection)) o)
    (hop : op.write? s = some v) :
    (Wish.ofSnapshot src o).write? selection o.delete (t.layers tag.id) s = some v := by
  rcases (Diff.mem_groups hsrc.groups snapshot_groups).mp h with
    ⟨name, g, hs, hg, h⟩ | ⟨name, a, g, hs, hg, h⟩ | ⟨name, a, hs, hg, h⟩
  · exact write_of_mem_suppressGroup hrow hsel hs hg h hop
  · exact write_of_mem_members hrow hsel hsrc hs hg h hop
  · exact write_of_mem_createGroup hrow hsel hsrc hs hg h hop

lemma mem_groups_of_write_group (hsrc : t.Comparable src)
    (h : (Wish.ofSnapshot src o).write? selection o.delete (t.layers tag.id) (.group name) =
      some v) :
    ∃ op ∈ Diff.groups src (t.snapshot tag none (.destination selection)) o,
      op.write? (.group name) = some v := by
  simp only [Wish.write?, hsel, if_true, Layers.adjust_eq_some_iff, layers_sees] at h
  simp only [Diff.mem_groups hsrc.groups snapshot_groups]
  rcases h with ⟨hwish, hunseen, rfl⟩ | ⟨hwish, hseen, hown, hdelete, rfl⟩ |
    ⟨hwish, hseen, hown, rfl⟩
  · obtain ⟨a, hs⟩ := Option.isSome_iff_exists.mp hwish
    have hname' := Diff.activeGroup?_name hsrc.groups hs
    refine ⟨.addGroup a.name, .inr (.inr ⟨name, a, hs, ?_, ?_⟩), ?_⟩
    · exact (destination_activeGroup?_eq_none hrow hsel name).mpr hunseen
    · exact Diff.mem_createGroup.mpr (.inl rfl)
    · simp [Operation.write?, hname']
  · obtain ⟨g, hg⟩ := Option.isSome_iff_exists.mp
      ((destination_activeGroup?_isSome hrow hsel name).mpr hseen)
    have hname := Diff.activeGroup?_name snapshot_groups hg
    have hdirect := (destination_group_isDirect hrow hsel hg).trans hown
    refine ⟨.removeGroup g.name, .inl ⟨name, g, ?_, hg, ?_⟩, ?_⟩
    · simpa using Option.isSome_eq_false_iff.mp hwish
    · exact Diff.mem_suppressGroup.mpr (.inr ⟨rfl, hdirect, hdelete⟩)
    · simp [Operation.write?, hname]
  · obtain ⟨g, hg⟩ := Option.isSome_iff_exists.mp
      ((destination_activeGroup?_isSome hrow hsel name).mpr hseen)
    have hname := Diff.activeGroup?_name snapshot_groups hg
    have hdirect := (destination_group_isDirect hrow hsel hg).trans hown
    refine ⟨.blockGroup g.name, .inl ⟨name, g, ?_, hg, ?_⟩, ?_⟩
    · simpa using Option.isSome_eq_false_iff.mp hwish
    · exact Diff.mem_suppressGroup.mpr (.inl ⟨rfl, hdirect⟩)
    · simp [Operation.write?, hname]

lemma mem_members_of_write (hsrc : t.Comparable src) {package : String}
    (hs : Diff.activeGroup? src name = some a)
    (hg : Diff.activeGroup? (t.snapshot tag none (.destination selection)) name = some g)
    (h : (t.layers tag.id).adjust (a.hasActive package) o.delete (.member name package) =
      some v) :
    ∃ op ∈ Diff.members a g o, op.write? (.member name package) = some v := by
  have hname := Diff.activeGroup?_name snapshot_groups hg
  have hname' := Diff.activeGroup?_name hsrc.groups hs
  have hmember := destination_member hrow hsel hg package
  simp only [Layers.adjust_eq_some_iff, layers_sees, ← hmember] at h
  simp only [Diff.mem_members]
  rcases h with ⟨hhas, hunseen, rfl⟩ | ⟨hlacks, hseen, hown, hdelete, rfl⟩ |
    ⟨hlacks, hseen, hown, rfl⟩
  · refine ⟨.addGroupPackage a.name package, .inr ⟨package, hhas, ?_, rfl⟩, ?_⟩
    · rw [Bool.eq_false_iff]
      exact fun hactive => hunseen (Diff.hasActive_iff.mp hactive)
    · simp [Operation.write?, hname']
  · obtain ⟨m, hm, hblocked⟩ := Option.map_eq_some_iff.mp hseen
    have hdirect := (destination_member_isDirect hrow hsel hg hm).trans hown
    refine ⟨.removeGroupPackage g.name package, .inl ⟨package, m, hm, hblocked, hlacks, ?_⟩, ?_⟩
    · exact Diff.mem_suppressMember.mpr (.inr ⟨rfl, hdirect, hdelete⟩)
    · simp [Operation.write?, hname]
  · obtain ⟨m, hm, hblocked⟩ := Option.map_eq_some_iff.mp hseen
    have hdirect := (destination_member_isDirect hrow hsel hg hm).trans hown
    refine ⟨.blockGroupPackage g.name package, .inl ⟨package, m, hm, hblocked, hlacks, ?_⟩, ?_⟩
    · exact Diff.mem_suppressMember.mpr (.inl ⟨rfl, hdirect⟩)
    · simp [Operation.write?, hname]

lemma mem_groups_of_write_member (hsrc : t.Comparable src) {package : String}
    (h : (Wish.ofSnapshot src o).write? selection o.delete (t.layers tag.id)
      (.member name package) = some v) :
    ∃ op ∈ Diff.groups src (t.snapshot tag none (.destination selection)) o,
      op.write? (.member name package) = some v := by
  simp only [Wish.write?, hsel, if_true, layers_sees, Wish.ofSnapshot] at h
  rcases hs : Diff.activeGroup? src name with _ | a
  · -- the group goes with its members
    simp only [hs, Option.isSome_none, Bool.false_eq_true, if_false] at h
    split at h
    · rename_i hgroup
      cases h
      obtain ⟨op, hop, hwrite⟩ := mem_groups_of_write_group (o := o) hrow hsel hsrc
        (show (Wish.ofSnapshot src o).write? selection o.delete (t.layers tag.id)
          (.group name) = some none by simpa [Wish.write?, hsel, Wish.ofSnapshot, hs] using hgroup)
      refine ⟨op, hop, ?_⟩
      cases op <;> simp_all [Operation.write?]
    · cases h
  · simp only [hs, Option.isSome_some, if_true, Option.any_some] at h
    by_cases hseen : t.sees tag.id (.group name) = some false
    · obtain ⟨g, hg⟩ := Option.isSome_iff_exists.mp
        ((destination_activeGroup?_isSome hrow hsel name).mpr hseen)
      rw [if_pos hseen] at h
      obtain ⟨op, hop, hwrite⟩ := mem_members_of_write hrow hsel hsrc hs hg h
      exact ⟨op, (Diff.mem_groups hsrc.groups snapshot_groups).mpr
        (.inr (.inl ⟨name, a, g, hs, hg, hop⟩)), hwrite⟩
    · rw [if_neg hseen] at h
      split at h
      · rename_i hhas
        cases h
        have hname' := Diff.activeGroup?_name hsrc.groups hs
        refine ⟨.addGroupPackage a.name package,
          (Diff.mem_groups hsrc.groups snapshot_groups).mpr (.inr (.inr ⟨name, a, hs, ?_, ?_⟩)), ?_⟩
        · exact (destination_activeGroup?_eq_none hrow hsel name).mpr hseen
        · exact Diff.mem_createGroup.mpr (.inr ⟨package, hhas, rfl⟩)
        · simp [Operation.write?, hname']
      · cases h

end

/-! ### Whole plans -/

section

variable (ht : t.Sound) (hrow : t.tag? tag.id = some row) (hsrc : t.Comparable src)

/-- The plan that makes a tag see what the source's snapshot shows. -/
def planFor (t : Tables) (tag : TagInfo) (src : Snapshot) (selection : ClassSelection)
    (o : DiffOptions) : Plan :=
  Diff.plan src (t.snapshot tag none (.destination selection)) selection o

/-- What that plan writes in a place. -/
def intent (t : Tables) (tag : TagInfo) (src : Snapshot) (selection : ClassSelection)
    (o : DiffOptions) : Slot → Option (Option Bool) :=
  (Wish.ofSnapshot src o).write? selection o.delete (t.layers tag.id)

lemma mem_planFor_operations :
    op ∈ (t.planFor tag src selection o).operations ↔
      (selection.packages ∧
        op ∈ Diff.packages src (t.snapshot tag none (.destination selection)) o) ∨
      (selection.builds ∧
        op ∈ Diff.builds src (t.snapshot tag none (.destination selection)) o) ∨
      selection.groups ∧
        op ∈ Diff.groups src (t.snapshot tag none (.destination selection)) o := by
  simp only [planFor, Diff.plan, Plan.operations, List.mem_append, List.mem_ite_nil_right,
    or_assoc]

include ht hrow hsrc

/-- **All calls of a plan that write a place agree.** -/
theorem intent_of_mem (h : op ∈ (t.planFor tag src selection o).operations)
    (hop : op.write? s = some v) : t.intent tag src selection o s = some v := by
  rcases mem_planFor_operations.mp h with ⟨hsel, h⟩ | ⟨hsel, h⟩ | ⟨hsel, h⟩
  · exact write_of_mem_packages hrow hsrc hsel h hop
  · exact write_of_mem_builds ht hrow hsrc hsel h hop
  · exact write_of_mem_groups hrow hsel hsrc h hop

/-- **A plan has a call for everything it is to write.** -/
theorem exists_mem_of_intent (h : t.intent tag src selection o s = some v) :
    ∃ op ∈ (t.planFor tag src selection o).operations, op.write? s = some v := by
  simp only [mem_planFor_operations]
  cases s with
  | package name =>
    have hsel : selection.packages = true := by
      by_contra hsel
      simp [intent, Wish.write?, hsel] at h
    obtain ⟨op, hop, hwrite⟩ := mem_packages_of_write hrow hsrc hsel h
    exact ⟨op, .inl ⟨hsel, hop⟩, hwrite⟩
  | build n =>
    have hsel : selection.builds = true := by
      by_contra hsel
      simp [intent, Wish.write?, hsel] at h
    obtain ⟨op, hop, hwrite⟩ := mem_builds_of_write ht hrow hsrc hsel h
    exact ⟨op, .inr (.inl ⟨hsel, hop⟩), hwrite⟩
  | group name =>
    have hsel : selection.groups = true := by
      by_contra hsel
      simp [intent, Wish.write?, hsel] at h
    obtain ⟨op, hop, hwrite⟩ := mem_groups_of_write_group hrow hsel hsrc h
    exact ⟨op, .inr (.inr ⟨hsel, hop⟩), hwrite⟩
  | member group package =>
    have hsel : selection.groups = true := by
      by_contra hsel
      simp [intent, Wish.write?, hsel] at h
    obtain ⟨op, hop, hwrite⟩ := mem_groups_of_write_member hrow hsel hsrc h
    exact ⟨op, .inr (.inr ⟨hsel, hop⟩), hwrite⟩

omit hrow in
/-- Every call of a plan writes something. -/
lemma exists_write_of_mem (h : op ∈ (t.planFor tag src selection o).operations) :
    ∃ s v, op.write? s = some v := by
  have hother : op.entityClass ≠ .builds → ∃ s v, op.write? s = some v := by
    intro hclass
    cases op with
    | addPackage package owner blocked extraArches =>
      exact ⟨.package package, some blocked, if_pos rfl⟩
    | blockPackage package => exact ⟨.package package, some true, if_pos rfl⟩
    | addGroup group => exact ⟨.group group, some false, if_pos rfl⟩
    | removeGroup group => exact ⟨.group group, none, if_pos rfl⟩
    | blockGroup group => exact ⟨.group group, some true, if_pos rfl⟩
    | addGroupPackage group package => exact ⟨.member group package, some false, if_pos rfl⟩
    | removeGroupPackage group package => exact ⟨.member group package, none, if_pos rfl⟩
    | blockGroupPackage group package => exact ⟨.member group package, some true, if_pos rfl⟩
    | tagBuild nvr => exact absurd rfl hclass
    | untagBuild nvr => exact absurd rfl hclass
  rcases mem_planFor_operations.mp h with ⟨-, h⟩ | ⟨-, h⟩ | ⟨-, h⟩
  · exact hother (by rw [Diff.entityClass_of_mem_packages h]; nofun)
  · rcases Diff.mem_builds.mp h with ⟨b, hb, rfl, -⟩ | ⟨w, hw, rfl, -⟩
    · obtain ⟨n, hn⟩ := exists_parse? ht (comparable_snapshot t tag none _) hb
      exact ⟨.build n, none, if_pos hn⟩
    · obtain ⟨n, hn⟩ := exists_parse? ht hsrc (Diff.mem_of_mem_wantedBuilds hw)
      exact ⟨.build n, some false, if_pos hn⟩
  · exact hother (by rw [Diff.entityClass_of_mem_groups h]; nofun)

/-- **A plan has no calls when it is to write nothing.** -/
theorem planFor_operations_eq_nil_iff :
    (t.planFor tag src selection o).operations = [] ↔
      ∀ s, t.intent tag src selection o s = none := by
  constructor
  · intro hnil s
    by_contra hs
    obtain ⟨v, hv⟩ := Option.ne_none_iff_exists'.mp hs
    obtain ⟨op, hop, -⟩ := exists_mem_of_intent ht hrow hsrc hv
    rw [hnil] at hop
    cases hop
  · intro hnone
    rw [List.eq_nil_iff_forall_not_mem]
    intro op hop
    obtain ⟨s, v, hv⟩ := exists_write_of_mem ht hsrc hop
    have := intent_of_mem ht hrow hsrc hop hv
    rw [hnone s] at this
    cases this

/-! ### Plans that are carried out -/

variable {c : Clock} {flags : CallFlags} {t' : Tables}

/-- **A plan whose calls are all accepted does what it intends**, and nothing else. -/
theorem own_of_carriedOut
    (h : t.callEach c tag flags (t.planFor tag src selection o).operations = .ok t') (s : Slot) :
    t'.own tag.id s = (t.intent tag src selection o s).getD (t.own tag.id s) :=
  own_of_callEach ht h (fun _ hop _ => intent_of_mem ht hrow hsrc hop)
    fun _ => exists_mem_of_intent ht hrow hsrc

/-- If all calls are accepted no build is tagged a second time. -/
theorem own_eq_none_of_carriedOut
    (h : t.callEach c tag flags (t.planFor tag src selection o).operations = .ok t') {n : Nvr}
    (hn : t.intent tag src selection o (.build n) = some (some false)) :
    t.own tag.id (.build n) = none := by
  obtain ⟨op, hop, hwrite⟩ := exists_mem_of_intent ht hrow hsrc hn
  have hop' : ∃ nvr, op = .tagBuild nvr ∧ Nvr.parse? nvr = some n := by
    cases op <;> simp_all [Operation.write?]
  obtain ⟨nvr, rfl, hparse⟩ := hop'
  refine own_eq_none_of_callEach ht h hparse hop fun op' hop' v hv => ?_
  have := intent_of_mem ht hrow hsrc hop' hv
  rw [hn] at this
  exact (Option.some.inj this).symm

end

end Tables

end TagSync
