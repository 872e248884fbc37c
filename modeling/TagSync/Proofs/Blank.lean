import TagSync.Proofs.Grounded
import TagSync.Proofs.Settling
import TagSync.Proofs.Verdicts

/-!
Plans for a tag that has just been made.

Such a tag holds nothing and inherits nothing. A plan writes there what the source asks for, in
every place; nothing is in its way, and nothing comes to light.
-/

namespace TagSync

/-! ### Layers without records -/

/-- The records of a tag that has none, and nothing above it. -/
def Layers.blank : Layers := ⟨fun _ => none, fun _ => none⟩

namespace Layers

lemma sees_blank (s : Slot) : blank.sees s = none := rfl

/-- Where there is nothing, nothing comes to light. -/
theorem not_uncovered_blank {writes : Slot → Option Bool → Prop} {builds delete : Bool} :
    ¬ blank.Uncovered writes builds delete := by
  intro h
  cases h with
  | hidden tags blocked => cases blocked
  | listed lists held => cases held
  | group removes above => cases above
  | member removes keeps above => cases above
  | restored adds leaves stays => cases stays

end Layers

namespace Wish

variable {selection : ClassSelection}

/-- What a source asks for, place by place. -/
def record (w : Wish) : Slot → Option Bool
  | .package name => w.package name
  | .build n => if w.build n then some false else none
  | .group name => if w.group name then some false else none
  | .member group package => if w.group group && w.member group package then some false else none

/-- A build is shown where it is recorded, for its package is listed. -/
lemma shows_record {w : Wish} (hw : w.Listed) (n : Nvr) :
    (Layers.mk w.record fun _ => none).shows n = w.build n := by
  rcases hbuild : w.build n with _ | _
  · simp [Layers.shows, record, hbuild]
  · simp [Layers.shows, Layers.sees, record, hbuild, hw n hbuild]

lemma taggable_blank (w : Wish) (delete : Bool) : w.Taggable selection delete .blank :=
  fun _ _ => rfl

/-- **A blank tag is given what the source asks for**, and nothing else. -/
theorem after_blank (w : Wish) (delete : Bool) :
    w.after .all delete .blank = ⟨w.record, fun _ => none⟩ := by
  refine congrArg (Layers.mk · fun _ => none) (funext fun s => ?_)
  have hshows : ∀ n, Layers.blank.shows n = false := fun n => rfl
  have hown : ∀ s, Layers.blank.own s = none := fun s => rfl
  cases s with
  | package name =>
    simp only [write?, ClassSelection.all, if_true, Layers.sees_blank, hown, record]
    rcases w.package name with _ | blocked <;> rfl
  | build n =>
    simp only [write?, ClassSelection.all, if_true, hshows, hown, record]
    rcases w.build n with _ | _ <;> rfl
  | group name =>
    simp only [write?, ClassSelection.all, if_true, Layers.adjust, Layers.sees_blank, hown, record]
    rcases w.group name with _ | _ <;> rfl
  | member group package =>
    simp only [write?, ClassSelection.all, if_true, Layers.adjust, Layers.sees_blank, hown, record]
    rcases w.group group with _ | _ <;> rcases w.member group package with _ | _ <;> rfl

/-- A second plan finds nothing left to do. -/
theorem write?_after_blank {w : Wish} (hw : w.Listed) (delete : Bool) (s : Slot) :
    w.write? .all delete (w.after .all delete .blank) s = none := by
  by_contra hs
  exact Layers.not_uncovered_blank
    ((exists_write?_after_iff (w.taggable_blank delete) hw fun _ => rfl).mp ⟨s, hs⟩)

end Wish

/-! ### Tags without records -/

lemma History.All.current_eq_none {α : Type} {p : α → Prop} {q : α → Bool} {h : History α}
    (hp : h.All p) (hq : ∀ a, p a → q a = false) : h.current q = none := by
  rw [current, List.find?_eq_none]
  intro a ha
  rw [hq a (hp.of_mem_active ha)]
  exact Bool.false_ne_true

namespace Tables

variable {t t' : Tables} {tag : TagInfo} {row : TagRow} {src : Snapshot} {o : DiffOptions}
  {flags : CallFlags} {c : Clock} {x : Operation}

/-- **A tag to come holds nothing**, and nothing is above it. -/
theorem layers_new (ht : t.Sound) (hg : t.Grounded) : t.layers (t.tags.length + 1) = .blank := by
  have hne : ∀ id : TagId, id ≤ t.tags.length → decide (id = t.tags.length + 1) = false :=
    fun id hid => decide_eq_false (Int.ne_of_lt (Int.lt_add_one_of_le hid))
  have hown : t.own (t.tags.length + 1) = fun _ => none := by
    funext s
    cases s with
    | package name =>
      rw [own, hg.packages.current_eq_none fun r hr => by rw [hne _ hr, Bool.false_and]]
      rfl
    | build n =>
      have htagged : ∀ id, t.isTagged (t.tags.length + 1) id = false := fun id => by
        rw [isTagged, History.hasActive_eq,
          hg.taggings.current_eq_none fun r hr => by rw [hne _ hr.1, Bool.false_and]]
        rfl
      have hholds : t.holdsBuild (t.tags.length + 1) n = false := by
        rw [holdsBuild]
        rcases t.buildNamed? n with _ | b
        · rfl
        · exact htagged b.id
      rw [own, hholds]
      rfl
    | group name =>
      rw [own, hg.groups.current_eq_none fun r hr => by rw [hne _ hr, Bool.false_and]]
      rfl
    | member group package =>
      rw [own, hg.members.current_eq_none fun r hr => by
        rw [hne _ hr, Bool.false_and, Bool.false_and]]
      rfl
  rw [layers, hown, above_of_parents ht.parents_new]
  rfl

section

variable (hrow : t.tag? tag.id = some row) (blank : t.layers tag.id = .blank)

include blank

lemma sees_of_blank (s : Slot) : t.sees tag.id s = none := by
  rw [← layers_sees, blank]
  rfl

include hrow

/-- A blank tag refuses nothing. -/
theorem not_refuses_of_blank (force : Bool) (x : Operation) : ¬ t.Refuses tag.id force x := by
  intro hrefuses
  cases x with
  | tagBuild nvr =>
    obtain ⟨n, -, hholds | ⟨-, hblocked⟩⟩ := hrefuses
    · have hown : t.own tag.id (.build n) = none := congrFun (congrArg Layers.own blank) (.build n)
      rw [own, hholds] at hown
      cases hown
    · have hseen := (sees_blocked_iff hrow n.name).mpr hblocked
      rw [sees_of_blank blank] at hseen
      cases hseen
  | _ => exact hrefuses

lemma find?_package_of_blank (name : String) :
    (t.snapshot tag none (.destination .all)).packages.find? name = none := by
  have hseen : ((t.snapshot tag none (.destination .all)).packages.find? name).map
      PackageEntry.blocked = t.sees tag.id (.package name) := destination_package hrow rfl name
  rwa [sees_of_blank blank, Option.map_eq_none_iff] at hseen

/-- On a blank tag packages are only added, each as the source lists it. -/
lemma exists_addPackage_of_mem_planFor (hsrc : src.packages.NamedBy PackageEntry.name)
    (hx : x ∈ (t.planFor tag src .all o).operations) (hclass : x.entityClass = .packages) :
    ∃ name e, x = .addPackage name e.owner e.blocked e.extraArches ∧
      src.packages.find? name = some e := by
  have hmem := mem_ofClass hx
  rw [hclass] at hmem
  rcases (Diff.mem_packages hsrc snapshot_packages).mp hmem with
    ⟨name, -, -, -, hseen⟩ | ⟨name, e, hadd, he, -⟩
  · rw [find?_package_of_blank hrow blank] at hseen
    cases hseen
  · exact ⟨name, e, hadd, he⟩

/-- **The packages of a tag that was blank** are recorded as the source lists them. -/
theorem packageRow?_of_carriedOut (ht : t.Sound) (hsrc : src.packages.NamedBy PackageEntry.name)
    (h : t.callEach c tag flags (t.planFor tag src .all o).operations = .ok t') (name : String) :
    t'.packageRow? tag.id name = (src.packages.find? name).map
      fun e => ⟨tag.id, name, e.owner, e.blocked, e.extraArches⟩ := by
  let listed := (src.packages.find? name).map
    fun e => PackageRow.mk tag.id name e.owner e.blocked e.extraArches
  have hnone : t.packageRow? tag.id name = none := by
    have hown : t.own tag.id (.package name) = none :=
      congrFun (congrArg Layers.own blank) (.package name)
    rwa [own_package, Option.map_eq_none_iff] at hown
  have step : ∀ x ∈ (t.planFor tag src .all o).operations, ∀ t₁ t₂ : Tables, t₁.Sound →
      t₁.call c tag flags x = .ok t₂ → t₂.packageRow? tag.id name =
        ((x.lists? tag.id name).map some).getD (t₁.packageRow? tag.id name) := by
    refine fun x hx _ _ _ hcall => packageRow?_of_call hcall fun heq => ?_
    obtain ⟨_, _, hadd, -⟩ := exists_addPackage_of_mem_planFor hrow blank hsrc hx (by rw [heq]; rfl)
    rw [heq] at hadd
    cases hadd
  have agree : ∀ x ∈ (t.planFor tag src .all o).operations, ∀ v,
      (x.lists? tag.id name).map some = some v → listed.map some = some v := by
    intro x hx v hv
    obtain ⟨r, hr, rfl⟩ := Option.map_eq_some_iff.mp hv
    cases x with
    | addPackage package owner blocked arches =>
      obtain ⟨_, e, hadd, he⟩ := exists_addPackage_of_mem_planFor hrow blank hsrc hx rfl
      cases hadd
      obtain ⟨rfl, hr⟩ := Option.ite_none_right_eq_some.mp hr
      simp only [listed, he, Option.map_some, hr]
    | _ => cases hr
  have written : ∀ v, listed.map some = some v →
      ∃ x ∈ (t.planFor tag src .all o).operations, (x.lists? tag.id name).map some = some v := by
    intro v hv
    obtain ⟨r, hr, rfl⟩ := Option.map_eq_some_iff.mp hv
    obtain ⟨e, he, rfl⟩ := Option.map_eq_some_iff.mp hr
    have hadd : .addPackage name e.owner e.blocked e.extraArches ∈
        Diff.packages src (t.snapshot tag none (.destination .all)) o :=
      (Diff.mem_packages hsrc snapshot_packages).mpr
        (.inr ⟨name, e, rfl, he, find?_package_of_blank hrow blank name⟩)
    exact ⟨_, mem_planFor_operations.mpr (.inl ⟨rfl, hadd⟩), by simp [Operation.lists?]⟩
  have hgetD : ∀ r : Option PackageRow, (r.map some).getD none = r := fun r => by cases r <;> rfl
  rw [observe_of_callEach ht h step agree written, hnone]
  exact hgetD listed

end

end Tables

end TagSync
