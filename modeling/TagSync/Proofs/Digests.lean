import Mathlib.Data.List.Forall2
import Mathlib.Data.List.Perm.Basic
import TagSync.Proofs.Brought
import TagSync.Proofs.Sorted
import TagSync.Proofs.Spelling
import TagSync.Seed.Digest

/-!
What the text under the digest of a seed tells.

Two seeds have one canonical text just when one is the other in another order. That the text of a
seed does not depend on the order is due to the checks: every list is sorted by names of which none
comes twice, or by all of its content. That it tells everything else is due to JSON, whose texts
read back.
-/

namespace TagSync

/-! ### Seeds in another order -/

/-- A list in another order; the elements may have changed, too, as long as each one is related to
what became of it. -/
def ReorderedBy {α : Type} (R : α → α → Prop) (l l' : List α) : Prop :=
  ∃ m, l.Perm m ∧ List.Forall₂ R m l'

@[mk_iff]
structure SeedUser.Reordered (u v : SeedUser) : Prop where
  name : u.name = v.name
  perms : u.perms.Perm v.perms

@[mk_iff]
structure SeedGroup.Reordered (g k : SeedGroup) : Prop where
  name : g.name = k.name
  blocked : g.blocked = k.blocked
  members : g.members.Perm k.members

/-- The builds of a tag keep their order, which tells which one is the newest. -/
@[mk_iff]
structure SeedTag.Reordered (t u : SeedTag) : Prop where
  name : t.name = u.name
  config : t.config = u.config
  parents : t.parents.Perm u.parents
  packages : t.packages.Perm u.packages
  builds : t.builds = u.builds
  groups : ReorderedBy SeedGroup.Reordered t.groups u.groups

@[mk_iff]
structure Seed.Reordered (s r : Seed) : Prop where
  schemaVersion : s.schemaVersion = r.schemaVersion
  users : ReorderedBy SeedUser.Reordered s.users r.users
  builds : s.builds.Perm r.builds
  tags : ReorderedBy SeedTag.Reordered s.tags r.tags

/-! ### Sorted lists -/

section Sorting

variable {α β : Type} {l l' : List α}

/-- Lists that have different elements at every place of the order are sorted alike just when they
have the same elements. -/
lemma sort_eq_sort_iff {le : α → α → Bool} (total : ∀ a b, le a b = true ∨ le b a = true)
    (trans : ∀ a b c, le a b = true → le b c = true → le a c = true)
    (antisymm : ∀ a ∈ l, ∀ b ∈ l, le a b = true → le b a = true → a = b) :
    sort le l = sort le l' ↔ l.Perm l' := by
  constructor
  · intro h
    exact (perm_sort le l).symm.trans (h ▸ perm_sort le l')
  · intro h
    refine List.Perm.eq_of_pairwise (fun a b ha hb => ?_) (pairwise_sort total trans l)
      (pairwise_sort total trans l') ((perm_sort le l).trans (h.trans (perm_sort le l').symm))
    exact antisymm a (mem_sort.mp ha) b (h.mem_iff.mpr (mem_sort.mp hb))

lemma sortBy_eq_sortBy_iff {name : α → String}
    (antisymm : ∀ a ∈ l, ∀ b ∈ l, name a = name b → a = b) :
    sortBy name l = sortBy name l' ↔ l.Perm l' := by
  refine sort_eq_sort_iff (fun a b => ?_) (fun a b c hab hbc => ?_) fun a ha b hb hab hba => ?_
  · simpa only [decide_eq_true_eq] using String.le_total (name a) (name b)
  · exact decide_eq_true (String.le_trans (of_decide_eq_true hab) (of_decide_eq_true hbc))
  · exact antisymm a ha b hb (String.le_antisymm (of_decide_eq_true hab) (of_decide_eq_true hba))

/-- What keeps the names does not change the order. -/
lemma map_sortBy {name : α → String} {name' : β → String} {f : α → β}
    (named : ∀ a, name' (f a) = name a) (l : List α) :
    (sortBy name l).map f = sortBy name' (l.map f) := by
  have hinsert : ∀ a l, (insertSorted (fun a b => decide (name a ≤ name b)) a l).map f =
      insertSorted (fun a b => decide (name' a ≤ name' b)) (f a) (l.map f) := by
    intro a l
    induction l with
    | nil => rfl
    | cons b rest ih =>
      simp only [insertSorted, List.map_cons, named, decide_eq_true_eq]
      split
      · rfl
      · rw [List.map_cons, ih]
  induction l with
  | nil => rfl
  | cons a rest ih =>
    simp only [sortBy, sort, List.foldr_cons, List.map_cons] at ih ⊢
    rw [hinsert, ih]

/-- Lists have the same elements, up to what `f` forgets, just when one is the other in another
order. -/
lemma perm_map_iff_reorderedBy {R : α → α → Prop} {f : α → β}
    (hf : ∀ a ∈ l, ∀ b ∈ l', f a = f b ↔ R a b) :
    (l.map f).Perm (l'.map f) ↔ ReorderedBy R l l' := by
  constructor
  · intro h
    have hsame : List.Forall₂ (fun c a => c = f a) (l.map f) l :=
      List.forall₂_map_left_iff.mpr (List.forall₂_same.mpr fun _ _ => rfl)
    obtain ⟨m, hm, hperm⟩ := List.perm_comp_forall₂ h.symm hsame
    refine ⟨m, hperm.symm, ?_⟩
    obtain ⟨hlength, hzip⟩ := List.forall₂_iff_zip.mp (List.forall₂_map_left_iff.mp hm).flip
    refine List.forall₂_iff_zip.mpr ⟨hlength, fun {a b} hab => ?_⟩
    obtain ⟨ha, hb⟩ := List.of_mem_zip hab
    exact (hf a (hperm.mem_iff.mp ha) b hb).mp (hzip hab).symm
  · rintro ⟨m, hperm, hm⟩
    obtain ⟨hlength, hzip⟩ := List.forall₂_iff_zip.mp hm
    have hmap : m.map f = l'.map f := by
      rw [← List.forall₂_eq_eq_eq, List.forall₂_map_left_iff, List.forall₂_map_right_iff]
      refine List.forall₂_iff_zip.mpr ⟨hlength, fun {a b} hab => ?_⟩
      obtain ⟨ha, hb⟩ := List.of_mem_zip hab
      exact (hf a (hperm.mem_iff.mpr ha) b hb).mpr (hzip hab)
    exact hmap ▸ hperm.map f

/-- Sorting the elements of a list, and the list by their names, leaves nothing but their order
out. -/
lemma map_sortBy_eq_iff {name : α → String} {R : α → α → Prop} {f : α → α}
    (named : ∀ a, name (f a) = name a) (unique : (l.map name).Nodup)
    (hf : ∀ a ∈ l, ∀ b ∈ l', f a = f b ↔ R a b) :
    (sortBy name l).map f = (sortBy name l').map f ↔ ReorderedBy R l l' := by
  have hnames : ((l.map f).map name).Nodup := by
    rwa [List.map_map, show name ∘ f = name from funext named]
  rw [map_sortBy named, map_sortBy named,
    sortBy_eq_sortBy_iff fun a ha b hb => List.inj_on_of_nodup_map hnames ha hb,
    perm_map_iff_reorderedBy hf]

end Sorting

/-! ### Sorted seeds -/

namespace SeedBuild

/-- The comparison under the order of builds. -/
def cmp : SeedBuild → SeedBuild → Ordering :=
  compareLex (compareOn package) (compareLex (compareOn version) (compareOn release))

instance : Std.TransCmp cmp :=
  inferInstanceAs (Std.TransCmp
    (compareLex (compareOn package) (compareLex (compareOn version) (compareOn release))))

lemma le_eq_isLE_cmp (a b : SeedBuild) : a.le b = (cmp a b).isLE := rfl

lemma le_total (a b : SeedBuild) : a.le b = true ∨ b.le a = true := by
  have hswap : cmp b a = (cmp a b).swap := Std.OrientedCmp.eq_swap
  rw [le_eq_isLE_cmp, le_eq_isLE_cmp, hswap]
  cases cmp a b <;> simp

lemma le_trans (a b d : SeedBuild) (hab : a.le b = true) (hbd : b.le d = true) :
    a.le d = true := by
  rw [le_eq_isLE_cmp] at hab hbd ⊢
  exact Std.TransCmp.isLE_trans hab hbd

/-- Builds of one place in the order have one name. -/
lemma nvr_eq_of_le {a b : SeedBuild} (hab : a.le b = true) (hba : b.le a = true) :
    a.nvr = b.nvr := by
  have heq : cmp a b = .eq := Std.OrientedCmp.isLE_antisymm hab hba
  obtain ⟨hpackage, hversion, hrelease⟩ : compare a.package b.package = .eq ∧
      compare a.version b.version = .eq ∧ compare a.release b.release = .eq := by
    simpa only [cmp, compareLex, compareOn, Ordering.then_eq_eq] using heq
  rw [nvr, nvr, Std.LawfulEqCmp.eq_of_compare hpackage, Std.LawfulEqCmp.eq_of_compare hversion,
    Std.LawfulEqCmp.eq_of_compare hrelease]

end SeedBuild

theorem SeedUser.canonical_eq_iff {u v : SeedUser} :
    u.canonical = v.canonical ↔ u.Reordered v := by
  have hperms : sortBy id u.perms = sortBy id v.perms ↔ u.perms.Perm v.perms :=
    sortBy_eq_sortBy_iff fun _ _ _ _ h => h
  rw [canonical, canonical, mk.injEq, hperms, reordered_iff]

theorem SeedGroup.canonical_eq_iff {g k : SeedGroup}
    (unique : (g.members.map SeedMember.name).Nodup) :
    g.canonical = k.canonical ↔ g.Reordered k := by
  rw [canonical, canonical, mk.injEq,
    sortBy_eq_sortBy_iff fun a ha b hb => List.inj_on_of_nodup_map unique ha hb, reordered_iff]

theorem SeedTag.canonical_eq_iff {t u : SeedTag} (parents : (t.parents.map SeedParent.name).Nodup)
    (distinct : t.Distinct) : t.canonical = u.canonical ↔ t.Reordered u := by
  have hgroups : (sortBy SeedGroup.name t.groups).map SeedGroup.canonical =
      (sortBy SeedGroup.name u.groups).map SeedGroup.canonical ↔
        ReorderedBy SeedGroup.Reordered t.groups u.groups :=
    map_sortBy_eq_iff (fun _ => rfl) distinct.groups fun g hg _ _ =>
      SeedGroup.canonical_eq_iff (distinct.members g hg)
  rw [canonical, canonical, mk.injEq, hgroups,
    sortBy_eq_sortBy_iff fun a ha b hb => List.inj_on_of_nodup_map parents ha hb,
    sortBy_eq_sortBy_iff fun a ha b hb => List.inj_on_of_nodup_map distinct.packages ha hb,
    reordered_iff]

/-- **Two seeds are sorted alike just when one is the other in another order.** Only one of them
has to be checked, since no other names come in by another order. -/
theorem Seed.canonical_eq_iff {s r : Seed} {c : SeedContext} (checked : s.check c = .ok ())
    (parents : ∀ tag ∈ s.tags, (tag.parents.map SeedParent.name).Nodup) :
    s.canonical = r.canonical ↔ s.Reordered r := by
  obtain ⟨hunique, hdistinct⟩ := distinct_of_check checked
  have husers : (sortBy SeedUser.name s.users).map SeedUser.canonical =
      (sortBy SeedUser.name r.users).map SeedUser.canonical ↔
        ReorderedBy SeedUser.Reordered s.users r.users :=
    map_sortBy_eq_iff (fun _ => rfl) (nodup_users_of_check checked) fun _ _ _ _ =>
      SeedUser.canonical_eq_iff
  have hbuilds : sort SeedBuild.le s.builds = sort SeedBuild.le r.builds ↔
      s.builds.Perm r.builds :=
    sort_eq_sort_iff SeedBuild.le_total SeedBuild.le_trans fun a ha b hb hab hba =>
      List.inj_on_of_nodup_map (nodup_nvrs_of_check checked) ha hb
        (SeedBuild.nvr_eq_of_le hab hba)
  have htags : (sortBy SeedTag.name s.tags).map SeedTag.canonical =
      (sortBy SeedTag.name r.tags).map SeedTag.canonical ↔
        ReorderedBy SeedTag.Reordered s.tags r.tags :=
    map_sortBy_eq_iff (fun _ => rfl) hunique fun tag htag _ _ =>
      SeedTag.canonical_eq_iff (parents tag htag) (hdistinct tag htag)
  rw [canonical, canonical, mk.injEq, husers, hbuilds, htags, reordered_iff]

/-! ### Seeds in JSON -/

open Json

lemma Json.ofOptionString_injective : Function.Injective ofOptionString := by
  rintro (_ | a) (_ | b) h <;> simp_all [ofOptionString, ofOption]

/-- The array of the texts of a list tells the list. -/
lemma Json.array_map_inj {α : Type} {f : α → Json} (hf : Function.Injective f) {l l' : List α} :
    array (l.map f) = array (l'.map f) ↔ l = l' := by
  rw [array.injEq, (List.map_injective_iff.mpr hf).eq_iff]

lemma Json.exactElements_map {α : Type} {f : α → Json} (hf : ∀ a, exact (f a) = true)
    (l : List α) : exactElements (l.map f) = true := by
  refine exactElements_iff.mpr fun j hj => ?_
  obtain ⟨a, -, rfl⟩ := List.mem_map.mp hj
  exact hf a

lemma Json.string_injective : Function.Injective Json.string := fun _ _ h => string.inj h

lemma SeedUser.toJson_injective : Function.Injective SeedUser.toJson := by
  rintro ⟨name, perms⟩ ⟨name', perms'⟩ h
  simpa [toJson, array_map_inj string_injective] using h

lemma SeedBuild.toJson_injective : Function.Injective SeedBuild.toJson := by
  rintro ⟨package, version, release, state, owner⟩ ⟨package', version', release', state', owner'⟩ h
  simpa [toJson] using h

lemma SeedParent.toJson_injective : Function.Injective SeedParent.toJson := by
  rintro ⟨name, priority⟩ ⟨name', priority'⟩ h
  simpa [toJson] using h

lemma SeedPackage.toJson_injective : Function.Injective SeedPackage.toJson := by
  rintro ⟨name, owner, blocked, arches⟩ ⟨name', owner', blocked', arches'⟩ h
  simpa [toJson, ofOptionString_injective.eq_iff] using h

lemma SeedMember.toJson_injective : Function.Injective SeedMember.toJson := by
  rintro ⟨name, blocked⟩ ⟨name', blocked'⟩ h
  simpa [toJson] using h

lemma SeedGroup.toJson_injective : Function.Injective SeedGroup.toJson := by
  rintro ⟨name, blocked, members⟩ ⟨name', blocked', members'⟩ h
  simpa [toJson, array_map_inj SeedMember.toJson_injective] using h

lemma SeedTag.toJson_injective : Function.Injective SeedTag.toJson := by
  rintro ⟨name, ⟨arches, locked, perm, support, all⟩, parents, packages, builds, groups⟩
    ⟨name', ⟨arches', locked', perm', support', all'⟩, parents', packages', builds', groups'⟩ h
  simpa [toJson, TagConfig.jsonFields, ofOptionString_injective.eq_iff,
    array_map_inj SeedParent.toJson_injective, array_map_inj SeedPackage.toJson_injective,
    array_map_inj string_injective, array_map_inj SeedGroup.toJson_injective, and_assoc] using h

/-- **The JSON of a seed shows every field.** -/
theorem Seed.toJson_injective : Function.Injective Seed.toJson := by
  rintro ⟨version, users, builds, tags⟩ ⟨version', users', builds', tags'⟩ h
  simpa [toJson, Int.ofNat_inj, array_map_inj SeedUser.toJson_injective,
    array_map_inj SeedBuild.toJson_injective, array_map_inj SeedTag.toJson_injective] using h

lemma SeedUser.exact_toJson (u : SeedUser) : exact u.toJson = true := by
  have hperms := exactElements_map (f := .string) (fun _ => rfl) u.perms
  simp only [toJson, exact, exactFields, hperms, Bool.and_self]

lemma SeedPackage.exact_toJson (p : SeedPackage) : exact p.toJson = true := by
  simp only [toJson, exact, exactFields, exact_ofOptionString, Bool.and_self]

lemma SeedGroup.exact_toJson (g : SeedGroup) : exact g.toJson = true := by
  have hmembers := exactElements_map (f := SeedMember.toJson) (fun _ => rfl) g.members
  simp only [toJson, exact, exactFields, hmembers, Bool.and_self]

lemma SeedTag.exact_toJson (t : SeedTag) : exact t.toJson = true := by
  have hparents := exactElements_map (f := SeedParent.toJson) (fun _ => rfl) t.parents
  have hpackages := exactElements_map SeedPackage.exact_toJson t.packages
  have hbuilds := exactElements_map (f := .string) (fun _ => rfl) t.builds
  have hgroups := exactElements_map SeedGroup.exact_toJson t.groups
  simp only [toJson, TagConfig.jsonFields, List.cons_append, List.nil_append, exact, exactFields,
    exact_ofOptionString, hparents, hpackages, hbuilds, hgroups, Bool.and_self]

lemma Seed.exact_toJson (s : Seed) : exact s.toJson = true := by
  have husers := exactElements_map SeedUser.exact_toJson s.users
  have hbuilds := exactElements_map (f := SeedBuild.toJson) (fun _ => rfl) s.builds
  have htags := exactElements_map SeedTag.exact_toJson s.tags
  simp only [toJson, exact, exactFields, husers, hbuilds, htags, Bool.and_self]

/-! ### The text under the digest -/

namespace Seed

/-- The canonical texts of two seeds are one just when the sorted seeds are. -/
lemma canonicalText_inj {s r : Seed} :
    s.canonicalText = r.canonicalText ↔ s.canonical = r.canonical := by
  constructor
  · intro h
    exact toJson_injective (render_injective (exact_toJson _) (exact_toJson _) h)
  · intro h
    rw [canonicalText, h, canonicalText]

/-- **The text under the digest of a seed tells everything but the order.** A checked seed that
names no parent of a tag twice has the text of those seeds that are the same in another order, and
of no others. -/
theorem canonicalText_eq_iff {s r : Seed} {c : SeedContext} (checked : s.check c = .ok ())
    (parents : ∀ tag ∈ s.tags, (tag.parents.map SeedParent.name).Nodup) :
    s.canonicalText = r.canonicalText ↔ s.Reordered r :=
  canonicalText_inj.trans (canonical_eq_iff checked parents)

/-- A tag with all that is sorted by name, and builds that stay in their order. -/
def worked : SeedTag where
  name := "f40-build"
  parents := [⟨"f40", 0⟩, ⟨"base", 1⟩]
  packages := [⟨"bash", "alice", false, none⟩, ⟨"make", "bob", true, some "i686"⟩]
  builds := ["bash-5.1-1", "bash-5.2-1"]
  groups := [⟨"srpm", true, []⟩, ⟨"build", false, [⟨"make", true⟩, ⟨"bash", false⟩]⟩]

def shuffledTag : SeedTag :=
  { worked with
    parents := worked.parents.reverse
    packages := worked.packages.reverse
    groups := [⟨"build", false, [⟨"bash", false⟩, ⟨"make", true⟩]⟩, ⟨"srpm", true, []⟩] }

def tidy : Seed where
  schemaVersion := 0
  users := [⟨"alice", ["tag", "admin"]⟩, ⟨"bob", []⟩]
  builds := [⟨"bash", "5.2", "1", "COMPLETE", "alice"⟩, ⟨"bash", "5.1", "1", "COMPLETE", "bob"⟩]
  tags := [⟨"f40", {}, [], [], [], []⟩, ⟨"base", {}, [], [], [], []⟩, worked]

/-- The same seed with every list in another order, but for the builds of a tag. -/
def shuffled : Seed :=
  { tidy with
    users := [⟨"bob", []⟩, ⟨"alice", ["admin", "tag"]⟩]
    builds := tidy.builds.reverse
    tags := [shuffledTag, ⟨"base", {}, [], [], [], []⟩, ⟨"f40", {}, [], [], [], []⟩] }

/-- The seed with another build as the newest one of a tag. -/
def retagged : Seed :=
  { tidy with
    tags := [{ worked with builds := worked.builds.reverse }, ⟨"base", {}, [], [], [], []⟩,
      ⟨"f40", {}, [], [], [], []⟩] }

/-- Seeds in another order have one text; another order of the builds of a tag has another one. -/
theorem canonicalText_eq_iff_shuffled :
    tidy.check .empty = .ok () ∧
      (∀ tag ∈ tidy.tags, (tag.parents.map SeedParent.name).Nodup) ∧
      tidy.canonicalText = shuffled.canonicalText ∧
      tidy.canonicalText ≠ retagged.canonicalText := by
  have hparents : ∀ tag ∈ tidy.tags, (tag.parents.map SeedParent.name).Nodup := by decide
  have hchecked : tidy.check .empty = .ok () := rfl
  have hgroups : ReorderedBy SeedGroup.Reordered worked.groups shuffledTag.groups :=
    ⟨worked.groups.reverse, by decide,
      .cons ⟨rfl, rfl, by decide⟩ (.cons ⟨rfl, rfl, .refl _⟩ .nil)⟩
  have htag : worked.Reordered shuffledTag :=
    ⟨rfl, rfl, by decide, by decide, rfl, hgroups⟩
  have hself : ∀ name, SeedTag.Reordered ⟨name, {}, [], [], [], []⟩ ⟨name, {}, [], [], [], []⟩ :=
    fun _ => ⟨rfl, rfl, .refl _, .refl _, rfl, [], .refl _, .nil⟩
  refine ⟨hchecked, hparents, (canonicalText_eq_iff hchecked hparents).mpr ?_, fun h => ?_⟩
  · refine ⟨rfl, ⟨tidy.users.reverse, by decide, ?_⟩, by decide, tidy.tags.reverse, by decide, ?_⟩
    · exact .cons ⟨rfl, .refl _⟩ (.cons ⟨rfl, by decide⟩ .nil)
    · exact .cons htag (.cons (hself _) (.cons (hself _) .nil))
  · obtain ⟨-, -, -, m, hperm, hm⟩ := (canonicalText_eq_iff hchecked hparents).mp h
    obtain ⟨tag, rest, htag, -, rfl⟩ := List.forall₂_cons_right_iff.mp hm
    -- no tag of the seed has these builds in this order
    have hnone : ∀ tag ∈ tidy.tags, tag.builds ≠ worked.builds.reverse := by decide
    exact hnone tag (hperm.mem_iff.mpr (.head _)) htag.builds

/-- A digest does not depend on the order either. -/
theorem digest_eq_of_reordered {s r : Seed} {c : SeedContext} (checked : s.check c = .ok ())
    (parents : ∀ tag ∈ s.tags, (tag.parents.map SeedParent.name).Nodup) (h : s.Reordered r) :
    s.digest = r.digest := by
  rw [digest, canonicalText_inj.mpr ((canonical_eq_iff checked parents).mpr h), digest]

end Seed

end TagSync
