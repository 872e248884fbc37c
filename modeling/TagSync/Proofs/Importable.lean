import TagSync.Proofs.Faults
import TagSync.Proofs.Taggings

/-!
When a seed can be imported.

The checks of a seed and its import are two walks over the same content: one over names, the other
over rows. Where the checks have passed, all that the import looks up is there, and it fails only
if a transaction is open, if a build or a tag of the seed is there already, or if a tag lists a
parent twice, which the checks let pass. An import that fails leaves the hub as it is.
-/

namespace TagSync

/-! ### What the checks say -/

namespace Seed

variable {s : Seed} {c : SeedContext}

/-- **All that the tags of a seed refer to is there**: among the seed's own content, or in some
tables. -/
structure Resolved (s : Seed) (t : Tables) : Prop where
  parents : ∀ tag ∈ s.tags, ∀ p ∈ tag.parents,
    p.name ∈ s.tags.map SeedTag.name ∨ (t.tagNamed? p.name).isSome
  builds : ∀ tag ∈ s.tags, ∀ nvr ∈ tag.builds, ∃ n, Nvr.parse? nvr = some n ∧
    (n ∈ s.builds.map SeedBuild.nvr ∨ (t.buildNamed? n).isSome)

lemma of_checkParent {tag : String} {p : SeedParent} (h : checkParent s c tag p = .ok ()) :
    p.name ∈ s.tags.map SeedTag.name ∨ c.hasTag p.name = true := by
  unfold checkParent at h
  by_cases hself : p.name = tag
  · rw [if_pos hself] at h
    cases h
  rw [if_neg hself] at h
  by_contra hnone
  rw [not_or] at hnone
  have hlacks : (!(s.tags.any fun t => t.name == p.name) && !c.hasTag p.name) = true := by
    simpa using hnone
  rw [hlacks] at h
  cases h

lemma of_checkTagging (hread : ∀ b ∈ s.builds, Nvr.parse? b.nvr.display = some b.nvr)
    {tag nvr : String} (h : checkTagging s c tag nvr = .ok ()) :
    ∃ n, Nvr.parse? nvr = some n ∧ (n ∈ s.builds.map SeedBuild.nvr ∨ c.hasBuild n = true) := by
  unfold checkTagging at h
  obtain ⟨n, hn, h⟩ := bind_eq_ok.mp h
  have hparsed := Nvr.parse_eq_ok.mp (partOf_eq_ok.mp hn)
  refine ⟨n, hparsed, ?_⟩
  by_contra hnone
  rw [not_or] at hnone
  have hlacks : (!(s.builds.any fun b => b.nvr.display == nvr) && !c.hasBuild n) = true := by
    simp only [Bool.and_eq_true, Bool.not_eq_true', List.any_eq_false, beq_iff_eq]
    refine ⟨fun b hb heq => hnone.1 ?_, by simpa using hnone.2⟩
    rw [← heq, hread b hb] at hparsed
    rw [← Option.some.inj hparsed]
    exact List.mem_map_of_mem hb
  rw [hlacks] at h
  cases h

lemma resolved_of_check {t : Tables} (h : s.check t.seedContext = .ok ()) : s.Resolved t := by
  have htag := fun tag ht => checkTag_eq_ok (of_forM (check_eq_ok h).2.2 tag ht)
  exact ⟨fun tag ht p hp => of_checkParent ((htag tag ht).1 p hp),
    fun tag ht nvr hn => of_checkTagging (fun b hb => readable_of_check h hb)
      ((htag tag ht).2.2.1 nvr hn)⟩

end Seed

namespace Tables

variable {t t' : Tables} {event : EventId} {tag : TagId}

/-! ### Users, builds and tags -/

/-- Users make no difference to anything else. -/
lemma foldl_importUser (l : List SeedUser) (t : Tables) :
    ∃ users userNumbers perms, l.foldl importUser t = { t with users, userNumbers, perms } := by
  let Same := fun t' : Tables =>
    ∃ users userNumbers perms, t' = { t with users, userNumbers, perms }
  have hgrant : ∀ t' user perm, Same t' → Same (t'.grant user perm) := by
    rintro t' user perm ⟨users, userNumbers, perms, rfl⟩
    unfold grant
    split <;> exact ⟨_, _, _, rfl⟩
  refine foldl_keeps (P := Same) ⟨_, _, _, rfl⟩ fun t' u ht => ?_
  unfold importUser ensureUser
  refine foldl_keeps (P := Same) ?_ fun t' perm ht' => hgrant t' _ perm ht'
  obtain ⟨users, userNumbers, perms, rfl⟩ := ht
  split <;> exact ⟨_, _, _, rfl⟩

/-- Why a build cannot be imported, if it cannot. -/
def buildFault? (t : Tables) (b : SeedBuild) : Option Failure :=
  if (t.buildNamed? b.nvr).isSome then some (SeedError.buildExists b.nvr.display).toFailure
  else none

/-- Why a tag cannot be made, if it cannot. -/
def tagFault? (t : Tables) (s : SeedTag) : Option Failure :=
  if (t.tagNamed? s.name).isSome then some (SeedError.tagExists s.name).toFailure else none

def addBuilds (t : Tables) (l : List SeedBuild) : Tables :=
  l.foldl (fun t b => t.addBuild b.nvr b.state b.owner) t

def addTags (event : EventId) (t : Tables) (l : List SeedTag) : Tables :=
  l.foldl (fun t s => (t.addTag s.name s.config event).1) t

/-- A state is written in one way. -/
lemma text_of_parse {text : String} {state : BuildState} (h : BuildState.parse text = .ok state) :
    state.text = text := by
  unfold BuildState.parse BuildState.parse? at h
  split at h
  · rename_i hs
    cases h
    split at hs <;> cases hs <;> rfl
  · cases h

lemma foldlM_importBuild {l : List SeedBuild}
    (states : ∀ b ∈ l, ∃ state, BuildState.parse b.state = .ok state)
    (unique : (l.map SeedBuild.nvr).Nodup) :
    l.foldlM importBuild t = barring (l.findSome? t.buildFault?) (t.addBuilds l) := by
  refine foldlM_insertNew (fun (t : Tables) n => (t.buildNamed? n).isSome = true)
    (fun b hb t => ?_) (fun b t n => ?_) unique
  · obtain ⟨state, hstate⟩ := states b hb
    rw [importBuild, hstate, ← text_of_parse hstate]
    split <;> rfl
  · simp [buildNamed?, addBuild, List.find?_append]

lemma foldlM_importTag (event : EventId) {l : List SeedTag} (unique : (l.map SeedTag.name).Nodup) :
    l.foldlM (importTag event) t = barring (l.findSome? t.tagFault?) (t.addTags event l) := by
  refine foldlM_insertNew (fun (t : Tables) name => (t.tagNamed? name).isSome = true)
    (fun s _ t => rfl) (fun s t name => ?_) unique
  simp [tagNamed?, addTag, List.find?_append]

/-! ### The content of a tag -/

/-- The number of the tag of a name, if there is one. -/
def tagId (t : Tables) (name : String) : TagId := ((t.tagNamed? name).map TagRow.id).getD 0

lemma tagId_eq {name : String} {row : TagRow} (h : t.tagNamed? name = some row) :
    t.tagId name = row.id := by
  rw [tagId, h]
  rfl

/-- The rows of the parents of a tag, in the order of the seed. -/
def parentRows (t : Tables) (tag : TagId) (l : List SeedParent) : List InheritanceRow :=
  l.map fun p => ⟨tag, t.tagId p.name, p.priority⟩

/-- The rows of the builds of a tag, in the order of the seed. -/
def listedRows (t : Tables) (tag : TagId) (builds : List String) : List TaggingRow :=
  builds.map fun nvr => ⟨tag, (t.buildId? nvr).getD 0⟩

/-- No tag inherits from one tag twice. -/
def repeatedParent : Failure :=
  Hub.storageFailure "UNIQUE constraint failed: tag_inheritance.tag_id, tag_inheritance.parent_id"

/-- Why the content of a tag cannot be imported, if it cannot. -/
def contentFault? (s : SeedTag) : Option Failure :=
  if (s.parents.map SeedParent.name).Nodup then none else some repeatedParent

/-- Different names mean different tags. -/
lemma tagId_inj (hids : (t.tags.map TagRow.id).Nodup) {name name' : String}
    (h : (t.tagNamed? name).isSome) (h' : (t.tagNamed? name').isSome) :
    t.tagId name = t.tagId name' ↔ name = name' := by
  obtain ⟨row, hrow⟩ := Option.isSome_iff_exists.mp h
  obtain ⟨row', hrow'⟩ := Option.isSome_iff_exists.mp h'
  refine ⟨fun heq => ?_, fun heq => by rw [heq]⟩
  rw [tagId_eq hrow, tagId_eq hrow'] at heq
  have hname : row.name = name := by simpa using List.find?_some hrow
  have hname' : row'.name = name' := by simpa using List.find?_some hrow'
  have hsame := find?_key hids (List.mem_of_find?_eq_some hrow)
  rw [heq, find?_key hids (List.mem_of_find?_eq_some hrow')] at hsame
  rw [← hname, ← hname', Option.some.inj hsame]

/-- Whether a tag has a parent of a name. -/
def Heir (t : Tables) (tag : TagId) (name : String) : Prop :=
  ∃ r ∈ t.inheritance, r.tag = tag ∧ r.parent = t.tagId name

instance (t : Tables) (tag : TagId) (name : String) : Decidable (t.Heir tag name) :=
  inferInstanceAs (Decidable (∃ r ∈ t.inheritance, r.tag = tag ∧ r.parent = t.tagId name))

def withParents (t : Tables) (tag : TagId) (l : List SeedParent) : Tables :=
  { t with inheritance := t.inheritance ++ t.parentRows tag l }

lemma importParent_eq {p : SeedParent} (there : (t.tagNamed? p.name).isSome) :
    t.importParent tag p =
      barring (if t.Heir tag p.name then some repeatedParent else none)
        (t.withParents tag [p]) := by
  obtain ⟨parent, hparent⟩ := Option.isSome_iff_exists.mp there
  have hany : (t.inheritance.any fun r => r.tag = tag && r.parent = parent.id) =
      decide (t.Heir tag p.name) := by
    rw [Bool.eq_iff_iff]
    simp [Heir, tagId_eq hparent]
  simp only [importParent, hparent, hany, withParents, parentRows, List.map_singleton,
    tagId_eq hparent]
  by_cases htaken : t.Heir tag p.name <;> simp [htaken, barring, repeatedParent]

lemma heir_withParents {p : SeedParent} {name : String} :
    (t.withParents tag [p]).Heir tag name ↔ t.Heir tag name ∨ t.tagId p.name = t.tagId name := by
  simp only [Heir, withParents, parentRows, List.map_singleton, List.mem_append,
    List.mem_singleton, or_and_right, exists_or, exists_eq_left, true_and]
  rfl

/-- Parents that are there can be given to a tag that has none of them, if none comes twice. -/
lemma foldlM_importParent (hids : (t.tags.map TagRow.id).Nodup) {l : List SeedParent}
    (there : ∀ p ∈ l, (t.tagNamed? p.name).isSome) :
    l.foldlM (importParent tag) t =
      barring (if (l.map SeedParent.name).Nodup ∧ ∀ p ∈ l, ¬ t.Heir tag p.name then none
        else some repeatedParent) (t.withParents tag l) := by
  induction l generalizing t with
  | nil => simp [withParents, parentRows, barring, pure, Except.pure]
  | cons p rest ih =>
    rw [List.foldlM_cons, importParent_eq (there p (.head _))]
    by_cases htaken : t.Heir tag p.name
    · rw [if_pos htaken, if_neg fun h => h.2 p (.head _) htaken]
      rfl
    · have hthere : ∀ q ∈ rest, ((t.withParents tag [p]).tagNamed? q.name).isSome :=
        fun q hq => there q (.tail _ hq)
      have hfresh : ∀ q ∈ rest, (¬ (t.withParents tag [p]).Heir tag q.name ↔
          ¬ t.Heir tag q.name ∧ p.name ≠ q.name) := fun q hq => by
        rw [heir_withParents, tagId_inj hids (there p (.head _)) (there q (.tail _ hq)), not_or]
      have hiff : ((rest.map SeedParent.name).Nodup ∧
            ∀ q ∈ rest, ¬ (t.withParents tag [p]).Heir tag q.name) ↔
          ((p :: rest).map SeedParent.name).Nodup ∧ ∀ q ∈ p :: rest, ¬ t.Heir tag q.name := by
        have hnew : p.name ∉ rest.map SeedParent.name ↔ ∀ q ∈ rest, p.name ≠ q.name := by
          simp [eq_comm]
        rw [forall₂_congr hfresh, List.map_cons, List.nodup_cons, List.forall_mem_cons, hnew]
        simp only [forall₂_and]
        tauto
      have hwith : (t.withParents tag [p]).withParents tag rest =
          t.withParents tag (p :: rest) := by
        rw [withParents, withParents, withParents, List.append_assoc]
        rfl
      rw [if_neg htaken]
      refine (ih (t := t.withParents tag [p]) hids hthere).trans ?_
      rw [hwith]
      simp only [hiff]

lemma importTagging_eq {nvr : String} {id : Int} (h : t.buildId? nvr = some id) :
    t.importTagging event tag nvr =
      .ok { t with taggings := t.taggings.add event ⟨tag, id⟩ } := by
  obtain ⟨b, hb, rfl⟩ := Option.map_eq_some_iff.mp h
  obtain ⟨n, hn, hfound⟩ := Option.bind_eq_some_iff.mp hb
  simp only [importTagging, Nvr.parse_eq_ok.mpr hn, bind, Except.bind, hfound]
  rfl

lemma foldlM_importTagging {builds : List String}
    (there : ∀ nvr ∈ builds, (t.buildId? nvr).isSome) :
    builds.foldlM (importTagging event tag) t =
      .ok { t with taggings := t.taggings.addAll event (t.listedRows tag builds) } := by
  induction builds generalizing t with
  | nil => simp [listedRows, pure, Except.pure]
  | cons nvr rest ih =>
    obtain ⟨id, hid⟩ := Option.isSome_iff_exists.mp (there nvr (.head _))
    let t₁ : Tables := { t with taggings := t.taggings.add event ⟨tag, id⟩ }
    rw [List.foldlM_cons, importTagging_eq hid]
    refine (ih (t := t₁) fun x hx => there x (.tail _ hx)).trans ?_
    rw [listedRows, listedRows, List.map_cons, hid, ← List.singleton_append,
      ← History.addAll_addAll]
    rfl

/-- All that a tag of a seed declares is added to the tag of its name. -/
def withContent (event : EventId) (t : Tables) (s : SeedTag) : Tables :=
  let tag := t.tagId s.name
  { t.withParents tag s.parents with
    packages := t.packages.addAll event (s.packageRows tag)
    taggings := t.taggings.addAll event (t.listedRows tag s.builds)
    groups := t.groups.addAll event (s.groupRows tag)
    members := t.members.addAll event (s.memberRows tag) }

/-- **Tables with tags that are still to be filled** from a seed: all that it refers to is there,
and none of the tags has parents yet. -/
structure Fillable (l : List SeedTag) (t : Tables) : Prop where
  ids : (t.tags.map TagRow.id).Nodup
  unique : (l.map SeedTag.name).Nodup
  there : ∀ s ∈ l, (t.tagNamed? s.name).isSome
  bare : ∀ s ∈ l, ∀ r ∈ t.inheritance, r.tag ≠ t.tagId s.name
  parents : ∀ s ∈ l, ∀ p ∈ s.parents, (t.tagNamed? p.name).isSome
  builds : ∀ s ∈ l, ∀ nvr ∈ s.builds, (t.buildId? nvr).isSome

namespace Fillable

variable {s : SeedTag} {rest l : List SeedTag}

lemma importContent_eq (h : t.Fillable (s :: rest)) :
    t.importContent event s = barring (contentFault? s) (t.withContent event s) := by
  obtain ⟨row, hrow⟩ := Option.isSome_iff_exists.mp (h.there s (.head _))
  have hid := tagId_eq hrow
  have hfresh : ∀ p ∈ s.parents, ¬ t.Heir row.id p.name := fun p _ ⟨r, hr, htag, _⟩ =>
    h.bare s (.head _) r hr (htag.trans hid.symm)
  have hparents : s.parents.foldlM (importParent row.id) t =
      barring (contentFault? s) (t.withParents row.id s.parents) := by
    rw [foldlM_importParent h.ids (h.parents s (.head _)), contentFault?]
    simp only [and_iff_left (a := (s.parents.map SeedParent.name).Nodup) hfresh]
  have hthere : ∀ nvr ∈ s.builds,
      ((s.packages.foldl (importPackage event row.id) (t.withParents row.id s.parents)).buildId?
        nvr).isSome := by
    rw [foldl_importPackage]
    exact h.builds s (.head _)
  simp only [importContent, hrow, hparents]
  rcases contentFault? s with _ | e
  · simp only [barring, bind, Except.bind, foldlM_importTagging hthere]
    rw [foldl_importPackage, History.foldl_add, foldl_importGroup, History.foldl_add,
      foldl_members, Tables.withContent, hid]
    rfl
  · rfl

lemma withContent (h : t.Fillable (s :: rest)) : (t.withContent event s).Fillable rest where
  ids := h.ids
  unique := (List.nodup_cons.mp h.unique).2
  there := fun x hx => h.there x (.tail _ hx)
  bare := by
    intro x hx r hr
    rcases List.mem_append.mp hr with hr | hr
    · exact h.bare x (.tail _ hx) r hr
    · -- the new rows are about another tag
      obtain ⟨p, -, rfl⟩ := List.mem_map.mp hr
      intro heq
      have hname := (tagId_inj h.ids (h.there s (.head _)) (h.there x (.tail _ hx))).mp heq
      exact (List.nodup_cons.mp h.unique).1 (hname ▸ List.mem_map_of_mem hx)
  parents := fun x hx => h.parents x (.tail _ hx)
  builds := fun x hx => h.builds x (.tail _ hx)

end Fillable

/-- The tags are filled one after the other. -/
lemma foldlM_importContent {l : List SeedTag} (h : t.Fillable l) :
    l.foldlM (importContent event) t =
      barring (l.findSome? contentFault?) (l.foldl (withContent event) t) :=
  foldlM_eq_barring (I := Fillable) (fun _ _ _ h => h.importContent_eq)
    (fun _ _ _ h _ => h.withContent) h

/-! ### Whole imports -/

lemma addBuilds_eq (l : List SeedBuild) (t : Tables) :
    ∃ new, t.addBuilds l = { t with builds := t.builds ++ new } ∧
      new.map (fun r => (r.nvr, r.state, r.owner)) = l.map fun b => (b.nvr, b.state, b.owner) := by
  induction l generalizing t with
  | nil => exact ⟨[], by simp [addBuilds], rfl⟩
  | cons b rest ih =>
    obtain ⟨new, hnew, hrows⟩ := ih (t.addBuild b.nvr b.state b.owner)
    refine ⟨⟨t.builds.length + 1, b.nvr, b.state, b.owner⟩ :: new, hnew.trans ?_, ?_⟩
    · rw [List.append_cons]
      rfl
    · rw [List.map_cons, List.map_cons, hrows]

lemma addTags_eq (event : EventId) (l : List SeedTag) (t : Tables) :
    ∃ new, t.addTags event l = { t with tags := t.tags ++ new } ∧
      new.map (fun r => (r.name, r.config, r.created)) =
        l.map fun s => (s.name, s.config, event) := by
  induction l generalizing t with
  | nil => exact ⟨[], by simp [addTags], rfl⟩
  | cons s rest ih =>
    obtain ⟨new, hnew, hrows⟩ := ih (t.addTag s.name s.config event).1
    refine ⟨⟨t.tags.length + 1, s.name, event, s.config⟩ :: new, hnew.trans ?_, ?_⟩
    · rw [List.append_cons]
      rfl
    · rw [List.map_cons, List.map_cons, hrows]

/-- The tables with the users, the builds and the tags of a seed, the tags still empty. -/
def prepared (c : Clock) (s : Seed) (t : Tables) : Tables :=
  ((s.users.foldl importUser (t.newEvent c).1).addBuilds s.builds).addTags (t.newEvent c).2 s.tags

/-- The tables with all content of a seed. -/
def seeded (c : Clock) (s : Seed) (t : Tables) : Tables :=
  s.tags.foldl (withContent (t.newEvent c).2) (t.prepared c s)

lemma prepared_eq (c : Clock) (s : Seed) (t : Tables) :
    ∃ users userNumbers perms builds tags,
      t.prepared c s = { (t.newEvent c).1 with
        users, userNumbers, perms, builds := t.builds ++ builds, tags := t.tags ++ tags } ∧
      builds.map (fun r => (r.nvr, r.state, r.owner)) =
        s.builds.map (fun b => (b.nvr, b.state, b.owner)) ∧
      tags.map (fun r => (r.name, r.config, r.created)) =
        s.tags.map fun tag => (tag.name, tag.config, (t.newEvent c).2) := by
  obtain ⟨users, userNumbers, perms, husers⟩ := foldl_importUser s.users (t.newEvent c).1
  obtain ⟨builds, hbuilds, hnvrs⟩ :=
    addBuilds_eq s.builds { (t.newEvent c).1 with users, userNumbers, perms }
  obtain ⟨tags, htags, hnames⟩ := addTags_eq (t.newEvent c).2 s.tags
    { (t.newEvent c).1 with users, userNumbers, perms, builds := t.builds ++ builds }
  refine ⟨users, userNumbers, perms, builds, tags, ?_, hnvrs, hnames⟩
  rw [prepared, husers, hbuilds]
  exact htags

/-- Tags of the seed are there, and those that were there before. -/
lemma isSome_tagNamed?_prepared {c : Clock} {s : Seed} {name : String}
    (h : name ∈ s.tags.map SeedTag.name ∨ (t.tagNamed? name).isSome) :
    ((t.prepared c s).tagNamed? name).isSome := by
  obtain ⟨users, userNumbers, perms, builds, tags, heq, -, htags⟩ := prepared_eq c s t
  have hnames : tags.map TagRow.name = s.tags.map SeedTag.name := by
    simpa [List.map_map, Function.comp_def] using congrArg (List.map fun x => x.1) htags
  rw [tagNamed?, heq, List.find?_append, Option.isSome_or, ← tagNamed?, Bool.or_eq_true]
  refine h.symm.imp_right fun hmem => ?_
  obtain ⟨row, hrow, rfl⟩ := List.mem_map.mp (hnames ▸ hmem)
  exact List.find?_isSome.mpr ⟨row, hrow, by simp⟩

/-- Builds of the seed are there, and those that were there before. -/
lemma isSome_buildNamed?_prepared {c : Clock} {s : Seed} {n : Nvr}
    (h : n ∈ s.builds.map SeedBuild.nvr ∨ (t.buildNamed? n).isSome) :
    ((t.prepared c s).buildNamed? n).isSome := by
  obtain ⟨users, userNumbers, perms, builds, tags, heq, hbuilds, -⟩ := prepared_eq c s t
  have hnvrs : builds.map BuildRow.nvr = s.builds.map SeedBuild.nvr := by
    simpa [List.map_map, Function.comp_def] using congrArg (List.map fun x => x.1) hbuilds
  rw [buildNamed?, heq, List.find?_append, Option.isSome_or, ← buildNamed?, Bool.or_eq_true]
  refine h.symm.imp_right fun hmem => ?_
  obtain ⟨row, hrow, rfl⟩ := List.mem_map.mp (hnvrs ▸ hmem)
  exact List.find?_isSome.mpr ⟨row, hrow, by simp⟩

/-- Why a seed cannot be imported that passed its checks, if it cannot. -/
def seedFault? (t : Tables) (s : Seed) : Option Failure :=
  (s.builds.findSome? t.buildFault?).or
    ((s.tags.findSome? t.tagFault?).or (s.tags.findSome? contentFault?))

section

variable {c : Clock} {s : Seed} {context : SeedContext} (ht : t.Sound)
  (checked : s.check context = .ok ()) (resolved : s.Resolved t)

include checked

/-- The stages of an import that can fail before the tags are filled. -/
lemma foldlM_prepared :
    s.builds.foldlM importBuild (s.users.foldl importUser (t.newEvent c).1) =
        barring (s.builds.findSome? t.buildFault?)
          ((s.users.foldl importUser (t.newEvent c).1).addBuilds s.builds) ∧
      s.tags.foldlM (importTag (t.newEvent c).2)
          ((s.users.foldl importUser (t.newEvent c).1).addBuilds s.builds) =
        barring (s.tags.findSome? t.tagFault?) (t.prepared c s) := by
  have hbuilds := foldlM_importBuild (t := s.users.foldl importUser (t.newEvent c).1)
    (fun b hb => Seed.states_of_check checked hb) (Seed.nodup_nvrs_of_check checked)
  have htags := foldlM_importTag (t.newEvent c).2
    (t := (s.users.foldl importUser (t.newEvent c).1).addBuilds s.builds)
    (Seed.distinct_of_check checked).1
  have hsame : (s.users.foldl importUser (t.newEvent c).1).buildFault? = t.buildFault? ∧
      ((s.users.foldl importUser (t.newEvent c).1).addBuilds s.builds).tagFault? =
        t.tagFault? := by
    obtain ⟨users, userNumbers, perms, husers⟩ := foldl_importUser s.users (t.newEvent c).1
    obtain ⟨builds, hadd, -⟩ :=
      addBuilds_eq s.builds { (t.newEvent c).1 with users, userNumbers, perms }
    rw [husers, hadd]
    exact ⟨rfl, rfl⟩
  rw [hsame.1] at hbuilds
  rw [hsame.2] at htags
  exact ⟨hbuilds, htags⟩

include ht resolved

/-- Where no build and no tag was there before, the new tags can be filled. -/
lemma fillable_prepared (hbuilds : s.builds.findSome? t.buildFault? = none)
    (htags : s.tags.findSome? t.tagFault? = none) : (t.prepared c s).Fillable s.tags := by
  obtain ⟨hbuilt, hmade⟩ := foldlM_prepared (t := t) (c := c) checked
  rw [hbuilds] at hbuilt
  rw [htags] at hmade
  have hevent : (t.newEvent c).1.Sound := (Confined.newEvent c 0 t).sound ht
  have hids := (importing_tags hevent checked hbuilt hmade).sound.tagIds
  obtain ⟨users, userNumbers, perms, builds, tags, heq, -, -⟩ := prepared_eq c s t
  have hown : ∀ tag ∈ s.tags, ((t.prepared c s).tagNamed? tag.name).isSome := fun tag htag =>
    isSome_tagNamed?_prepared (.inl (List.mem_map_of_mem htag))
  refine ⟨hids.nodup, (Seed.distinct_of_check checked).1, hown, fun tag htag r hr heir => ?_,
    fun tag htag p hp => isSome_tagNamed?_prepared (resolved.parents tag htag p hp),
    fun tag htag nvr hnvr => ?_⟩
  · -- parents were only given to tags that were there before
    obtain ⟨row, hrow⟩ := Option.isSome_iff_exists.mp (hown tag htag)
    have hnone : t.tagNamed? tag.name = none := by
      simpa [tagFault?] using List.findSome?_eq_none_iff.mp htags tag htag
    have hadded : (t.prepared c s).tags = t.tags ++ tags := by rw [heq]
    have hlt := (lt_of_tagNamed? hadded hids hnone hrow).1
    rw [heq] at hr
    have hle := (ht.heirs r hr).1
    rw [heir, tagId_eq hrow] at hle
    exact absurd hlt (Int.not_lt.mpr hle)
  · obtain ⟨n, hn, hthere⟩ := resolved.builds tag htag nvr hnvr
    simpa [buildId?, hn] using isSome_buildNamed?_prepared (c := c) hthere

/-- **What an import of a checked seed comes to**: the first fault, or all content of the seed. -/
theorem importSeed_eq : t.importSeed c s = barring (t.seedFault? s)
    (t.seeded c s,
      ⟨s.digest, (t.newEvent c).2, s.users.length, s.builds.length, s.tags.length⟩) := by
  obtain ⟨hbuilt, hmade⟩ := foldlM_prepared (t := t) (c := c) checked
  simp only [importSeed, bind, Except.bind, hbuilt, seedFault?]
  rcases hbuilds : s.builds.findSome? t.buildFault? with _ | e
  · simp only [barring_none, hmade, Option.none_or]
    rcases htags : s.tags.findSome? t.tagFault? with _ | e
    · have hfill := fillable_prepared (c := c) ht checked resolved hbuilds htags
      simp only [barring_none, foldlM_importContent hfill, Option.none_or]
      rcases s.tags.findSome? contentFault? with _ | e <;> rfl
    · rfl
  · rfl

end

end Tables

namespace Hub

variable {h : Hub} {s : Seed}

/-- What a seed must meet beside its checks to be imported. -/
structure Importable (h : Hub) (s : Seed) : Prop where
  closed : h.before = none
  builds : ∀ b ∈ s.builds, h.tables.buildNamed? b.nvr = none
  tags : ∀ tag ∈ s.tags, h.tables.tagNamed? tag.name = none
  parents : ∀ tag ∈ s.tags, (tag.parents.map SeedParent.name).Nodup

/-- Where no transaction is open, an import of a checked seed comes to what it does to the
tables. -/
lemma importSeed_eq (hr : h.Reachable) {context : SeedContext} (checked : s.check context = .ok ())
    (resolved : s.Resolved h.tables) (closed : h.before = none) :
    h.importSeed s = match h.tables.seedFault? s with
      | some e => (.error e, h)
      | none => (.ok ⟨s.digest, h.tables.events.length + 1, s.users.length, s.builds.length,
          s.tags.length⟩, { h with tables := h.tables.seeded h.clock s }) := by
  have hopen : ¬ h.before.isSome = true := by simp [closed]
  rw [importSeed, transact, if_neg hopen, Tables.importSeed_eq hr.sound checked resolved]
  rcases h.tables.seedFault? s with _ | e <;> rfl

/-- The tables have no fault to find with a seed just if it can be imported. -/
lemma seedFault?_eq_none_iff (closed : h.before = none) :
    h.tables.seedFault? s = none ↔ h.Importable s := by
  have hfaults : h.tables.seedFault? s = none ↔
      (∀ b ∈ s.builds, h.tables.buildNamed? b.nvr = none) ∧
        (∀ tag ∈ s.tags, h.tables.tagNamed? tag.name = none) ∧
        ∀ tag ∈ s.tags, (tag.parents.map SeedParent.name).Nodup := by
    simp [Tables.seedFault?, Tables.buildFault?, Tables.tagFault?, Tables.contentFault?]
  rw [hfaults]
  exact ⟨fun ⟨hbuilds, htags, hparents⟩ => ⟨closed, hbuilds, htags, hparents⟩,
    fun ⟨_, hbuilds, htags, hparents⟩ => ⟨hbuilds, htags, hparents⟩⟩

/-- Where the builds and the tags are new, a repeated parent is the only fault. -/
lemma seedFault?_eq_repeatedParent (hbuilds : ∀ b ∈ s.builds, h.tables.buildNamed? b.nvr = none)
    (htags : ∀ tag ∈ s.tags, h.tables.tagNamed? tag.name = none) {e : Failure}
    (hfault : h.tables.seedFault? s = some e) : e = Tables.repeatedParent := by
  have hbuilt : s.builds.findSome? h.tables.buildFault? = none := by
    simpa [Tables.buildFault?] using hbuilds
  have hmade : s.tags.findSome? h.tables.tagFault? = none := by
    simpa [Tables.tagFault?] using htags
  rw [Tables.seedFault?, hbuilt, hmade] at hfault
  obtain ⟨tag, -, htag⟩ := List.exists_of_findSome?_eq_some hfault
  unfold Tables.contentFault? at htag
  split at htag <;> cases htag
  rfl

lemma parseSeed_eq_ok {yaml : String} (parsed : h.parseSeed yaml = .ok s) :
    s.check h.tables.seedContext = .ok () := by
  unfold parseSeed Seed.parse at parsed
  split at parsed
  · cases parsed
  · rename_i s' hs'
    rcases hcheck : s'.check h.tables.seedContext with e | u
    · rw [hcheck] at parsed
      cases parsed
    · rw [hcheck] at parsed
      cases parsed
      exact hcheck

/-- **When a seed that was accepted can be imported**: if no transaction is open, its builds and
tags are new, and no tag lists a parent twice; a repeated parent is all that is left over for the
storage to refuse. Whatever is imported, an import that fails leaves the hub as it is. -/
theorem importable_iff (hr : h.Reachable) :
    (∀ s, s.check h.tables.seedContext = .ok () →
      ((∃ summary, (h.importSeed s).1 = .ok summary) ↔ h.Importable s) ∧
      (h.before = none → (∀ b ∈ s.builds, h.tables.buildNamed? b.nvr = none) →
        (∀ tag ∈ s.tags, h.tables.tagNamed? tag.name = none) → ¬ h.Importable s →
          (h.importSeed s).1 = .error Tables.repeatedParent)) ∧
    (∀ yaml s, h.parseSeed yaml = .ok s →
      s.check h.tables.seedContext = .ok () ∧ h.importYaml yaml = h.importSeed s) ∧
    (∀ s e, (h.importSeed s).1 = .error e → (h.importSeed s).2 = h) ∧
    ∀ yaml e, (h.importYaml yaml).1 = .error e → (h.importYaml yaml).2 = h := by
  have hunchanged : ∀ s e, (h.importSeed s).1 = .error e → (h.importSeed s).2 = h :=
    fun s e failed => transact_of_error failed
  refine ⟨fun s checked => ?_, fun yaml s parsed => ?_, hunchanged, fun yaml e failed => ?_⟩
  · have hresult := fun closed =>
      importSeed_eq hr checked (Seed.resolved_of_check checked) closed
    refine ⟨⟨fun ⟨summary, done⟩ => ?_, fun himp => ?_⟩, fun closed hbuilds htags hnot => ?_⟩
    · obtain ⟨closed, -⟩ := transact_of_ok done
      rw [← seedFault?_eq_none_iff closed]
      rw [hresult closed] at done
      rcases hfault : h.tables.seedFault? s with _ | e
      · rfl
      · rw [hfault] at done
        cases done
    · rw [hresult himp.closed, (seedFault?_eq_none_iff himp.closed).mpr himp]
      exact ⟨_, rfl⟩
    · obtain ⟨e, hfault⟩ := Option.ne_none_iff_exists'.mp
        fun hnone => hnot ((seedFault?_eq_none_iff closed).mp hnone)
      rw [hresult closed, hfault, seedFault?_eq_repeatedParent hbuilds htags hfault]
  · refine ⟨parseSeed_eq_ok parsed, ?_⟩
    rw [importYaml, parsed]
  · rcases hparsed : h.parseSeed yaml with e' | s
    · rw [importYaml, hparsed]
    · rw [importYaml, hparsed] at failed ⊢
      exact hunchanged s e failed

/-! ### Tags below one that is there -/

/-- A tag that others inherit from. -/
def rooted : Seed :=
  { schemaVersion := 0, users := [⟨"u", ["admin"]⟩], tags := [{ name := "p" }] }

def rootedHub : Hub := (({ user := "u" } : Hub).importSeed rooted).2

/-- A tag that lists some parents. -/
def grafted (parents : List SeedParent) : Seed :=
  { schemaVersion := 0, tags := [{ name := "d", parents }] }

/-- A parent that is there can be listed once, but not twice, with whatever priorities. -/
theorem importable_iff_rooted :
    (∃ summary, (rootedHub.importSeed (grafted [{ name := "p" }])).1 = .ok summary) ∧
      (rootedHub.importSeed (grafted [{ name := "p" }, { name := "p", priority := 1 }])).1 =
        .error Tables.repeatedParent ∧
      (rootedHub.importSeed (grafted [{ name := "p" }, { name := "p", priority := 1 }])).2 =
        rootedHub := by
  have checked : rooted.check .empty = .ok () := rfl
  have hr : rootedHub.Reachable := .importSeed checked (.start "u" _)
  obtain ⟨haccepted, -, hunchanged, -⟩ := importable_iff hr
  have honce := haccepted (grafted [{ name := "p" }]) rfl
  have htwice := haccepted (grafted [{ name := "p" }, { name := "p", priority := 1 }]) rfl
  have hrefused := htwice.2 rfl nofun (by decide +kernel)
    fun himp => absurd himp.parents (by decide)
  exact ⟨honce.1.mpr ⟨rfl, nofun, by decide +kernel, by decide⟩, hrefused,
    hunchanged _ _ hrefused⟩

end Hub

end TagSync
