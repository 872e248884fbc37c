import Mathlib.Logic.Relation
import TagSync.Proofs.Imports

/-!
An import, write by write.

An import only adds rows. The content it adds belongs to tags that it makes itself, and all of it
bears the stamp of the import.
-/

namespace TagSync.Tables

/-- One write of an import into tables that had `n` tags at its start. -/
inductive Write (n : Nat) (event : EventId) (t : Tables) : Tables → Prop where
  | users (users : List UserRow) (userNumbers : Int) (perms : List PermRow) :
    Write n event t { t with users, userNumbers, perms }
  | build (nvr : Nvr) (state owner : String) : Write n event t (t.addBuild nvr state owner)
  | tag (name : String) (config : TagConfig) : Write n event t (t.addTag name config event).1
  | parent (r : InheritanceRow) (new : (n : Int) < r.tag) :
    Write n event t { t with inheritance := t.inheritance ++ [r] }
  | package (r : PackageRow) (new : (n : Int) < r.tag) (there : r.tag ≤ t.tags.length) :
    Write n event t { t with packages := t.packages.add event r }
  | tagging (r : TaggingRow) (new : (n : Int) < r.tag) (there : r.tag ≤ t.tags.length)
      (built : r.build ≤ t.builds.length) :
    Write n event t { t with taggings := t.taggings.add event r }
  | group (r : GroupRow) (new : (n : Int) < r.tag) (there : r.tag ≤ t.tags.length) :
    Write n event t { t with groups := t.groups.add event r }
  | member (r : MemberRow) (new : (n : Int) < r.tag) (there : r.tag ≤ t.tags.length) :
    Write n event t { t with members := t.members.add event r }

/-- Some writes of an import, one after the other. -/
abbrev Writes (n : Nat) (event : EventId) : Tables → Tables → Prop :=
  Relation.ReflTransGen (Write n event)

variable {n : Nat} {event : EventId} {t t' : Tables}

/-! ### Users, builds and tags -/

/-- Writes that leave the tags as they are. -/
def Passes (n : Nat) (event : EventId) (t t' : Tables) : Prop :=
  Writes n event t t' ∧ t'.tags = t.tags

lemma Passes.trans {t'' : Tables} (h : Passes n event t t') (h' : Passes n event t' t'') :
    Passes n event t t'' := ⟨h.1.trans h'.1, h'.2.trans h.2⟩

lemma passes_grant (t : Tables) (user : Int) (perm : String) :
    Passes n event t (t.grant user perm) := by
  unfold grant
  split
  · exact ⟨.refl, rfl⟩
  · exact ⟨.single (.users ..), rfl⟩

lemma passes_importUser (t : Tables) (u : SeedUser) : Passes n event t (t.importUser u) := by
  unfold importUser ensureUser
  refine foldl_keeps ?_ fun t' perm ht => ht.trans (passes_grant t' _ perm)
  split <;> exact ⟨.single (.users ..), rfl⟩

lemma passes_importBuild {b : SeedBuild} (h : t.importBuild b = .ok t') : Passes n event t t' := by
  obtain ⟨-, s, -, rfl⟩ := importBuild_eq_ok h
  exact ⟨.single (.build ..), rfl⟩

/-- The tags of a seed are all new. -/
lemma writes_importTags {l : List SeedTag} (h : l.foldlM (importTag event) t = .ok t') :
    Writes n event t t' ∧ (∃ new, t'.tags = t.tags ++ new) ∧
      ∀ s ∈ l, t.tagNamed? s.name = none := by
  induction l generalizing t with
  | nil =>
    cases h
    exact ⟨.refl, ⟨[], (List.append_nil _).symm⟩, fun _ hs => nomatch hs⟩
  | cons s rest ih =>
    simp only [List.foldlM_cons, bind, Except.bind] at h
    rcases hs : t.importTag event s with e | t₁
    · rw [hs] at h
      cases h
    rw [hs] at h
    obtain ⟨hnone, rfl⟩ := importTag_eq_ok hs
    obtain ⟨hwrites, ⟨new, hnew⟩, hrest⟩ := ih h
    refine ⟨.head (.tag ..) hwrites, ⟨_, hnew.trans (List.append_assoc ..)⟩, fun s' hs' => ?_⟩
    rcases List.mem_cons.mp hs' with rfl | hs'
    · exact hnone
    · have := hrest s' hs'
      rw [tagNamed?, addTag, List.find?_append, Option.or_eq_none_iff] at this
      exact this.1

/-! ### The content of a tag -/

/-- Writes that leave tags and builds as they are. -/
structure Fills (n : Nat) (event : EventId) (t t' : Tables) : Prop where
  writes : Writes n event t t'
  tags : t'.tags = t.tags
  builds : t'.builds = t.builds

namespace Fills

lemma refl (t : Tables) : Fills n event t t := ⟨.refl, rfl, rfl⟩

lemma single (h : Write n event t t') (tags : t'.tags = t.tags) (builds : t'.builds = t.builds) :
    Fills n event t t' := ⟨.single h, tags, builds⟩

lemma trans {t'' : Tables} (h : Fills n event t t') (h' : Fills n event t' t'') :
    Fills n event t t'' :=
  ⟨h.writes.trans h'.writes, h'.tags.trans h.tags, h'.builds.trans h.builds⟩

end Fills

section

variable {tag : TagId} (new : (n : Int) < tag) (there : tag ≤ t.tags.length)

include new

lemma fills_importParent {p : SeedParent} (h : t.importParent tag p = .ok t') :
    Fills n event t t' := by
  obtain ⟨parent, -, rfl⟩ := importParent_eq_ok h
  exact .single (.parent _ new) rfl rfl

include there

lemma fills_importPackage (p : SeedPackage) : Fills n event t (t.importPackage event tag p) :=
  .single (.package _ new there) rfl rfl

lemma fills_importTagging (hids : Numbered (t.builds.map BuildRow.id)) {nvr : String}
    (h : t.importTagging event tag nvr = .ok t') : Fills n event t t' := by
  obtain ⟨v, b, hb, rfl⟩ := importTagging_eq_ok h
  have hmem : b.id ∈ t.builds.map BuildRow.id :=
    List.mem_map_of_mem (List.mem_of_find?_eq_some hb)
  have hbuilt := (hids.mem_iff.mp hmem).2
  rw [List.length_map] at hbuilt
  exact .single (.tagging ⟨tag, b.id⟩ new there hbuilt) rfl rfl

lemma fills_importGroup (g : SeedGroup) : Fills n event t (t.importGroup event tag g) := by
  have hgroup : Fills n event t { t with groups := t.groups.add event ⟨tag, g.name, g.blocked⟩ } :=
    .single (.group _ new there) rfl rfl
  exact foldl_keeps (P := fun l => Fills n event t { t with
      groups := t.groups.add event ⟨tag, g.name, g.blocked⟩, members := l }) hgroup
    fun l m hl => hl.trans (.single (.member ⟨tag, g.name, m.name, m.blocked⟩ new there) rfl rfl)

end

lemma fills_importContent (hids : Numbered (t.builds.map BuildRow.id)) {s : SeedTag}
    (new : ∀ row, t.tagNamed? s.name = some row → (n : Int) < row.id ∧ row.id ≤ t.tags.length)
    (h : t.importContent event s = .ok t') : Fills n event t t' := by
  obtain ⟨row, t₁, t₂, hrow, hparents, htaggings, rfl⟩ := importContent_eq_ok h
  obtain ⟨hnew, hthere⟩ := new row hrow
  have h₁ : Fills n event t t₁ := foldlM_keeps hparents (.refl t) fun p _ t₀ t₁ ht₀ hp =>
    ht₀.trans (fills_importParent hnew hp)
  have hpackages : Fills n event t (s.packages.foldl (importPackage event row.id) t₁) :=
    foldl_keeps h₁ fun t₀ p ht₀ =>
      ht₀.trans (fills_importPackage hnew (by rw [ht₀.tags]; exact hthere) p)
  have h₂ : Fills n event t t₂ := foldlM_keeps htaggings hpackages fun nvr _ t₀ t₁ ht₀ hn =>
    ht₀.trans (fills_importTagging hnew (by rw [ht₀.tags]; exact hthere)
      (by rw [ht₀.builds]; exact hids) hn)
  exact foldl_keeps h₂ fun t₀ g ht₀ =>
    ht₀.trans (fills_importGroup hnew (by rw [ht₀.tags]; exact hthere) g)

/-! ### Whole imports -/

/-- The row of a name that was not there before is a new one. -/
lemma lt_of_tagNamed? {t₀ : Tables} {new : List TagRow} (htags : t.tags = t₀.tags ++ new)
    (hids : Numbered (t.tags.map TagRow.id)) {name : String} (hnone : t₀.tagNamed? name = none)
    {row : TagRow} (hrow : t.tagNamed? name = some row) :
    (t₀.tags.length : Int) < row.id ∧ row.id ≤ t.tags.length := by
  have hmem : row ∈ t.tags := List.mem_of_find?_eq_some hrow
  have hle := (hids.mem_iff.mp (List.mem_map_of_mem hmem)).2
  rw [List.length_map] at hle
  refine ⟨?_, hle⟩
  rw [tagNamed?] at hnone hrow
  rw [htags, List.find?_append, hnone, Option.none_or] at hrow
  rw [htags, List.map_append] at hids
  simpa using hids.lt_of_mem_append (List.mem_map_of_mem (List.mem_of_find?_eq_some hrow))

/-- **What an import writes** after its event. -/
theorem writes_importSeed {c : Clock} (ht : (t.newEvent c).1.Sound) {s : Seed}
    {context : SeedContext} (checked : s.check context = .ok ()) {summary : ImportSummary}
    (h : t.importSeed c s = .ok (t', summary)) :
    Writes t.tags.length (t.newEvent c).2 (t.newEvent c).1 t' := by
  obtain ⟨t₁, t₂, hbuilds, htags, hcontent⟩ := importSeed_eq_ok h
  have husers : Passes t.tags.length (t.newEvent c).2 (t.newEvent c).1
      (s.users.foldl importUser (t.newEvent c).1) :=
    foldl_keeps ⟨.refl, rfl⟩ fun t₀ u ht₀ => ht₀.trans (passes_importUser t₀ u)
  have h₁ : Passes t.tags.length (t.newEvent c).2 (t.newEvent c).1 t₁ :=
    foldlM_keeps hbuilds husers fun b _ t₀ t₁ ht₀ hb => ht₀.trans (passes_importBuild hb)
  obtain ⟨h₂, ⟨new, hnew⟩, hnone⟩ := writes_importTags (n := t.tags.length) htags
  have hsound := (importing_tags ht checked hbuilds htags).sound
  -- the content is put into tags that the import has made
  have h₃ : Fills t.tags.length (t.newEvent c).2 t₂ t' :=
    foldlM_keeps hcontent (.refl t₂) fun s hs t₀ t₀' ht₀ hs' => by
      refine ht₀.trans (fills_importContent ?_ (fun row hrow => ?_) hs')
      · rw [ht₀.builds]
        exact hsound.buildIds
      · rw [tagNamed?, ht₀.tags] at hrow
        have hlt := lt_of_tagNamed? hnew hsound.tagIds (hnone s hs) hrow
        rw [show t₁.tags = t.tags from h₁.2] at hlt
        rw [ht₀.tags]
        exact hlt
  exact (h₁.1.trans h₂).trans h₃.writes

end TagSync.Tables
