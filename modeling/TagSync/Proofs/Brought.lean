import Mathlib.Data.List.Nodup
import TagSync.Proofs.Grounded
import TagSync.Proofs.Succession

/-!
What the tags of a seed bring.

A seed that passed its checks names nothing twice in one place. An import puts the content of
every tag into rows of a tag that it has made itself, so the rows it adds have keys of their own.
-/

namespace TagSync

/-! ### Checks -/

namespace Seed

variable {α : Type}

/-- What is checked against all that came before it has a name of its own. -/
lemma nodup_of_checkEach {name : α → String} {check : List α → α → Except SeedError Unit}
    (hcheck : ∀ before a, check before a = .ok () → ∀ b ∈ before, name b ≠ name a)
    {before l : List α} (h : checkEach check before l = .ok ()) :
    (l.map name).Nodup ∧ ∀ a ∈ l, ∀ b ∈ before, name b ≠ name a := by
  induction l generalizing before with
  | nil => exact ⟨.nil, nofun⟩
  | cons a rest ih =>
    simp only [checkEach, bind, Except.bind] at h
    rcases ha : check before a with e | u
    · rw [ha] at h
      cases h
    rw [ha] at h
    obtain ⟨hrest, hapart⟩ := ih h
    refine ⟨List.nodup_cons.mpr ⟨fun hmem => ?_, hrest⟩, fun b hb => ?_⟩
    · obtain ⟨b, hb, heq⟩ := List.mem_map.mp hmem
      exact hapart b hb a (by simp) heq.symm
    · rcases List.mem_cons.mp hb with rfl | hb
      · exact hcheck before b ha
      · exact fun x hx => hapart b hb x (List.mem_append_left _ hx)

lemma ne_of_unique {name : α → String} {error : String → SeedError} {before : List α} {a : α}
    (h : unique name error before a = .ok ()) : ∀ b ∈ before, name b ≠ name a := by
  unfold unique at h
  split at h
  · cases h
  · rename_i hnone
    simpa using hnone

lemma nodup_of_unique {name : α → String} {error : String → SeedError} {l : List α}
    (h : checkEach (unique name error) [] l = .ok ()) : (l.map name).Nodup :=
  (nodup_of_checkEach (fun _ _ hunique => ne_of_unique hunique) h).1

lemma of_forM {ε : Type} {f : α → Except ε Unit} {l : List α} (h : l.forM f = .ok ()) :
    ∀ a ∈ l, f a = .ok () := by
  induction l with
  | nil => exact nofun
  | cons b rest ih =>
    rw [show (b :: rest).forM f = (f b >>= fun _ => rest.forM f) from rfl] at h
    simp only [bind, Except.bind] at h
    rcases hb : f b with e | u
    · rw [hb] at h
      cases h
    · rw [hb] at h
      exact List.forall_mem_cons.mpr ⟨hb, ih h⟩

end Seed

/-- The names of what a tag declares: none comes twice in one place. -/
structure SeedTag.Distinct (s : SeedTag) : Prop where
  packages : (s.packages.map SeedPackage.name).Nodup
  groups : (s.groups.map SeedGroup.name).Nodup
  members : ∀ g ∈ s.groups, (g.members.map SeedMember.name).Nodup

namespace Seed

variable {s : Seed} {c : SeedContext}

/-- The checks that a tag has passed. -/
lemma checkTag_eq_ok {tag : SeedTag} (h : checkTag s c tag = .ok ()) :
    (∀ p ∈ tag.parents, checkParent s c tag.name p = .ok ()) ∧
      checkEach (unique SeedPackage.name (.duplicatePackage · tag.name)) [] tag.packages = .ok () ∧
      (∀ nvr ∈ tag.builds, checkTagging s c tag.name nvr = .ok ()) ∧
      checkEach (checkGroup tag.name) [] tag.groups = .ok () := by
  unfold checkTag at h
  obtain ⟨_, hparents, h⟩ := bind_eq_ok.mp h
  obtain ⟨_, hpackages, h⟩ := bind_eq_ok.mp h
  obtain ⟨_, hbuilds, hgroups⟩ := bind_eq_ok.mp h
  exact ⟨of_forM hparents, hpackages, of_forM hbuilds, hgroups⟩

lemma distinct_of_checkTag {tag : SeedTag} (h : checkTag s c tag = .ok ()) : tag.Distinct := by
  obtain ⟨-, hpackages, -, hgroups⟩ := checkTag_eq_ok h
  have hgroup : ∀ before g, checkGroup tag.name before g = .ok () →
      (∀ b ∈ before, SeedGroup.name b ≠ g.name) ∧ (g.members.map SeedMember.name).Nodup := by
    intro before g hg
    unfold checkGroup at hg
    obtain ⟨_, hunique, hmembers⟩ := bind_eq_ok.mp hg
    exact ⟨ne_of_unique hunique, nodup_of_unique hmembers⟩
  refine ⟨nodup_of_unique hpackages,
    (nodup_of_checkEach (fun before g hg => (hgroup before g hg).1) hgroups).1, fun g hg => ?_⟩
  obtain ⟨earlier, hchecked⟩ := mem_of_checkEach hgroups hg
  exact (hgroup earlier g hchecked).2

lemma nodup_users_of_check (h : s.check c = .ok ()) : (s.users.map SeedUser.name).Nodup := by
  unfold check at h
  split at h
  · cases h
  · obtain ⟨_, husers, -⟩ := bind_eq_ok.mp h
    exact nodup_of_unique husers

lemma partOf_eq_ok {α : Type} {r : Except Failure α} {a : α} : partOf r = .ok a ↔ r = .ok a := by
  rcases r with e | b <;> simp [partOf, Except.mapError]

/-- What is checked of a build beside its name. -/
lemma of_checkBuild {before : List SeedBuild} {b : SeedBuild}
    (h : checkBuild before b = .ok ()) : (∃ state, BuildState.parse b.state = .ok state) ∧
      ∀ b' ∈ before, b'.nvr.display ≠ b.nvr.display := by
  unfold checkBuild at h
  obtain ⟨state, hstate, h⟩ := bind_eq_ok.mp h
  obtain ⟨n, hn, h⟩ := bind_eq_ok.mp h
  refine ⟨⟨state, partOf_eq_ok.mp hstate⟩, ?_⟩
  by_cases hdash : n ≠ b.nvr
  · rw [if_pos hdash] at h
    cases h
  · rw [if_neg hdash] at h
    exact ne_of_unique h

lemma states_of_check (h : s.check c = .ok ()) {b : SeedBuild} (hb : b ∈ s.builds) :
    ∃ state, BuildState.parse b.state = .ok state := by
  obtain ⟨earlier, hcheck⟩ := mem_of_checkEach (check_eq_ok h).1 hb
  exact (of_checkBuild hcheck).1

/-- Builds whose names are written differently are different. -/
lemma nodup_nvrs_of_check (h : s.check c = .ok ()) : (s.builds.map SeedBuild.nvr).Nodup := by
  have hdisplays : (s.builds.map fun b => b.nvr.display).Nodup :=
    (nodup_of_checkEach (fun _ _ hb => (of_checkBuild hb).2) (check_eq_ok h).1).1
  have hmap : s.builds.map (fun b => b.nvr.display) =
      (s.builds.map SeedBuild.nvr).map Nvr.display := by
    rw [List.map_map]
    rfl
  rw [hmap] at hdisplays
  exact hdisplays.of_map _

/-- **A seed that passed its checks names nothing twice.** -/
theorem distinct_of_check (h : s.check c = .ok ()) :
    (s.tags.map SeedTag.name).Nodup ∧ ∀ tag ∈ s.tags, tag.Distinct := by
  obtain ⟨-, hunique, htags⟩ := check_eq_ok h
  exact ⟨nodup_of_unique hunique, fun tag htag => distinct_of_checkTag (of_forM htags tag htag)⟩

end Seed

/-! ### The rows of a tag -/

namespace SeedTag

def packageRows (s : SeedTag) (tag : TagId) : List PackageRow :=
  s.packages.map fun p => ⟨tag, p.name, p.owner, p.blocked, p.extraArches⟩

def groupRows (s : SeedTag) (tag : TagId) : List GroupRow :=
  s.groups.map fun g => ⟨tag, g.name, g.blocked⟩

def memberRows (s : SeedTag) (tag : TagId) : List MemberRow :=
  s.groups.flatMap fun g => g.members.map fun m => ⟨tag, g.name, m.name, m.blocked⟩

variable {s : SeedTag} {tag : TagId}

lemma tag_of_mem_packageRows {r : PackageRow} (h : r ∈ s.packageRows tag) : r.tag = tag := by
  obtain ⟨p, -, rfl⟩ := List.mem_map.mp h
  rfl

lemma tag_of_mem_groupRows {r : GroupRow} (h : r ∈ s.groupRows tag) : r.tag = tag := by
  obtain ⟨g, -, rfl⟩ := List.mem_map.mp h
  rfl

lemma tag_of_mem_memberRows {r : MemberRow} (h : r ∈ s.memberRows tag) : r.tag = tag := by
  obtain ⟨g, -, hr⟩ := List.mem_flatMap.mp h
  obtain ⟨m, -, rfl⟩ := List.mem_map.mp hr
  rfl

namespace Distinct

variable (h : s.Distinct) (tag : TagId)

include h

lemma nodup_packageRows : ((s.packageRows tag).map fun r => (r.tag, r.package)).Nodup := by
  rw [packageRows, List.map_map, List.Nodup, List.pairwise_map]
  refine (List.pairwise_map.mp h.packages).imp fun hne heq => hne ?_
  exact (Prod.mk.inj heq).2

lemma nodup_groupRows : ((s.groupRows tag).map fun r => (r.tag, r.group)).Nodup := by
  rw [groupRows, List.map_map, List.Nodup, List.pairwise_map]
  refine (List.pairwise_map.mp h.groups).imp fun hne heq => hne ?_
  exact (Prod.mk.inj heq).2

/-- Members of two groups differ by the group, members of one group by the package. -/
lemma nodup_memberRows :
    ((s.memberRows tag).map fun r => (r.tag, r.group, r.package)).Nodup := by
  rw [memberRows, List.map_flatMap, List.nodup_flatMap]
  constructor
  · intro g hg
    rw [List.map_map, List.Nodup, List.pairwise_map]
    refine (List.pairwise_map.mp (h.members g hg)).imp fun hne heq => hne ?_
    exact (Prod.mk.inj (Prod.mk.inj heq).2).2
  · refine (List.pairwise_map.mp h.groups).imp fun {g g'} hne => ?_
    simp only [Function.onFun, List.map_map]
    intro key hkey hkey'
    obtain ⟨m, -, rfl⟩ := List.mem_map.mp hkey
    obtain ⟨m', -, heq⟩ := List.mem_map.mp hkey'
    exact hne (Prod.mk.inj (Prod.mk.inj heq).2).1.symm

end Distinct

end SeedTag

lemma History.All.addAll {α : Type} {p : α → Prop} {h : History α} (hp : h.All p)
    (event : EventId) {l : List α} (hl : ∀ a ∈ l, p a) : (h.addAll event l).All p := by
  intro r hr
  rcases List.mem_append.mp hr with hr | hr
  · exact hp r hr
  · obtain ⟨a, ha, rfl⟩ := List.mem_map.mp hr
    exact hl a ha

namespace Tables

variable {t t' : Tables} {event : EventId} {s : SeedTag} {tag other : TagId}

/-! ### The content of a tag -/

/-- The tables with all rows that a tag of a seed declares, and what else there is. -/
structure Brings (event : EventId) (tag : TagId) (s : SeedTag) (t t' : Tables) : Prop where
  tags : t'.tags = t.tags
  packages : t'.packages = t.packages.addAll event (s.packageRows tag)
  groups : t'.groups = t.groups.addAll event (s.groupRows tag)
  members : t'.members = t.members.addAll event (s.memberRows tag)

/-- The tables list the same packages and groups for the same tags. -/
structure SameListed (t t' : Tables) : Prop where
  tags : t'.tags = t.tags
  packages : t'.packages = t.packages
  groups : t'.groups = t.groups
  members : t'.members = t.members

namespace SameListed

lemma refl (t : Tables) : SameListed t t := ⟨rfl, rfl, rfl, rfl⟩

lemma trans {t'' : Tables} (h : SameListed t t') (h' : SameListed t' t'') : SameListed t t'' :=
  ⟨h'.tags.trans h.tags, h'.packages.trans h.packages, h'.groups.trans h.groups,
    h'.members.trans h.members⟩

end SameListed

lemma sameListed_importParent {p : SeedParent} (h : t.importParent tag p = .ok t') :
    SameListed t t' := by
  obtain ⟨parent, -, rfl⟩ := importParent_eq_ok h
  exact ⟨rfl, rfl, rfl, rfl⟩

lemma sameListed_importTagging {nvr : String} (h : t.importTagging event tag nvr = .ok t') :
    SameListed t t' := by
  obtain ⟨v, b, -, rfl⟩ := importTagging_eq_ok h
  exact ⟨rfl, rfl, rfl, rfl⟩

lemma foldl_importPackage (event : EventId) (tag : TagId) (l : List SeedPackage) (t : Tables) :
    l.foldl (importPackage event tag) t =
      { t with
        packages := l.foldl (fun h p =>
          h.add event ⟨tag, p.name, p.owner, p.blocked, p.extraArches⟩) t.packages } := by
  induction l generalizing t with
  | nil => rfl
  | cons p rest ih => exact ih (t.importPackage event tag p)

lemma foldl_importGroup (event : EventId) (tag : TagId) (l : List SeedGroup) (t : Tables) :
    l.foldl (importGroup event tag) t =
      { t with
        groups := l.foldl (fun h g => h.add event ⟨tag, g.name, g.blocked⟩) t.groups
        members := l.foldl (fun h g => g.members.foldl
          (fun h m => h.add event ⟨tag, g.name, m.name, m.blocked⟩) h) t.members } := by
  induction l generalizing t with
  | nil => rfl
  | cons g rest ih => exact ih (t.importGroup event tag g)

lemma foldl_members (event : EventId) (tag : TagId) (l : List SeedGroup)
    (h : History MemberRow) :
    l.foldl (fun h g => g.members.foldl
        (fun h m => h.add event ⟨tag, g.name, m.name, m.blocked⟩) h) h =
      h.addAll event (l.flatMap fun g =>
        g.members.map fun m => ⟨tag, g.name, m.name, m.blocked⟩) := by
  induction l generalizing h with
  | nil => exact (h.addAll_nil event).symm
  | cons g rest ih =>
    rw [List.foldl_cons, ih, History.foldl_add, History.addAll_addAll, List.flatMap_cons]

/-- **What a tag of a seed declares is added**, to the tag of its name. -/
theorem brings_importContent (h : t.importContent event s = .ok t') :
    ∃ row, t.tagNamed? s.name = some row ∧ Brings event row.id s t t' := by
  obtain ⟨row, t₁, t₂, hrow, hparents, htaggings, rfl⟩ := importContent_eq_ok h
  have h₁ : SameListed t t₁ := foldlM_keeps hparents (.refl t) fun p _ t₀ t₁ ht₀ hp =>
    ht₀.trans (sameListed_importParent hp)
  have h₂ : SameListed (s.packages.foldl (importPackage event row.id) t₁) t₂ :=
    foldlM_keeps htaggings (.refl _) fun nvr _ t₀ t₁ ht₀ hn =>
      ht₀.trans (sameListed_importTagging hn)
  rw [foldl_importPackage, History.foldl_add] at h₂
  refine ⟨row, hrow, ?_⟩
  rw [foldl_importGroup, History.foldl_add, foldl_members]
  exact ⟨h₂.tags.trans h₁.tags, h₂.packages.trans (by rw [h₁.packages]; rfl),
    by rw [h₂.groups, h₁.groups]; rfl, by rw [h₂.members, h₁.members]; rfl⟩

/-! ### Tags without content -/

/-- No package or group is listed for a tag, nor has been. -/
structure Bare (tag : TagId) (t : Tables) : Prop where
  packages : t.packages.All fun r => r.tag ≠ tag
  groups : t.groups.All fun r => r.tag ≠ tag
  members : t.members.All fun r => r.tag ≠ tag

lemma Grounded.bare (hg : t.Grounded) (hnew : (t.tags.length : Int) < tag) : Bare tag t where
  packages := hg.packages.imp fun _ hle => Int.ne_of_lt (Int.lt_of_le_of_lt hle hnew)
  groups := hg.groups.imp fun _ hle => Int.ne_of_lt (Int.lt_of_le_of_lt hle hnew)
  members := hg.members.imp fun _ hle => Int.ne_of_lt (Int.lt_of_le_of_lt hle hnew)

lemma SameListed.bare (h : SameListed t t') (hb : Bare tag t) : Bare tag t' :=
  ⟨by rw [h.packages]; exact hb.packages, by rw [h.groups]; exact hb.groups,
    by rw [h.members]; exact hb.members⟩

lemma SameListed.successive (h : SameListed t t') (hs : t.Successive) : t'.Successive :=
  ⟨by rw [h.packages]; exact hs.packages, by rw [h.groups]; exact hs.groups,
    by rw [h.members]; exact hs.members⟩

namespace Brings

variable (h : Brings event tag s t t')

include h

/-- Other tags stay bare. -/
lemma bare (hne : other ≠ tag) (hb : Bare other t) : Bare other t' where
  packages := by
    rw [h.packages]
    refine hb.packages.addAll event fun r hr => ?_
    rw [SeedTag.tag_of_mem_packageRows hr]
    exact hne.symm
  groups := by
    rw [h.groups]
    refine hb.groups.addAll event fun r hr => ?_
    rw [SeedTag.tag_of_mem_groupRows hr]
    exact hne.symm
  members := by
    rw [h.members]
    refine hb.members.addAll event fun r hr => ?_
    rw [SeedTag.tag_of_mem_memberRows hr]
    exact hne.symm

/-- Rows of a bare tag succeed no others. -/
lemma successive (hb : Bare tag t) (hd : s.Distinct) (hs : t.Successive) : t'.Successive where
  packages := by
    rw [h.packages]
    refine hs.packages.addAll event (hd.nodup_packageRows tag) fun r hr a ha heq => ?_
    rw [SeedTag.tag_of_mem_packageRows ha] at heq
    exact hb.packages r hr (Prod.mk.inj heq).1
  groups := by
    rw [h.groups]
    refine hs.groups.addAll event (hd.nodup_groupRows tag) fun r hr a ha heq => ?_
    rw [SeedTag.tag_of_mem_groupRows ha] at heq
    exact hb.groups r hr (Prod.mk.inj heq).1
  members := by
    rw [h.members]
    refine hs.members.addAll event (hd.nodup_memberRows tag) fun r hr a ha heq => ?_
    rw [SeedTag.tag_of_mem_memberRows ha] at heq
    exact hb.members r hr (Prod.mk.inj heq).1

end Brings

/-- **All tags of a seed are filled** without rows that count twice, if they are all different and
bare before. -/
theorem successive_importContents (hids : (t.tags.map TagRow.id).Nodup) {l : List SeedTag}
    (hnames : (l.map SeedTag.name).Nodup) (hdistinct : ∀ s ∈ l, s.Distinct)
    (hbare : ∀ s ∈ l, ∀ row, t.tagNamed? s.name = some row → Bare row.id t) (hs : t.Successive)
    (h : l.foldlM (importContent event) t = .ok t') : t'.Successive := by
  induction l generalizing t with
  | nil =>
    cases h
    exact hs
  | cons s rest ih =>
    obtain ⟨hnew, hrest⟩ := List.nodup_cons.mp hnames
    simp only [List.foldlM_cons, bind, Except.bind] at h
    rcases hcontent : t.importContent event s with e | t₁
    · rw [hcontent] at h
      cases h
    rw [hcontent] at h
    obtain ⟨row, hrow, hbrings⟩ := brings_importContent hcontent
    have hbare₁ : ∀ s' ∈ rest, ∀ row', t₁.tagNamed? s'.name = some row' → Bare row'.id t₁ := by
      intro s' hs' row' hrow'
      rw [tagNamed?, hbrings.tags] at hrow'
      refine hbrings.bare (fun hid => hnew ?_) (hbare s' (.tail _ hs') row' hrow')
      -- two tags of one number are the same, and have the same name
      have hsame := find?_key hids (List.mem_of_find?_eq_some hrow')
      rw [hid, find?_key hids (List.mem_of_find?_eq_some hrow)] at hsame
      have hname : row.name = s.name := by simpa using List.find?_some hrow
      have hname' : row'.name = s'.name := by simpa using List.find?_some hrow'
      rw [← hname, Option.some.inj hsame, hname']
      exact List.mem_map_of_mem hs'
    exact ih (by rwa [hbrings.tags]) hrest (fun s' hs' => hdistinct s' (.tail _ hs')) hbare₁
      (hbrings.successive (hbare s (.head _) row hrow) (hdistinct s (.head _)) hs) h

/-! ### Whole imports -/

lemma sameListed_importUser (t : Tables) (u : SeedUser) : SameListed t (t.importUser u) := by
  have hgrant : ∀ (t : Tables) (user : Int) (perm : String),
      SameListed t (t.grant user perm) := by
    intro t user perm
    unfold grant
    split <;> exact ⟨rfl, rfl, rfl, rfl⟩
  unfold importUser ensureUser
  refine foldl_keeps ?_ fun t' perm ht => ht.trans (hgrant t' _ perm)
  split <;> exact ⟨rfl, rfl, rfl, rfl⟩

lemma sameListed_importBuild {b : SeedBuild} (h : t.importBuild b = .ok t') :
    SameListed t t' := by
  obtain ⟨-, s, -, rfl⟩ := importBuild_eq_ok h
  exact ⟨rfl, rfl, rfl, rfl⟩

/-- **An import of a checked seed** brings no row that counts beside another one of its key. -/
theorem successive_importSeed {c : Clock} (ht : (t.newEvent c).1.Sound) (hg : t.Grounded)
    (hs : t.Successive) {s : Seed} {context : SeedContext} (checked : s.check context = .ok ())
    {summary : ImportSummary} (h : t.importSeed c s = .ok (t', summary)) : t'.Successive := by
  obtain ⟨t₁, t₂, hbuilds, htags, hcontent⟩ := importSeed_eq_ok h
  have husers : SameListed (t.newEvent c).1 (s.users.foldl importUser (t.newEvent c).1) :=
    foldl_keeps (.refl _) fun t₀ u ht₀ => ht₀.trans (sameListed_importUser t₀ u)
  have h₁ : SameListed (t.newEvent c).1 t₁ :=
    foldlM_keeps hbuilds husers fun b _ t₀ t₁ ht₀ hb => ht₀.trans (sameListed_importBuild hb)
  have hs₁ : t₁.Successive := h₁.successive { hs with }
  have h₂ : t₂.Successive ∧ ∀ tag, Bare tag t₁ → Bare tag t₂ :=
    foldlM_keeps (P := fun t₂ => t₂.Successive ∧ ∀ tag, Bare tag t₁ → Bare tag t₂) htags
      ⟨hs₁, fun _ => id⟩ fun st _ t₀ t₀' ht₀ hst => by
        obtain ⟨-, rfl⟩ := importTag_eq_ok hst
        exact ⟨{ ht₀.1 with }, fun tag hb => { ht₀.2 tag hb with }⟩
  obtain ⟨-, ⟨new, hnew⟩, hnone⟩ := writes_importTags (n := t.tags.length) htags
  have hids := (importing_tags ht checked hbuilds htags).sound.tagIds
  obtain ⟨hnames, hdistinct⟩ := Seed.distinct_of_check checked
  refine successive_importContents hids.nodup hnames hdistinct (fun st hst row hrow => ?_) h₂.1
    hcontent
  have hlt := (lt_of_tagNamed? hnew hids (hnone st hst) hrow).1
  rw [h₁.tags] at hlt
  exact h₂.2 row.id (h₁.bare { hg.bare hlt with })

end Tables

end TagSync
