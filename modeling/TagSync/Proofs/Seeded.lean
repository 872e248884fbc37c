import TagSync.Proofs.Importable
import TagSync.Proofs.Untouched

/-!
What an import has made of the tables.

An import flattens the nested content of a seed into rows that are added at the end of every table.
They are about tags that the import has made itself, so of the rows of one tag either all come from
the seed, or none: a new tag has what the seed declares for it, and an old one what it had.
-/

namespace TagSync

/-! ### Rows of one tag among those of all tags -/

/-- Of rows that belong to different keys those of one key are what its owner has. -/
lemma filter_flatMap_of_nodup {α β κ : Type} [DecidableEq κ] {key : α → κ} {rows : α → List β}
    {keyOf : β → κ} (hrows : ∀ a, ∀ b ∈ rows a, keyOf b = key a) {l : List α}
    (unique : (l.map key).Nodup) {a : α} (ha : a ∈ l) :
    (l.flatMap rows).filter (fun b => keyOf b = key a) = rows a := by
  induction l with
  | nil => cases ha
  | cons x rest ih =>
    obtain ⟨hnew, hrest⟩ := List.nodup_cons.mp unique
    rw [List.flatMap_cons, List.filter_append]
    rcases List.mem_cons.mp ha with rfl | ha
    · have hown : (rows a).filter (fun b => keyOf b = key a) = rows a :=
        List.filter_eq_self.mpr fun b hb => by simpa using hrows a b hb
      have hother : (rest.flatMap rows).filter (fun b => keyOf b = key a) = [] := by
        refine List.filter_eq_nil_iff.mpr fun b hb heq => ?_
        obtain ⟨y, hy, hb⟩ := List.mem_flatMap.mp hb
        rw [hrows y b hb, decide_eq_true_eq] at heq
        exact hnew (heq ▸ List.mem_map_of_mem hy)
      rw [hown, hother, List.append_nil]
    · have hother : (rows x).filter (fun b => keyOf b = key a) = [] := by
        refine List.filter_eq_nil_iff.mpr fun b hb heq => ?_
        rw [hrows x b hb, decide_eq_true_eq] at heq
        exact hnew (heq ▸ List.mem_map_of_mem ha)
      rw [hother, ih hrest ha, List.nil_append]

namespace History

variable {α : Type} {h : History α} {tagOf : α → TagId} {n d : TagId} {l : List α}

lemma active_addAll (h : History α) (event : EventId) (l : List α) :
    (h.addAll event l).active none = h.active none ++ l := by
  simp [active, addAll, List.filter_map, Function.comp_def]

/-- A tag that is new has the records that are added, and no others. -/
lemma filter_active_addAll_new (hold : h.All fun a => tagOf a ≤ n) (hd : n < d) (event : EventId) :
    ((h.addAll event l).active none).filter (fun a => tagOf a = d) =
      l.filter fun a => tagOf a = d := by
  rw [active_addAll, List.filter_append, hold.filter_active_eq_nil hd, List.nil_append]

/-- Where no record of a kind is added those of the kind stay, at every event. -/
lemma filter_active_addAll_old {q : α → Bool} (hnew : ∀ a ∈ l, q a = false) (event : EventId)
    (m : Option EventId) : ((h.addAll event l).active m).filter q = (h.active m).filter q := by
  have hnone : l.filter q = [] := List.filter_eq_nil_iff.mpr fun a ha => by simp [hnew a ha]
  rw [filter_active, filter_active, rowsOf_addAll, hnone, addAll_nil]

end History

namespace Tables

variable {c : Clock} {t t' : Tables} {event : EventId} {s : Seed}

lemma tag_of_mem_listedRows {tag : TagId} {builds : List String} {r : TaggingRow}
    (h : r ∈ t.listedRows tag builds) : r.tag = tag := by
  obtain ⟨nvr, -, rfl⟩ := List.mem_map.mp h
  rfl

lemma tag_of_mem_parentRows {tag : TagId} {l : List SeedParent} {r : InheritanceRow}
    (h : r ∈ t.parentRows tag l) : r.tag = tag := by
  obtain ⟨p, -, rfl⟩ := List.mem_map.mp h
  rfl

/-! ### All tags -/

/-- The content of all tags is added at once. -/
lemma foldl_withContent (event : EventId) (l : List SeedTag) (t : Tables) :
    l.foldl (withContent event) t =
      { t with
        inheritance := t.inheritance ++
          l.flatMap fun tag => t.parentRows (t.tagId tag.name) tag.parents
        packages := t.packages.addAll event
          (l.flatMap fun tag => tag.packageRows (t.tagId tag.name))
        taggings := t.taggings.addAll event
          (l.flatMap fun tag => t.listedRows (t.tagId tag.name) tag.builds)
        groups := t.groups.addAll event (l.flatMap fun tag => tag.groupRows (t.tagId tag.name))
        members := t.members.addAll event
          (l.flatMap fun tag => tag.memberRows (t.tagId tag.name)) } := by
  induction l generalizing t with
  | nil => simp
  | cons tag rest ih =>
    rw [List.foldl_cons, ih]
    simp only [List.flatMap_cons, ← List.append_assoc, ← History.addAll_addAll]
    rfl

/-- **The tables hold a seed beside what they held before**: its tags and builds are new, all that
a tag refers to is there, and the content of every tag is added to the tag of its name. -/
structure Seeded (s : Seed) (event : EventId) (t t' : Tables) : Prop where
  tags : ∃ new, t'.tags = t.tags ++ new ∧ new.map (fun r => (r.name, r.config, r.created)) =
    s.tags.map fun tag => (tag.name, tag.config, event)
  builds : ∃ new, t'.builds = t.builds ++ new ∧ new.map (fun r => (r.nvr, r.state, r.owner)) =
    s.builds.map fun b => (b.nvr, b.state, b.owner)
  fresh : ∀ tag ∈ s.tags, t.tagNamed? tag.name = none
  unique : (s.tags.map SeedTag.name).Nodup
  parents : ∀ tag ∈ s.tags, ∀ p ∈ tag.parents, (t'.tagNamed? p.name).isSome
  distinct : ∀ tag ∈ s.tags, (tag.parents.map SeedParent.name).Nodup
  listed : ∀ tag ∈ s.tags, ∀ nvr ∈ tag.builds, (t'.buildId? nvr).isSome
  inheritanceRows : t'.inheritance = t.inheritance ++
    s.tags.flatMap fun tag => t'.parentRows (t'.tagId tag.name) tag.parents
  packageRows : t'.packages = t.packages.addAll event
    (s.tags.flatMap fun tag => tag.packageRows (t'.tagId tag.name))
  taggingRows : t'.taggings = t.taggings.addAll event
    (s.tags.flatMap fun tag => t'.listedRows (t'.tagId tag.name) tag.builds)
  groupRows : t'.groups = t.groups.addAll event
    (s.tags.flatMap fun tag => tag.groupRows (t'.tagId tag.name))
  memberRows : t'.members = t.members.addAll event
    (s.tags.flatMap fun tag => tag.memberRows (t'.tagId tag.name))

/-- **An import adds its seed.** -/
theorem seeded_of_importSeed (ht : t.Sound) (checked : s.check t.seedContext = .ok ())
    {summary : ImportSummary} (h : t.importSeed c s = .ok (t', summary)) :
    Seeded s (t.newEvent c).2 t t' := by
  have resolved := Seed.resolved_of_check checked
  rw [importSeed_eq ht checked resolved, barring_eq_ok] at h
  obtain ⟨hfault, htables⟩ := h
  obtain rfl : t.seeded c s = t' := congrArg Prod.fst htables
  simp only [seedFault?, Option.or_eq_none_iff] at hfault
  obtain ⟨hbuilds, htags, hcontents⟩ := hfault
  have hfill := fillable_prepared (c := c) ht checked resolved hbuilds htags
  have hend : t.seeded c s = _ := foldl_withContent (t.newEvent c).2 s.tags (t.prepared c s)
  obtain ⟨users, userNumbers, perms, builds, tags, heq, hbuildRows, htagRows⟩ := prepared_eq c s t
  have hrecords : (t.prepared c s).inheritance = t.inheritance ∧
      (t.prepared c s).packages = t.packages ∧ (t.prepared c s).taggings = t.taggings ∧
      (t.prepared c s).groups = t.groups ∧ (t.prepared c s).members = t.members := by
    rw [heq]
    exact ⟨rfl, rfl, rfl, rfl, rfl⟩
  obtain ⟨hinheritance, hpackages, htaggings, hgroups, hmembers⟩ := hrecords
  rw [hinheritance, hpackages, htaggings, hgroups, hmembers] at hend
  rw [hend]
  exact {
    tags := ⟨tags, by rw [heq], htagRows⟩
    builds := ⟨builds, by rw [heq], hbuildRows⟩
    fresh := by simpa [tagFault?] using htags
    unique := hfill.unique
    parents := hfill.parents
    distinct := by simpa [contentFault?] using hcontents
    listed := hfill.builds
    inheritanceRows := rfl
    packageRows := rfl
    taggingRows := rfl
    groupRows := rfl
    memberRows := rfl }

/-! ### What other tags show -/

lemma mem_new_of_row? {new : List TagRow} (htags : t'.tags = t.tags ++ new) {ref : TagRef}
    {row : TagRow} (hnone : t.row? ref = none) (h : t'.row? ref = some row) : row ∈ new := by
  cases ref with
  | byId id =>
    rw [row?, tag?] at h hnone
    rw [htags, List.find?_append, hnone, Option.none_or] at h
    exact List.mem_of_find?_eq_some h
  | byName name =>
    rw [row?, tagNamed?] at h hnone
    rw [htags, List.find?_append, hnone, Option.none_or] at h
    exact List.mem_of_find?_eq_some h

/-- The records of a tag itself that count are the same in both tables, at every event. -/
structure SameOwn (a : TagRow) (t t' : Tables) : Prop where
  packages : ∀ m, t'.packagesOn m a = t.packagesOn m a
  taggings : ∀ m, t'.taggingsOn m a = t.taggingsOn m a
  groups : ∀ m, t'.groupsOn m a = t.groupsOn m a
  members : ∀ m group, t'.membersOn m group a = t.membersOn m group a

/-- A tag shows the same where it inherits from the same tags, and these have the same records. -/
lemma sameAnswers_of_sameOwn {u : TagId}
    (hrow : ∀ ref row, t.row? ref = some row → row.id = u → t'.row? ref = some row)
    (hsources : ∀ inherited, t'.sources u inherited = t.sources u inherited)
    (hown : ∀ a ∈ t.chain u, SameOwn a t t') : SameAnswers u t t' := by
  have hchain : t'.chain u = t.chain u := hsources true
  have hfrom : ∀ inherited, ∀ a ∈ t.sources u inherited, SameOwn a t t' :=
    fun inherited a ha => hown a (sources_subset_chain t u inherited ha)
  have hview : ∀ inherited m, t'.packageView m (t.sources u inherited) =
      t.packageView m (t.sources u inherited) := fun inherited m => by
    rw [packageView, packageView,
      List.flatMap_congr fun a ha => (hfrom inherited a ha).packages m]
  refine ⟨hrow, fun inherited m => ?_, fun inherited latestOnly m => ?_, fun m => ?_⟩
  · rw [listPackages, listPackages, hsources, hview]
  · have hshown : t'.shownTaggings u inherited m = t.shownTaggings u inherited m := by
      rw [shownTaggings, shownTaggings, hsources, hchain,
        List.flatMap_congr fun a ha => (hfrom inherited a ha).taggings m,
        show t'.packageView m (t.chain u) = t.packageView m (t.chain u) from hview true m]
    rw [listBuilds, listBuilds, hshown]
  · have hmembers : t'.withMembers m (t.chain u) = t.withMembers m (t.chain u) := by
      funext g
      rw [withMembers, withMembers,
        List.flatMap_congr fun a ha => (hown a ha).members m g.name]
    rw [listGroups, listGroups, hchain, groupView, groupView, hmembers,
      List.flatMap_congr fun a ha => (hown a ha).groups m]

namespace Seeded

variable (h : Seeded s event t t') (hs' : t'.Sound)

include h

/-- Every tag of the seed has a row with the settings that the seed gives it. -/
lemma exists_row {tag : SeedTag} (htag : tag ∈ s.tags) : ∃ row, t'.tagNamed? tag.name = some row ∧
    row.name = tag.name ∧ row.config = tag.config ∧ row.created = event := by
  obtain ⟨new, htags, hnew⟩ := h.tags
  have hfind : t'.tagNamed? tag.name = new.find? (·.name = tag.name) := by
    have hnone := h.fresh tag htag
    rw [tagNamed?] at hnone ⊢
    rw [htags, List.find?_append, hnone, Option.none_or]
  have hmem : (tag.name, tag.config, event) ∈ new.map fun r => (r.name, r.config, r.created) :=
    hnew ▸ List.mem_map_of_mem htag
  obtain ⟨row₀, hrow₀, hkey⟩ := List.mem_map.mp hmem
  obtain ⟨row, hrow⟩ : ∃ row, new.find? (·.name = tag.name) = some row := by
    rw [← Option.isSome_iff_exists, List.find?_isSome]
    exact ⟨row₀, hrow₀, decide_eq_true (congrArg Prod.fst hkey)⟩
  have hname : row.name = tag.name := by simpa using List.find?_some hrow
  -- the row is the one of a tag of the seed, and names of tags are unique
  have hfrom : (row.name, row.config, row.created) ∈
      s.tags.map fun tag => (tag.name, tag.config, event) :=
    hnew ▸ List.mem_map_of_mem (List.mem_of_find?_eq_some hrow)
  obtain ⟨tag', htag', hsame⟩ := List.mem_map.mp hfrom
  simp only [Prod.mk.injEq] at hsame
  obtain rfl := List.inj_on_of_nodup_map h.unique htag' htag (hsame.1.trans hname)
  exact ⟨row, hfind.trans hrow, hname, hsame.2.1.symm, hsame.2.2.symm⟩

include hs'

/-- Every build of the seed is found as the seed has it. -/
lemma exists_build {b : SeedBuild} (hb : b ∈ s.builds) : ∃ row,
    t'.buildNamed? b.nvr = some row ∧ row.state = b.state ∧ row.owner = b.owner := by
  obtain ⟨new, hbuilds, hnew⟩ := h.builds
  have hmem : (b.nvr, b.state, b.owner) ∈ new.map fun r => (r.nvr, r.state, r.owner) :=
    hnew ▸ List.mem_map_of_mem hb
  obtain ⟨row, hrow, hsame⟩ := List.mem_map.mp hmem
  simp only [Prod.mk.injEq] at hsame
  have hfound := hs'.buildNamed?_self (hbuilds ▸ List.mem_append_right _ hrow)
  exact ⟨row, hsame.1 ▸ hfound, hsame.2⟩

/-- The tags of the seed have new numbers. -/
lemma lt_tagId {tag : SeedTag} (htag : tag ∈ s.tags) :
    (t.tags.length : Int) < t'.tagId tag.name := by
  obtain ⟨new, htags, -⟩ := h.tags
  obtain ⟨row, hrow, -⟩ := h.exists_row htag
  rw [tagId_eq hrow]
  exact (lt_of_tagNamed? htags hs'.tagIds (h.fresh tag htag) hrow).1

variable (hs : t.Sound) (hg : t.Grounded) (hon : t.Onward t')
  (he : (t.events.length : Int) < event)

omit hs' in
include he in
/-- Old tags are left as they are. -/
lemma grown : TagRow.Grown (fun row => row) t.events.length t.tags t'.tags := by
  obtain ⟨new, htags, hnew⟩ := h.tags
  refine ⟨fun _ => ⟨rfl, rfl, rfl⟩, new, by rw [htags, List.map_id'], fun row hrow => ?_⟩
  have hfrom : (row.name, row.config, row.created) ∈
      s.tags.map fun tag => (tag.name, tag.config, event) := hnew ▸ List.mem_map_of_mem hrow
  obtain ⟨tag, -, hsame⟩ := List.mem_map.mp hfrom
  simp only [Prod.mk.injEq] at hsame
  rwa [← hsame.2.2]

omit hs' in
include he in
/-- At an event of the past the tags of that time are found, and no new ones. -/
lemma getTag_past {m : EventId} (hm : m ≤ t.events.length) (ref : TagRef) :
    t'.getTag ref (some m) = t.getTag ref (some m) := by
  obtain ⟨new, htags, hlater⟩ := (h.grown he).rows
  rw [List.map_id'] at htags
  rcases hrow : t.row? ref with _ | row
  · refine Option.ext fun tag => ?_
    rw [getTag_eq_some_iff, getTag_eq_some_iff, hrow]
    refine iff_of_false ?_ (fun ⟨_, hno, _⟩ => (nomatch hno))
    rintro ⟨row, hrow', hmade, -⟩
    have hnew := hlater row (mem_new_of_row? htags hrow hrow')
    exact absurd (Int.le_trans (hmade m rfl) hm) (Int.not_le.mpr hnew)
  · exact getTag_congr_row? (row?_of_append htags hrow) hrow (some m)

/-- All rows that are added belong to tags of the seed. -/
lemma ne_of_mem_rows {α : Type} {rows : SeedTag → List α} {tagOf : α → TagId}
    (hrows : ∀ tag, ∀ r ∈ rows tag, tagOf r = t'.tagId tag.name) {d : TagId}
    (hd : d ≤ t.tags.length) {r : α} (hr : r ∈ s.tags.flatMap rows) : tagOf r ≠ d := by
  obtain ⟨tag, htag, hr⟩ := List.mem_flatMap.mp hr
  rw [hrows tag r hr]
  exact (Int.ne_of_lt (Int.lt_of_le_of_lt hd (h.lt_tagId hs' htag))).symm

include hg hon in
/-- The records of old tags are what they were. -/
lemma sameOwn {a : TagRow} (ha : a.id ≤ t.tags.length) : SameOwn a t t' where
  packages := fun m => by
    have hother : ∀ r ∈ s.tags.flatMap fun tag => tag.packageRows (t'.tagId tag.name),
        decide (r.tag = a.id) = false := fun r hr =>
      decide_eq_false (h.ne_of_mem_rows hs' (fun _ _ => SeedTag.tag_of_mem_packageRows) ha hr)
    rw [packagesOn, packagesOn, h.packageRows, History.filter_active_addAll_old hother]
  taggings := fun m => by
    have hother : ∀ r ∈ s.tags.flatMap fun tag => t'.listedRows (t'.tagId tag.name) tag.builds,
        decide (r.tag = a.id) = false := fun r hr =>
      decide_eq_false (h.ne_of_mem_rows hs' (fun _ _ => tag_of_mem_listedRows) ha hr)
    have hbuilds : ∀ r ∈ ((t.taggings.active m).filter (·.tag = a.id)).reverse,
        t'.build? r.build = t.build? r.build := fun r hr =>
      hon.build?_eq hs' (hg.taggings.of_mem_active
        (List.mem_filter.mp (List.mem_reverse.mp hr)).1).2
    rw [taggingsOn, taggingsOn, h.taggingRows, History.filter_active_addAll_old hother,
      List.filterMap_congr hbuilds]
  groups := fun m => by
    have hother : ∀ r ∈ s.tags.flatMap fun tag => tag.groupRows (t'.tagId tag.name),
        decide (r.tag = a.id) = false := fun r hr =>
      decide_eq_false (h.ne_of_mem_rows hs' (fun _ _ => SeedTag.tag_of_mem_groupRows) ha hr)
    rw [groupsOn, groupsOn, h.groupRows, History.filter_active_addAll_old hother]
  members := fun m group => by
    have hother : ∀ r ∈ s.tags.flatMap fun tag => tag.memberRows (t'.tagId tag.name),
        (decide (r.tag = a.id) && decide (r.group = group)) = false := fun r hr => by
      have hne := h.ne_of_mem_rows hs' (fun _ _ => SeedTag.tag_of_mem_memberRows) ha hr
      simp [hne]
    rw [membersOn, membersOn, h.memberRows, History.filter_active_addAll_old hother]

include hs hg hon he in
/-- **What was there before shows what it showed**, at every event. -/
theorem sameAnswers {u : TagId} (hu : u ≤ t.tags.length) : SameAnswers u t t' := by
  have hf := h.grown he
  have hchain : t'.chain u = t.chain u := by
    rw [hon.chain_eq hs hs' hf hu, List.map_id']
  refine sameAnswers_of_sameOwn (fun ref row hrow _ => ?_) (fun inherited => ?_) fun a ha => ?_
  · obtain ⟨new, htags, -⟩ := h.tags
    exact row?_of_append htags hrow
  · rw [hon.sources_eq hs hs' hf hu, List.map_id']
  · obtain ⟨x, hx, hrow⟩ := List.mem_filterMap.mp ha
    refine h.sameOwn hs' hg hon ?_
    rw [id_of_tag? hrow]
    exact Onward.walk_le hs hu hx

end Seeded

end Tables

end TagSync
