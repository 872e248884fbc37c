import Mathlib.Data.List.Dedup
import TagSync.Proofs.Permissions
import TagSync.Proofs.Seeded
import TagSync.Proofs.Sorted

/-!
How imported content reads back.

What a tag of a seed declares comes back from the listings of the tag that the import has made of
it: packages by name, parents in the order of the walk, builds the newest tagging first.
-/

namespace TagSync

/-! ### Lists in order -/

lemma InheritanceRow.le_total (a b : InheritanceRow) : a.le b = true ∨ b.le a = true := by
  simp only [InheritanceRow.le, Bool.or_eq_true, Bool.and_eq_true, decide_eq_true_eq]
  grind

lemma InheritanceRow.le_trans (a b c : InheritanceRow) (hab : a.le b = true) (hbc : b.le c = true) :
    a.le c = true := by
  simp only [InheritanceRow.le, Bool.or_eq_true, Bool.and_eq_true, decide_eq_true_eq] at hab hbc ⊢
  grind

/-- Rows of different parents are sorted by priority, those of one priority by number. -/
lemma InheritanceRow.pairwise_sorted {rows : List InheritanceRow}
    (apart : (rows.map InheritanceRow.parent).Nodup) :
    (sort InheritanceRow.le rows).Pairwise fun a b =>
      a.priority < b.priority ∨ a.priority = b.priority ∧ a.parent < b.parent := by
  have hapart := ((perm_sort InheritanceRow.le rows).map InheritanceRow.parent).nodup_iff.mpr apart
  rw [List.Nodup, List.pairwise_map] at hapart
  refine List.Pairwise.imp₂ (fun a b hle hne => ?_)
    (pairwise_sort InheritanceRow.le_total InheritanceRow.le_trans _) hapart
  simp only [InheritanceRow.le, Bool.or_eq_true, Bool.and_eq_true, decide_eq_true_eq] at hle
  grind

/-- The map of a list with names of their own is the list sorted by name. -/
lemma values_ofList {α : Type} {name : α → String} {l : List α} (unique : (l.map name).Nodup) :
    (Keyed.ofList (l.map fun a => (name a, a))).values = sortBy name l := by
  have hfind : ∀ key, (Keyed.ofList (l.map fun a => (name a, a))).find? key =
      l.find? (name · == key) := fun key => by
    simp [Keyed.find?_ofList, List.find?_map, Function.comp_def]
  have hnamed : (Keyed.ofList (l.map fun a => (name a, a))).NamedBy name := fun key a ha => by
    rw [hfind] at ha
    simpa using List.find?_some ha
  refine Keyed.eq_of_ascending hnamed.pairwise_values (pairwise_sortBy unique) fun a => ?_
  rw [hnamed.mem_values, hfind, sortBy, mem_sort]
  exact ⟨List.mem_of_find?_eq_some, fun ha => find?_key unique ha⟩

/-- A package of a seed as the tag that lists it shows it. -/
def SeedPackage.entry (tag : TagInfo) (p : SeedPackage) : PackageEntry :=
  { name := p.name, owner := p.owner, blocked := p.blocked, extraArches := p.extraArches
    sourceTagId := tag.id, sourceTagName := tag.name }

namespace Tables

/-- Whether a tag shows the package of a build, and not blocked. -/
def unblocked (t : Tables) (id : TagId) (nvr : String) : Bool :=
  (Nvr.parse? nvr).any fun n =>
    (t.listPackages id true none).any fun p => p.name == n.name && !p.blocked

lemma any_listPackages (t : Tables) (id : TagId) (name : String) :
    ((t.listPackages id true none).any fun p => p.name == name && !p.blocked) =
      allows (t.packageView none (t.chain id)) name := by
  have hnamed := packageView_named t none (t.chain id)
  rw [Bool.eq_iff_iff, allows, Option.any_eq_true, List.any_eq_true]
  simp only [Bool.and_eq_true, beq_iff_eq]
  constructor
  · rintro ⟨p, hp, rfl, hblocked⟩
    exact ⟨p, hnamed.mem_values.mp hp, hblocked⟩
  · rintro ⟨p, hp, hblocked⟩
    have hname := hnamed name p hp
    exact ⟨p, hnamed.mem_values.mpr (hname ▸ hp), hname, hblocked⟩

/-- A last name counts where it is new. -/
lemma firstOfEach_append_singleton (l seen : List String) (a : String) :
    firstOfEach id seen (l ++ [a]) =
      firstOfEach id seen l ++ if a ∈ l ∨ a ∈ seen then [] else [a] := by
  induction l generalizing seen with
  | nil => by_cases ha : a ∈ seen <;> simp [firstOfEach, ha]
  | cons b rest ih =>
    by_cases hb : b ∈ seen
    · have hiff : a ∈ b :: rest ∨ a ∈ seen ↔ a ∈ rest ∨ a ∈ seen := by
        rw [List.mem_cons, or_assoc]
        exact or_iff_right_of_imp fun hab => .inr (hab ▸ hb)
      simp [firstOfEach, hb, ih, hiff, -List.mem_cons]
    · have hiff : a ∈ b :: rest ∨ a ∈ seen ↔ a ∈ rest ∨ a ∈ b :: seen := by
        simp only [List.mem_cons]
        tauto
      simp [firstOfEach, hb, ih, hiff, -List.mem_cons]

/-- Read from behind, a list shows every name where it stands last. -/
lemma firstOfEach_reverse (l : List String) : firstOfEach id [] l.reverse = l.dedup.reverse := by
  induction l with
  | nil => rfl
  | cons a rest ih =>
    rw [List.reverse_cons, firstOfEach_append_singleton, ih]
    by_cases ha : a ∈ rest <;> simp [ha]

/-! ### The rows of a new tag -/

variable {t t' : Tables} {event : EventId} {s : Seed} {tag : SeedTag} {row : TagRow}

namespace Seeded

variable (h : Seeded s event t t') (hs' : t'.Sound) (htag : tag ∈ s.tags)
  (hrow : t'.tagNamed? tag.name = some row)

include h hs'

lemma nodup_tagIds : (s.tags.map fun tag => t'.tagId tag.name).Nodup := by
  have hmap : s.tags.map (fun tag => t'.tagId tag.name) =
      (s.tags.map SeedTag.name).map t'.tagId := by
    rw [List.map_map]
    rfl
  rw [hmap]
  refine h.unique.map_on fun x hx y hy heq => ?_
  obtain ⟨tag, htag, rfl⟩ := List.mem_map.mp hx
  obtain ⟨tag', htag', rfl⟩ := List.mem_map.mp hy
  obtain ⟨row, hrow, -⟩ := h.exists_row htag
  obtain ⟨row', hrow', -⟩ := h.exists_row htag'
  exact (tagId_inj hs'.tagIds.nodup (Option.isSome_of_eq_some hrow)
    (Option.isSome_of_eq_some hrow')).mp heq

include htag hrow

/-- A tag of the seed has the records that the seed declares for it. -/
lemma filter_active_own {α : Type} {old : History α} {tagOf : α → TagId} {rows : SeedTag → List α}
    (hold : old.All fun r => tagOf r ≤ t.tags.length)
    (hrows : ∀ tag, ∀ r ∈ rows tag, tagOf r = t'.tagId tag.name) :
    ((old.addAll event (s.tags.flatMap rows)).active none).filter (fun r => tagOf r = row.id) =
      rows tag := by
  rw [← tagId_eq hrow, History.filter_active_addAll_new hold (h.lt_tagId hs' htag)]
  exact filter_flatMap_of_nodup hrows (h.nodup_tagIds hs') htag

/-- The parents of a tag of the seed are those that the seed declares for it, in order. -/
lemma exists_parents (hs : t.Sound) : ∃ rows : List InheritanceRow,
    rows.Perm (t'.parentRows row.id tag.parents) ∧
    rows.Pairwise (fun a b =>
      a.priority < b.priority ∨ a.priority = b.priority ∧ a.parent < b.parent) ∧
    t'.parents row.id = rows.map InheritanceRow.parent := by
  have hid := tagId_eq hrow
  have hown : t'.inheritance.filter (fun r => r.tag = row.id) =
      t'.parentRows row.id tag.parents := by
    have hnone : t.inheritance.filter (fun r => r.tag = row.id) = [] := by
      refine List.filter_eq_nil_iff.mpr fun r hr => ?_
      have hlt := h.lt_tagId hs' htag
      rw [hid] at hlt
      simpa using Int.ne_of_lt (Int.lt_of_le_of_lt (hs.heirs r hr).1 hlt)
    rw [h.inheritanceRows, List.filter_append, hnone, List.nil_append, ← hid]
    exact filter_flatMap_of_nodup (fun _ _ hr => tag_of_mem_parentRows hr) (h.nodup_tagIds hs')
      htag
  have hnodup : ((t'.parentRows row.id tag.parents).map InheritanceRow.parent).Nodup := by
    have hparents := List.pairwise_map.mp (h.distinct tag htag)
    rw [parentRows, List.map_map, List.Nodup, List.pairwise_map]
    refine hparents.imp_of_mem fun {p q} hp hq hne heq => hne ?_
    exact (tagId_inj hs'.tagIds.nodup (h.parents tag htag p hp) (h.parents tag htag q hq)).mp heq
  exact ⟨_, perm_sort _ _, InheritanceRow.pairwise_sorted hnodup, by rw [Tables.parents, hown]⟩

variable (hg : t.Grounded) (htag? : t'.tag? row.id = some row)

include hg htag?

/-- The packages of a tag of the seed are those that the seed declares for it, by name. -/
lemma listPackages_eq (hd : tag.Distinct) : t'.listPackages row.id false none =
    sortBy PackageEntry.name (tag.packages.map (SeedPackage.entry row.info)) := by
  have hon : t'.packagesOn none row = tag.packages.map (SeedPackage.entry row.info) := by
    rw [packagesOn, h.packageRows, h.filter_active_own hs' htag hrow hg.packages
      fun _ _ => SeedTag.tag_of_mem_packageRows, tagId_eq hrow, SeedTag.packageRows, List.map_map]
    rfl
  have hunique : ((tag.packages.map (SeedPackage.entry row.info)).map PackageEntry.name).Nodup := by
    rw [List.map_map]
    exact hd.packages
  have hview : t'.packageView none (t'.sources row.id false) =
      .ofList ((t'.packagesOn none row).map fun p => (p.name, p)) := by
    simp [packageView, sources, htag?]
  rw [listPackages, hview, hon, values_ofList hunique]

omit htag? in
/-- The taggings of a tag of the seed are its list of builds, read from behind. -/
lemma map_name_taggingsOn : (t'.taggingsOn none row).map Tagging.name = tag.builds.reverse := by
  have hfound : ∀ nvr ∈ tag.builds.reverse,
      ((t'.build? ((t'.buildId? nvr).getD 0)).map fun b => Tagging.name ⟨b, row⟩) = some nvr := by
    intro nvr hnvr
    obtain ⟨id, hid⟩ := Option.isSome_iff_exists.mp
      (h.listed tag htag nvr (List.mem_reverse.mp hnvr))
    obtain ⟨b, hb, rfl⟩ := Option.map_eq_some_iff.mp hid
    obtain ⟨n, hn, hfound⟩ := Option.bind_eq_some_iff.mp hb
    have hname : b.nvr = n := by simpa using List.find?_some hfound
    rw [hid, Option.getD_some, hs'.build?_self (List.mem_of_find?_eq_some hfound),
      Option.map_some, Tagging.name, hname, Nvr.display_of_parse? hn]
  rw [taggingsOn, h.taggingRows, h.filter_active_own hs' htag hrow
    (hg.taggings.imp fun _ hr => hr.1) fun _ _ => tag_of_mem_listedRows, listedRows,
    ← List.map_reverse, List.filterMap_map, List.map_map, List.map_filterMap]
  exact (List.filterMap_congr hfound).trans List.filterMap_some

/-- The builds of a tag of the seed are its list of builds without those of packages that it does
not show, the last one first, each where it stands last. -/
lemma map_nvr_shownBuilds : (t'.shownBuilds row.id false false none).map BuildEntry.nvr =
    (tag.builds.dedup.filter (t'.unblocked row.id)).reverse := by
  have htagged : (t'.taggedBuilds row).map BuildEntry.nvr = tag.builds.dedup.reverse := by
    have hnames : firstOfEach id [] ((t'.taggingsOn none row).map Tagging.name) =
        (firstOfEach Tagging.name [] (t'.taggingsOn none row)).map Tagging.name :=
      firstOfEach_map (fun _ => rfl) _ _
    rw [taggedBuilds, List.map_map, ← firstOfEach_reverse,
      ← h.map_name_taggingsOn hs' htag hrow hg, hnames]
    rfl
  have hallowed : ∀ e ∈ t'.taggedBuilds row,
      allows (t'.packageView none (t'.chain row.id)) e.packageName = t'.unblocked row.id e.nvr := by
    intro e he
    obtain ⟨b, hb, rfl⟩ := List.mem_map.mp he
    have hread := hs'.readable _ (build_mem_of_mem_taggingsOn (mem_of_mem_firstOfEach hb))
    rw [unblocked, show b.shown.nvr = b.build.nvr.display from rfl, hread, Option.any_some,
      any_listPackages]
    rfl
  have hfilter : ((t'.taggedBuilds row).filter fun e => t'.unblocked row.id e.nvr).map
      BuildEntry.nvr = ((t'.taggedBuilds row).map BuildEntry.nvr).filter (t'.unblocked row.id) := by
    rw [List.filter_map]
    rfl
  rw [shownBuilds_own hs' htag?, List.filter_congr hallowed, hfilter, htagged, List.filter_reverse]

end Seeded

end Tables

namespace Hub

variable {h h' : Hub} {s : Seed}

/-- **A tag of a seed reads back** in a row of the hub: its settings, its packages by name, its
groups and their members, its parents in the order in which the chain takes them, and its builds,
each where the list has it last, the last one first and without those of packages that it does not
show. -/
structure ReadsBack (h : Hub) (s : SeedTag) (row : TagRow) : Prop where
  info : row.info = ⟨row.id, s.name, s.config⟩
  settings : (h.session (.getTag (.byName s.name) none)).answer = .ok (some row.info)
  packages : (h.session (.listPackages row.id false none)).answer =
    .ok (sortBy PackageEntry.name (s.packages.map (SeedPackage.entry row.info)))
  groups : (h.tables.groups.active none).filter (fun r => r.tag = row.id) = s.groupRows row.id
  members : (h.tables.members.active none).filter (fun r => r.tag = row.id) = s.memberRows row.id
  known : ∀ p ∈ s.parents, (h.tables.tagNamed? p.name).isSome
  parents : ∃ rows : List InheritanceRow, rows.Perm (h.tables.parentRows row.id s.parents) ∧
    rows.Pairwise (fun a b =>
      a.priority < b.priority ∨ a.priority = b.priority ∧ a.parent < b.parent) ∧
    h.tables.parents row.id = rows.map InheritanceRow.parent
  chain : h.tables.chain row.id =
    row :: (h.tables.walk (h.tables.parents row.id) [row.id]).filterMap h.tables.tag?
  builds : ∃ own : List BuildEntry,
    (h.session (.listBuilds row.id false false none)).answer = .ok own ∧
    own.map BuildEntry.nvr = (s.builds.dedup.filter (h.tables.unblocked row.id)).reverse ∧
    ∀ e ∈ own, ∃ b ∈ h.tables.builds, Tables.Tagging.entry ⟨b, row⟩ = .ok e

lemma readsBack_of_seeded {t : Tables} {event : EventId} (hseeded : t.Seeded s event h.tables)
    (hs : t.Sound) (hg : t.Grounded) (hs' : h.tables.Sound) {tag : SeedTag} (htag : tag ∈ s.tags)
    (hd : tag.Distinct) : ∃ row, h.ReadsBack tag row := by
  obtain ⟨row, hrow, hname, hconfig, -⟩ := hseeded.exists_row htag
  have htag? : h.tables.tag? row.id = some row := hs'.tag?_self (List.mem_of_find?_eq_some hrow)
  have hlisting : ∀ {α : Type} (a : Except Failure α), h.listing row.id a = a :=
    fun a => listing_eq (Option.isSome_of_eq_some htag?) a
  have hid := Tables.tagId_eq hrow
  refine ⟨row, by rw [TagRow.info, hname, hconfig], ?_, ?_, ?_, ?_, hseeded.parents tag htag,
    hseeded.exists_parents hs' htag hrow hs, Tables.chain_eq htag?, ?_⟩
  · refine congrArg Except.ok ?_
    rw [Tables.getTag_none, Tables.row?, hrow, Option.map_some]
  · exact (hlisting _).trans
      (congrArg Except.ok (hseeded.listPackages_eq hs' htag hrow hg htag? hd))
  · rw [hseeded.groupRows, hseeded.filter_active_own hs' htag hrow hg.groups
      fun _ _ => SeedTag.tag_of_mem_groupRows, hid]
  · rw [hseeded.memberRows, hseeded.filter_active_own hs' htag hrow hg.members
      fun _ _ => SeedTag.tag_of_mem_memberRows, hid]
  · refine ⟨_, (hlisting _).trans (Tables.listBuilds_eq hs' ..),
      hseeded.map_nvr_shownBuilds hs' htag hrow hg htag?, fun e he => ?_⟩
    rw [Tables.shownBuilds_own hs' htag?] at he
    obtain ⟨b, hb, rfl⟩ := List.mem_map.mp (List.mem_filter.mp he).1
    have hmem := Tables.mem_of_mem_firstOfEach hb
    have hbuilt := Tables.build_mem_of_mem_taggingsOn hmem
    obtain ⟨state, hstate⟩ := hs'.states _ hbuilt
    refine ⟨b.build, hbuilt, ?_⟩
    rw [← (Tables.mem_taggingsOn_iff.mp hmem).1]
    exact Tables.Tagging.entry_eq_ok hstate

/-- **All that a hub knew before it goes on to tell**: tags are found as they were, and those that
are new are not found in the past; tags list what they listed, at every event and now; and builds
are found as they were. -/
structure Undisturbed (h h' : Hub) : Prop where
  tags : ∀ ref tag, h.tables.getTag ref none = some tag → ∀ event,
    (h'.session (.getTag ref event)).answer = (h.session (.getTag ref event)).answer
  past : ∀ ref, ∀ event ≤ (h.tables.events.length : EventId),
    (h'.session (.getTag ref (some event))).answer = (h.session (.getTag ref (some event))).answer
  packages : ∀ id, (h.tables.tag? id).isSome → ∀ inherited event,
    (h'.session (.listPackages id inherited event)).answer =
      (h.session (.listPackages id inherited event)).answer
  builds : ∀ id, (h.tables.tag? id).isSome → ∀ inherited latestOnly event,
    (h'.session (.listBuilds id inherited latestOnly event)).answer =
      (h.session (.listBuilds id inherited latestOnly event)).answer
  groups : ∀ id, (h.tables.tag? id).isSome → ∀ event,
    (h'.session (.listGroups id event)).answer = (h.session (.listGroups id event)).answer
  built : ∀ n b, h.tables.buildNamed? n = some b → h'.tables.buildNamed? n = some b

lemma undisturbed_of_seeded {event : EventId} (hseeded : h.tables.Seeded s event h'.tables)
    (hs : h.tables.Sound) (hg : h.tables.Grounded) (hs' : h'.tables.Sound)
    (hon : h.tables.Onward h'.tables) (he : (h.tables.events.length : Int) < event) :
    h.Undisturbed h' := by
  obtain ⟨newTags, htags, -⟩ := hseeded.tags
  obtain ⟨newBuilds, hbuilds, -⟩ := hseeded.builds
  have hold : ∀ id, (h.tables.tag? id).isSome → h.tables.SameAnswers id h'.tables := by
    intro id hid
    obtain ⟨row, hrow⟩ := Option.isSome_iff_exists.mp hid
    refine hseeded.sameAnswers hs' hs hg hon he ?_
    rw [← Tables.id_of_tag? hrow]
    exact hs.tag_le (Tables.mem_of_tag? hrow)
  refine ⟨fun ref tag found m => ?_, fun ref m hm => ?_, fun id hid => ?_, fun id hid => ?_,
    fun id hid => ?_, fun n b hb => ?_⟩
  · obtain ⟨row, hrow, -, -⟩ := Tables.getTag_eq_some_iff.mp found
    exact congrArg Except.ok (Tables.getTag_congr_row? (Tables.row?_of_append htags hrow) hrow m)
  · exact congrArg Except.ok (hseeded.getTag_past he hm ref)
  · exact (answers_of_sameAnswers (hold id hid) hid).2.1
  · exact (answers_of_sameAnswers (hold id hid) hid).2.2.1
  · exact (answers_of_sameAnswers (hold id hid) hid).2.2.2
  · rw [Tables.buildNamed?] at hb ⊢
    rw [hbuilds, List.find?_append, hb, Option.some_or]

/-- **An import reads back.** Every tag of the seed reads back as the seed has it, and so does every
build; the seed's users hold the permissions that it lists beside those they held, nobody else
holds others than before, and all that was there before goes on to be told, now and at every
event. -/
theorem importSeed_reads_back (hr : h.Reachable) (checked : s.check h.tables.seedContext = .ok ())
    {summary : ImportSummary} (imported : h.importSeed s = (.ok summary, h')) :
    (∀ tag ∈ s.tags, ∃ row, h'.ReadsBack tag row) ∧
    (∀ b ∈ s.builds, ∃ row, h'.tables.buildNamed? b.nvr = some row ∧ row.state = b.state ∧
      row.owner = b.owner) ∧
    (∀ user perm, h'.tables.hasPerm user perm = true ↔
      h.tables.hasPerm user perm = true ∨ ∃ u ∈ s.users, u.name = user ∧ perm ∈ u.perms) ∧
    h.Undisturbed h' := by
  obtain ⟨-, t, ht, hstate⟩ := transact_of_ok (congrArg Prod.fst imported)
  obtain rfl : h' = { h with tables := t } := (congrArg Prod.snd imported).symm.trans hstate
  have hs := hr.sound
  have hstep : Tables.Step h.clock h.tables t := .importSeed checked ht
  have hseeded := Tables.seeded_of_importSeed hs checked ht
  have hs' := hstep.sound hs
  refine ⟨fun tag htag => ?_, fun b hb => hseeded.exists_build hs' hb,
    (hr.enrolled.importSeed ht).2, ?_⟩
  · exact readsBack_of_seeded (h := { h with tables := t }) hseeded hs hr.grounded hs' htag
      ((Seed.distinct_of_check checked).2 tag htag)
  · have hon := (Tables.Onward.refl h.tables).step hs hstep
    exact @undisturbed_of_seeded h { h with tables := t } s _ hseeded hs hr.grounded hs' hon
      (Int.lt_add_one_of_le (Int.le_refl _))

/-! ### A second import -/

/-- Two builds, of which the tag `p` lists one; it blocks the package of the other one. -/
def groundwork : Seed :=
  { schemaVersion := 0, users := [⟨"u", ["admin"]⟩]
    builds := [{ package := "a", version := "1", release := "1", owner := "u" },
      { package := "b", version := "1", release := "1", owner := "u" }]
    tags := [
      { name := "p", builds := ["a-1-1"]
        packages := [{ name := "a", owner := "u" },
          { name := "b", owner := "u", blocked := true }] }] }

/-- The tag `d` inherits from `p`, and lists builds of both imports, one of them twice. -/
def overlaidTag : SeedTag :=
  { name := "d", config := { arches := some "i686" }, parents := [{ name := "p" }]
    packages := [{ name := "d", owner := "v" }, { name := "c", owner := "v" }]
    builds := ["a-1-1", "a-2-1", "b-1-1", "a-1-1"]
    groups := [{ name := "g", members := [{ name := "c" }] }] }

def overlay : Seed :=
  { schemaVersion := 0, users := [⟨"u", ["tag"]⟩, ⟨"v", ["tag"]⟩], tags := [overlaidTag]
    builds := [{ package := "a", version := "2", release := "1", owner := "v" }] }

def groundworkHub : Hub := (({ user := "u" } : Hub).importSeed groundwork).2

def furnishedHub : Hub := (groundworkHub.importSeed overlay).2

/-- The build that `d` lists twice counts at its last place, and the build of the package that `p`
blocks is not shown; `u` holds the permissions of both imports, and `p` lists what it listed. -/
theorem importSeed_reads_back_overlay :
    (∃ row, furnishedHub.ReadsBack overlaidTag row) ∧
      (overlaidTag.builds.dedup.filter (furnishedHub.tables.unblocked 2)).reverse =
        ["a-1-1", "a-2-1"] ∧
      furnishedHub.tables.hasPerm "u" "admin" = true ∧
      furnishedHub.tables.hasPerm "u" "tag" = true ∧
      furnishedHub.tables.hasPerm "v" "admin" = false ∧
      (furnishedHub.session (.listPackages 1 true none)).answer =
        (groundworkHub.session (.listPackages 1 true none)).answer := by
  have hr : groundworkHub.Reachable :=
    .importSeed (show groundwork.check .empty = .ok () from rfl) (.start "u" _)
  have checked : overlay.check groundworkHub.tables.seedContext = .ok () := rfl
  obtain ⟨summary, imported⟩ : ∃ summary, groundworkHub.importSeed overlay =
      (.ok summary, furnishedHub) := ⟨_, rfl⟩
  obtain ⟨htags, -, hperms, hold⟩ := importSeed_reads_back hr checked imported
  refine ⟨htags _ (.head _), by decide +kernel,
    (hperms "u" "admin").mpr (.inl (by decide +kernel)),
    (hperms "u" "tag").mpr (.inr ⟨_, .head _, rfl, .head _⟩), ?_,
    hold.packages 1 (by decide +kernel) true none⟩
  rw [Bool.eq_false_iff, Ne, hperms]
  decide +kernel

end Hub

end TagSync
