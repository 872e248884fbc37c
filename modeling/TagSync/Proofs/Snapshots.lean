import TagSync.Hub
import TagSync.Plan.Diff
import TagSync.Snapshot.Fetch
import TagSync.Proofs.Dialog
import TagSync.Proofs.Elsewhere
import TagSync.Proofs.Newest

/-!
What a run fetches from a hub whose tables are sound.

No listing of a tag fails, so a fetch gives the snapshot that the tables say (`Tables.snapshot`).
-/

namespace TagSync

namespace Tables

variable {t : Tables} {id d : TagId} {event : Option EventId} {row : TagRow}

/-! ### Builds that are shown -/

/-- A tagged build as a listing shows it, if its state is one. -/
def Tagging.shown (b : Tagging) : BuildEntry :=
  { nvr := b.name, packageName := b.build.nvr.name, version := b.build.nvr.version
    release := b.build.nvr.release, state := (BuildState.parse? b.build.state).getD .building
    owner := b.build.owner, sourceTagId := b.tag.id, sourceTagName := b.tag.name }

/-- The builds a listing shows. -/
def shownBuilds (t : Tables) (id : TagId) (inherited latestOnly : Bool)
    (event : Option EventId) : List BuildEntry :=
  let builds := (t.shownTaggings id inherited event).map Tagging.shown
  if latestOnly then BuildEntry.latest builds else builds

lemma Tagging.entry_eq_ok {b : Tagging} {s : BuildState}
    (h : BuildState.parse b.build.state = .ok s) : b.entry = .ok b.shown := by
  have hs : BuildState.parse? b.build.state = some s := by
    unfold BuildState.parse at h
    split at h
    · rename_i hs
      cases h
      exact hs
    · cases h
  simp [entry, h, shown, hs, Except.map]

lemma mapM_entry {l : List Tagging} (h : ∀ b ∈ l, b.entry = .ok b.shown) :
    l.mapM Tagging.entry = .ok (l.map Tagging.shown) := by
  induction l with
  | nil => rfl
  | cons b rest ih =>
    rw [List.mapM_cons, h b (.head _), ih fun x hx => h x (.tail _ hx)]
    rfl

lemma mem_of_mem_firstOfEach {α : Type} {name : α → String} {seen : List String} {l : List α}
    {a : α} (h : a ∈ firstOfEach name seen l) : a ∈ l := by
  induction l generalizing seen with
  | nil => cases h
  | cons b rest ih =>
    simp only [firstOfEach] at h
    split at h
    · exact .tail _ (ih h)
    · rcases List.mem_cons.mp h with rfl | h
      · exact .head _
      · exact .tail _ (ih h)

lemma name_mem_firstOfEach {α : Type} {name : α → String} {seen : List String} {l : List α}
    {a : α} (h : a ∈ l) (hseen : name a ∉ seen) :
    ∃ b ∈ firstOfEach name seen l, name b = name a := by
  induction l generalizing seen with
  | nil => cases h
  | cons b rest ih =>
    simp only [firstOfEach]
    by_cases hb : name b ∈ seen
    · simp only [List.contains_iff_mem, hb, if_true]
      rcases List.mem_cons.mp h with rfl | h
      · exact absurd hb hseen
      · exact ih h hseen
    · simp only [List.contains_iff_mem, hb, if_false, List.mem_cons, exists_eq_or_imp]
      by_cases hab : name b = name a
      · exact .inl hab
      · rcases List.mem_cons.mp h with rfl | h
        · exact absurd rfl hab
        · refine .inr (ih h ?_)
          rw [List.mem_cons, not_or]
          exact ⟨Ne.symm hab, hseen⟩

lemma nodup_firstOfEach {α : Type} (name : α → String) (seen : List String) (l : List α) :
    ((firstOfEach name seen l).map name).Nodup ∧
      ∀ a ∈ firstOfEach name seen l, name a ∉ seen := by
  induction l generalizing seen with
  | nil => exact ⟨.nil, nofun⟩
  | cons a rest ih =>
    simp only [firstOfEach, List.contains_iff_mem]
    split
    · exact ih seen
    · rename_i ha
      obtain ⟨hnodup, hnew⟩ := ih (name a :: seen)
      simp only [List.mem_cons, not_or] at hnew
      refine ⟨List.nodup_cons.mpr ⟨fun hmem => ?_, hnodup⟩, List.forall_mem_cons.mpr ⟨ha, ?_⟩⟩
      · obtain ⟨c, hc, hname⟩ := List.mem_map.mp hmem
        exact (hnew c hc).1 hname
      · exact fun c hc => (hnew c hc).2

lemma mem_taggingsOn_iff {a : TagRow} {b : Tagging} :
    b ∈ t.taggingsOn event a ↔ b.tag = a ∧
      ∃ r ∈ t.taggings.active event, r.tag = a.id ∧ t.build? r.build = some b.build := by
  obtain ⟨build, tag⟩ := b
  simp only [taggingsOn, List.mem_map, List.mem_filterMap, List.mem_reverse, List.mem_filter,
    decide_eq_true_eq, Tagging.mk.injEq]
  constructor
  · rintro ⟨x, ⟨r, ⟨hr, htag⟩, hx⟩, rfl, rfl⟩
    exact ⟨rfl, r, hr, htag, hx⟩
  · rintro ⟨rfl, r, hr, htag, hx⟩
    exact ⟨build, ⟨r, ⟨hr, htag⟩, hx⟩, rfl, rfl⟩

lemma mem_builds_of_mem_shownTaggings {inherited : Bool} {b : Tagging}
    (h : b ∈ t.shownTaggings id inherited event) : b.build ∈ t.builds := by
  have hb := (List.mem_filter.mp (mem_of_mem_firstOfEach h)).1
  obtain ⟨a, -, hb⟩ := List.mem_flatMap.mp hb
  obtain ⟨-, r, -, -, hbuild⟩ := mem_taggingsOn_iff.mp hb
  exact List.mem_of_find?_eq_some hbuild

/-- **Listing builds never fails** on sound tables. -/
theorem listBuilds_eq (ht : t.Sound) (id : TagId) (inherited latestOnly : Bool)
    (event : Option EventId) :
    t.listBuilds id inherited latestOnly event =
      .ok (t.shownBuilds id inherited latestOnly event) := by
  have hentries : (t.shownTaggings id inherited event).mapM Tagging.entry =
      .ok ((t.shownTaggings id inherited event).map Tagging.shown) := by
    refine mapM_entry fun b hb => ?_
    obtain ⟨s, hs⟩ := ht.states b.build (mem_builds_of_mem_shownTaggings hb)
    exact Tagging.entry_eq_ok hs
  rw [listBuilds, hentries]
  rfl

/-- A listing shows no build twice. -/
lemma nodup_shownBuilds (t : Tables) (id : TagId) (inherited latestOnly : Bool)
    (event : Option EventId) :
    ((t.shownBuilds id inherited latestOnly event).map BuildEntry.nvr).Nodup := by
  have hnames : (((t.shownTaggings id inherited event).map Tagging.shown).map
      BuildEntry.nvr).Nodup := by
    rw [List.map_map]
    exact (nodup_firstOfEach Tagging.name [] _).1
  unfold shownBuilds
  dsimp only
  split
  · exact BuildEntry.nodup_latest hnames
  · exact hnames

lemma exists_shown_of_mem_shownBuilds {inherited latestOnly : Bool} {e : BuildEntry}
    (h : e ∈ t.shownBuilds id inherited latestOnly event) :
    ∃ b ∈ t.shownTaggings id inherited event, b.shown = e := by
  refine List.mem_map.mp ?_
  unfold shownBuilds at h
  dsimp only at h
  split at h
  · exact BuildEntry.mem_of_mem_latest h
  · exact h

/-- Every build that is shown is one of the hub, under its own name, and of a package that is
listed. -/
lemma mem_builds_of_mem_shownBuilds {inherited latestOnly : Bool} {e : BuildEntry}
    (h : e ∈ t.shownBuilds id inherited latestOnly event) :
    ∃ b ∈ t.builds, e.nvr = b.nvr.display ∧ e.packageName = b.nvr.name ∧
      allows (t.packageView event (t.chain id)) b.nvr.name = true := by
  obtain ⟨b, hb, rfl⟩ := exists_shown_of_mem_shownBuilds h
  exact ⟨b.build, mem_builds_of_mem_shownTaggings hb, rfl, rfl,
    (List.mem_filter.mp (mem_of_mem_firstOfEach hb)).2⟩

/-! ### Builds a tag shows as its own -/

/-- Whether a tag shows a build that is tagged into it, by the build's name. -/
def shows (t : Tables) (d : TagId) (n : Nvr) : Bool :=
  t.holdsBuild d n && t.sees d (.package n.name) = some false

lemma allows_eq (hrow : t.tag? d = some row) (name : String) :
    allows (t.packageView none (t.chain d)) name =
      decide (t.sees d (.package name) = some false) := by
  rw [← package?_map_blocked hrow, package?, allows]
  rcases (t.packageView none (t.chain d)).find? name with _ | p
  · rfl
  · rcases hb : p.blocked with _ | _ <;> simp [hb]

lemma mem_own_shownTaggings (hrow : t.tag? d = some row) {b : Tagging}
    (h : b ∈ t.shownTaggings d false none) :
    b.tag.id = d ∧ t.isTagged d b.build.id ∧ t.sees d (.package b.build.nvr.name) = some false := by
  obtain ⟨hmem, hallowed⟩ := List.mem_filter.mp (mem_of_mem_firstOfEach h)
  rw [allows_eq hrow, decide_eq_true_eq] at hallowed
  simp only [sources, hrow, Bool.false_eq_true, if_false, Option.toList_some,
    List.flatMap_cons, List.flatMap_nil, List.append_nil, mem_taggingsOn_iff] at hmem
  obtain ⟨htag, r, hr, hrtag, hbuild⟩ := hmem
  have hid := id_of_tag? hrow
  refine ⟨by rw [htag, hid], ?_, hallowed⟩
  simp only [isTagged, History.hasActive, List.any_eq_true, Bool.and_eq_true, decide_eq_true_eq]
  have hbid : b.build.id = r.build := by simpa using List.find?_some hbuild
  exact ⟨r, hr, by rw [hrtag, hid], hbid.symm⟩

/-- **The builds a tag shows as its own** are those tagged into it whose packages it sees. -/
theorem shows_iff (ht : t.Sound) (hrow : t.tag? d = some row) {n : Nvr} :
    t.shows d n ↔ n.display ∈ (t.shownBuilds d false false none).map BuildEntry.nvr ∧
      Nvr.parse? n.display = some n := by
  simp only [shows, Bool.and_eq_true, decide_eq_true_eq, shownBuilds, Bool.false_eq_true, if_false,
    List.map_map, List.mem_map, Function.comp_apply]
  constructor
  · rintro ⟨hholds, hsees⟩
    obtain ⟨b, hb, htagged⟩ : ∃ b, t.buildNamed? n = some b ∧ t.isTagged d b.id := by
      unfold holdsBuild at hholds
      rcases hb : t.buildNamed? n with _ | b
      · rw [hb] at hholds
        cases hholds
      · exact ⟨b, rfl, by rwa [hb] at hholds⟩
    have hmem : b ∈ t.builds := List.mem_of_find?_eq_some hb
    have hn : b.nvr = n := by simpa using List.find?_some hb
    simp only [isTagged, History.hasActive, List.any_eq_true, Bool.and_eq_true,
      decide_eq_true_eq] at htagged
    obtain ⟨r, hr, hrtag, hrbuild⟩ := htagged
    have htagging : (⟨b, row⟩ : Tagging) ∈ t.taggingsOn none row :=
      mem_taggingsOn_iff.mpr
        ⟨rfl, r, hr, by rw [hrtag, id_of_tag? hrow], by rw [hrbuild]; exact ht.build?_self hmem⟩
    have hallowed : (⟨b, row⟩ : Tagging) ∈
        ((t.sources d false).flatMap (t.taggingsOn none)).filter fun b =>
          allows (t.packageView none (t.chain d)) b.build.nvr.name := by
      refine List.mem_filter.mpr ⟨?_, by rw [allows_eq hrow, hn]; exact decide_eq_true hsees⟩
      exact List.mem_flatMap.mpr ⟨row, mem_sources_of_tag? hrow false, htagging⟩
    have hseen : Tagging.name ⟨b, row⟩ ∉ [] := List.not_mem_nil
    obtain ⟨first, hfirst, hname⟩ := name_mem_firstOfEach hallowed hseen
    exact ⟨⟨first, hfirst, by rw [← hn]; exact hname⟩, by rw [← hn]; exact ht.readable b hmem⟩
  · rintro ⟨⟨b, hb, hname⟩, hparse⟩
    obtain ⟨-, htagged, hsees⟩ := mem_own_shownTaggings hrow hb
    have hmem := mem_builds_of_mem_shownTaggings hb
    have hn : b.build.nvr = n := by
      have hread := ht.readable b.build hmem
      rw [show b.build.nvr.display = n.display from hname, hparse] at hread
      exact (Option.some.inj hread).symm
    rw [hn] at hsees
    refine ⟨?_, hsees⟩
    rw [holdsBuild, ← hn, ht.buildNamed?_self hmem]
    exact htagged

/-! ### Snapshots -/

/-- The snapshot of a tag with the listings in scope. -/
def snapshot (t : Tables) (tag : TagInfo) (event : Option EventId) (scope : FetchScope) :
    Snapshot :=
  ((((Snapshot.ofTag tag).atEvent event).withPackages
    (if scope.packages then t.listPackages tag.id true event else [])).withBuilds
    (if scope.builds then t.shownBuilds tag.id scope.inheritBuilds scope.latestOnly event
      else [])).withGroups
    (if scope.groups then t.listGroups tag.id event else [])

variable {tag : TagInfo} {scope : FetchScope}

@[simp] lemma snapshot_tag : (t.snapshot tag event scope).tag = tag := rfl

lemma snapshot_packages : (t.snapshot tag event scope).packages.NamedBy PackageEntry.name :=
  .foldl_insertNew (PackageEntry.stamp tag.id) _ .empty

lemma snapshot_builds : (t.snapshot tag event scope).builds.NamedBy BuildEntry.nvr :=
  .foldl_insertNew (BuildEntry.stamp tag.id) _ .empty

lemma snapshot_groups : (t.snapshot tag event scope).groups.NamedBy GroupEntry.name :=
  .foldl_insertNew (GroupEntry.stamp tag.id) _ .empty

lemma packageView_named (t : Tables) (event : Option EventId) (tags : List TagRow) :
    (t.packageView event tags).NamedBy PackageEntry.name := by
  intro key p hp
  rw [find?_packageView] at hp
  simpa using List.find?_some hp

lemma groupView_named (t : Tables) (event : Option EventId) (tags : List TagRow) :
    (t.groupView event tags).NamedBy GroupEntry.name := by
  intro key g hg
  rw [find?_groupView] at hg
  obtain ⟨a, ha, rfl⟩ := Option.map_eq_some_iff.mp hg
  rw [withMembers_name]
  simpa using List.find?_some ha

lemma snapshot_find?_package (h : scope.packages) (name : String) :
    (t.snapshot tag event scope).packages.find? name =
      ((t.packageView event (t.chain tag.id)).find? name).map (PackageEntry.stamp tag.id) := by
  have hlist : t.listPackages tag.id true event =
      (t.packageView event (t.chain tag.id)).values := rfl
  simp only [snapshot, Snapshot.withGroups, Snapshot.withBuilds, Snapshot.withPackages,
    Snapshot.ofTag, Snapshot.atEvent, h, if_true, hlist]
  rw [Keyed.find?_foldl_insertNew PackageEntry.name (PackageEntry.stamp tag.id),
    (packageView_named t event _).find?_values]
  exact Option.none_or

lemma snapshot_find?_group (h : scope.groups) (name : String) :
    (t.snapshot tag event scope).groups.find? name =
      ((t.groupView event (t.chain tag.id)).find? name).map (GroupEntry.stamp tag.id) := by
  simp only [snapshot, Snapshot.withGroups, Snapshot.withBuilds, Snapshot.withPackages,
    Snapshot.ofTag, Snapshot.atEvent, h, if_true, listGroups]
  rw [Keyed.find?_foldl_insertNew GroupEntry.name (GroupEntry.stamp tag.id),
    (groupView_named t event _).find?_values]
  exact Option.none_or

lemma snapshot_activeGroup? (h : scope.groups) (name : String) :
    Diff.activeGroup? (t.snapshot tag event scope) name =
      (((t.groupView event (t.chain tag.id)).find? name).filter fun g => !g.blocked).map
        (GroupEntry.stamp tag.id) := by
  rw [Diff.activeGroup?, snapshot_find?_group h, Option.filter_map]
  rfl

lemma snapshot_find?_build (h : scope.builds) (nvr : String) :
    (t.snapshot tag event scope).builds.find? nvr =
      ((t.shownBuilds tag.id scope.inheritBuilds scope.latestOnly event).find?
        (·.nvr == nvr)).map (BuildEntry.stamp tag.id) := by
  simp only [snapshot, Snapshot.withGroups, Snapshot.withBuilds, Snapshot.withPackages,
    Snapshot.ofTag, Snapshot.atEvent, h, if_true]
  rw [Keyed.find?_foldl_insertNew BuildEntry.nvr (BuildEntry.stamp tag.id)]
  exact Option.none_or

/-- The builds of a snapshot are those that are listed. -/
lemma mem_snapshot_builds {b : BuildEntry} (h : scope.builds = true) :
    b ∈ (t.snapshot tag event scope).builds.values ↔
      ∃ e ∈ t.shownBuilds tag.id scope.inheritBuilds scope.latestOnly event,
        e.stamp tag.id = b := by
  rw [(snapshot_builds (t := t)).mem_values, snapshot_find?_build h, Option.map_eq_some_iff]
  constructor
  · rintro ⟨e, he, rfl⟩
    exact ⟨e, List.mem_of_find?_eq_some he, rfl⟩
  · rintro ⟨e, he, rfl⟩
    exact ⟨e, find?_key (nodup_shownBuilds ..) he, rfl⟩

/-- Every build of a snapshot is one of the hub, under its own name, and of a package that is
listed. -/
lemma mem_builds_of_mem_snapshot {b : BuildEntry}
    (h : b ∈ (t.snapshot tag event scope).builds.values) :
    scope.builds = true ∧ ∃ r ∈ t.builds, b.nvr = r.nvr.display ∧
      allows (t.packageView event (t.chain tag.id)) r.nvr.name = true := by
  rw [(snapshot_builds (t := t)).mem_values] at h
  rcases hscope : scope.builds with _ | _
  · have hnone : (t.snapshot tag event scope).builds = .empty := by
      simp [snapshot, Snapshot.withGroups, Snapshot.withBuilds, Snapshot.withPackages,
        Snapshot.ofTag, Snapshot.atEvent, hscope]
    rw [hnone] at h
    cases h
  · rw [snapshot_find?_build hscope] at h
    obtain ⟨e, he, rfl⟩ := Option.map_eq_some_iff.mp h
    obtain ⟨r, hr, hnvr, -, hallowed⟩ :=
      mem_builds_of_mem_shownBuilds (List.mem_of_find?_eq_some he)
    exact ⟨rfl, r, hr, hnvr, hallowed⟩

/-- **What a tag sees stays** when only a tag it does not inherit from is changed. -/
theorem Confined.snapshot_eq {c : Clock} {t' : Tables} {n : EventId} {m m' : Option EventId}
    (e : Confined c d t t') (hw : t.WrittenTo n) (hm : SameMoment n m m')
    (hid : d ∉ t.walk [tag.id] []) :
    t'.snapshot tag m' scope = (t.snapshot tag m scope).atEvent m' := by
  simp only [snapshot, shownBuilds, e.listPackages_eq hw hm hid, e.listGroups_eq hw hm hid,
    e.shownTaggings_eq hw hm hid]
  rfl

/-! ### The snapshot of a destination -/

section Destination

variable {selection : ClassSelection} {name : String} {g : GroupEntry}

lemma isDirect_classify {source dest : TagId} :
    (Ownership.classify source dest).isDirect = decide (source = dest) := by
  unfold Ownership.classify
  split <;> rename_i h <;> simp [h, Ownership.isDirect]

lemma destination_activeGroup? (h : selection.groups) (name : String) :
    Diff.activeGroup? (t.snapshot tag none (.destination selection)) name =
      ((t.group? tag.id name).filter fun g => !g.blocked).map (GroupEntry.stamp tag.id) :=
  snapshot_activeGroup? h name

lemma destination_members (h : selection.groups)
    (hg : Diff.activeGroup? (t.snapshot tag none (.destination selection)) name = some g)
    (package : String) :
    g.members.find? package =
      ((t.memberView none (t.chain tag.id) name).find? package).map
        (GroupMember.stamp tag.id) := by
  rw [destination_activeGroup? h] at hg
  obtain ⟨a, ha, rfl⟩ := Option.map_eq_some_iff.mp hg
  obtain ⟨ha, hblocked⟩ := Option.filter_eq_some_iff.mp ha
  rw [GroupEntry.stamp, Keyed.find?_map, group?_members ha (by simpa using hblocked)]

variable (hrow : t.tag? tag.id = some row)

include hrow

lemma destination_package (h : selection.packages) (name : String) :
    ((t.snapshot tag none (.destination selection)).packages.find? name).map
      PackageEntry.blocked = t.sees tag.id (.package name) := by
  rw [snapshot_find?_package h, Option.map_map, ← package?_map_blocked hrow]
  rfl

/-- A group is active in the snapshot when the tag sees it, and not blocked. -/
lemma destination_activeGroup?_isSome (h : selection.groups) (name : String) :
    (Diff.activeGroup? (t.snapshot tag none (.destination selection)) name).isSome ↔
      t.sees tag.id (.group name) = some false := by
  rw [destination_activeGroup? h, Option.isSome_map, ← group?_map_blocked hrow]
  rcases t.group? tag.id name with _ | g
  · simp
  · rcases hg : g.blocked with _ | _ <;> simp [Option.filter, hg]

lemma destination_activeGroup?_eq_none (h : selection.groups) (name : String) :
    Diff.activeGroup? (t.snapshot tag none (.destination selection)) name = none ↔
      t.sees tag.id (.group name) ≠ some false := by
  rw [← not_iff_not, ne_eq, not_not, ← destination_activeGroup?_isSome hrow h]
  exact Option.ne_none_iff_isSome

lemma destination_group_isDirect (h : selection.groups)
    (hg : Diff.activeGroup? (t.snapshot tag none (.destination selection)) name = some g) :
    g.ownership.isDirect = (t.own tag.id (.group name)).isSome := by
  rw [destination_activeGroup? h] at hg
  obtain ⟨a, ha, rfl⟩ := Option.map_eq_some_iff.mp hg
  have ha := (Option.filter_eq_some_iff.mp ha).1
  rw [GroupEntry.stamp, isDirect_classify, Bool.eq_iff_iff, decide_eq_true_eq,
    group?_isOwn hrow ha]

lemma destination_member (h : selection.groups)
    (hg : Diff.activeGroup? (t.snapshot tag none (.destination selection)) name = some g)
    (package : String) :
    (g.members.find? package).map GroupMember.blocked =
      t.sees tag.id (.member name package) := by
  rw [destination_members h hg, Option.map_map, ← memberView_map_blocked hrow]
  rfl

lemma destination_member_isDirect (h : selection.groups)
    (hg : Diff.activeGroup? (t.snapshot tag none (.destination selection)) name = some g)
    {package : String} {m : GroupMember} (hm : g.members.find? package = some m) :
    m.ownership.isDirect = (t.own tag.id (.member name package)).isSome := by
  rw [destination_members h hg] at hm
  obtain ⟨a, ha, rfl⟩ := Option.map_eq_some_iff.mp hm
  rw [GroupMember.stamp, isDirect_classify, Bool.eq_iff_iff, decide_eq_true_eq,
    memberView_isOwn hrow ha]

/-- Only builds of its own are in the snapshot of a destination. -/
lemma destination_build_isDirect (h : selection.builds) {b : BuildEntry}
    (hb : b ∈ (t.snapshot tag none (.destination selection)).builds.values) :
    b.ownership.isDirect = true := by
  rw [(snapshot_builds (t := t)).mem_values, snapshot_find?_build h] at hb
  obtain ⟨e, he, rfl⟩ := Option.map_eq_some_iff.mp hb
  have he : e ∈ (t.shownTaggings tag.id false none).map Tagging.shown :=
    List.mem_of_find?_eq_some he
  obtain ⟨x, hx, rfl⟩ := List.mem_map.mp he
  rw [BuildEntry.stamp, isDirect_classify, decide_eq_true_eq]
  exact (mem_own_shownTaggings hrow hx).1

lemma destination_build (ht : t.Sound) (h : selection.builds) {n : Nvr}
    (hn : Nvr.parse? n.display = some n) :
    (t.snapshot tag none (.destination selection)).builds.contains n.display =
      t.shows tag.id n := by
  rw [Bool.eq_iff_iff, shows_iff ht hrow, Keyed.contains_eq_isSome, snapshot_find?_build h,
    Option.isSome_map, List.find?_isSome]
  simp [hn, FetchScope.destination, FetchScope.source]

end Destination

end Tables

/-! ### Fetching -/

namespace Hub

open Dialog

variable {h : Hub} {tag : TagInfo}

lemma listing_eq {α : Type} {id : TagId} (hid : (h.tables.tag? id).isSome)
    (a : Except Failure α) : h.listing id a = a := by
  unfold listing
  rw [if_pos hid]

lemma outcome_listPackages (hid : (h.tables.tag? tag.id).isSome) (inherited : Bool)
    (event : Option EventId) :
    outcome session (ask (.listPackages tag.id inherited event)) h =
      (.ok (h.tables.listPackages tag.id inherited event), h) := by
  rw [outcome_ask]
  exact congrArg (·, h) (listing_eq hid _)

lemma outcome_listBuilds (ht : h.tables.Sound) (hid : (h.tables.tag? tag.id).isSome)
    (inherited latestOnly : Bool) (event : Option EventId) :
    outcome session (ask (.listBuilds tag.id inherited latestOnly event)) h =
      (.ok (h.tables.shownBuilds tag.id inherited latestOnly event), h) := by
  rw [outcome_ask]
  exact congrArg (·, h) ((listing_eq hid _).trans (Tables.listBuilds_eq ht ..))

lemma outcome_listGroups (hid : (h.tables.tag? tag.id).isSome) (event : Option EventId) :
    outcome session (ask (.listGroups tag.id event)) h =
      (.ok (h.tables.listGroups tag.id event), h) := by
  rw [outcome_ask]
  exact congrArg (·, h) (listing_eq hid _)

/-- **A fetch gives what the tables say** and leaves the hub as it is. -/
theorem outcome_fetch (ht : h.tables.Sound) (hid : (h.tables.tag? tag.id).isSome)
    (event : Option EventId) (scope : FetchScope) :
    outcome session (Snapshot.fetch tag event scope) h =
      (.ok (h.tables.snapshot tag event scope), h) := by
  obtain ⟨packages, builds, groups, inheritBuilds, latestOnly⟩ := scope
  -- a listing out of scope is an empty answer to the request that is not made
  have hpackages : outcome session
      (pure [] : Dialog (Request.listPackages tag.id true event).Answer) h = (.ok [], h) := rfl
  have hbuilds : outcome session
      (pure [] : Dialog (Request.listBuilds tag.id inheritBuilds latestOnly event).Answer) h =
      (.ok [], h) := rfl
  have hgroups : outcome session
      (pure [] : Dialog (Request.listGroups tag.id event).Answer) h = (.ok [], h) := rfl
  cases packages <;> cases builds <;> cases groups <;>
    simp [-outcome_ask, Snapshot.fetch, outcome_listPackages hid, outcome_listBuilds ht hid,
      outcome_listGroups hid, hpackages, hbuilds, hgroups, Tables.snapshot]

end Hub

end TagSync
