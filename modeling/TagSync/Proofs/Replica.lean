import TagSync.Proofs.Blank
import TagSync.Proofs.Exchanges
import TagSync.Proofs.Past

/-!
Copies of a tag under a new name.

A tag that is made for a run holds what the source asks for, and nothing else. What it lists
afterwards is what the source lists, but for what is blocked, or not complete.
-/

namespace TagSync

/-- What a listing says about a package, apart from where it is recorded. -/
def PackageEntry.listed (p : PackageEntry) : String × String × Bool × Option String :=
  (p.name, p.owner, p.blocked, p.extraArches)

namespace GroupEntry

variable {g : GroupEntry} {package : String}

/-- A group with the names of its members that are not blocked. -/
def roster (g : GroupEntry) : String × List String := (g.name, g.activeMembers.map Prod.fst)

lemma mem_map_activeMembers : package ∈ g.activeMembers.map Prod.fst ↔ g.hasActive package := by
  rw [Diff.hasActive_iff, Option.map_eq_some_iff, List.mem_map]
  constructor
  · rintro ⟨p, hp, rfl⟩
    exact ⟨p.2, Diff.mem_activeMembers.mp hp⟩
  · rintro ⟨m, hm⟩
    exact ⟨(package, m), Diff.mem_activeMembers.mpr hm, rfl⟩

lemma ascending_activeMembers (g : GroupEntry) :
    (g.activeMembers.map Prod.fst).Pairwise (· < ·) := by
  rw [List.pairwise_map]
  exact g.members.ascending.filter _

lemma hasActive_stamp (g : GroupEntry) (d : TagId) (package : String) :
    (g.stamp d).hasActive package = g.hasActive package := by
  rw [hasActive, hasActive, stamp, Keyed.find?_map, Option.any_map]
  rfl

/-- The rosters of two groups agree if their names and their active members do. -/
lemma roster_eq {g' : GroupEntry} (hname : g.name = g'.name)
    (h : ∀ package, g.hasActive package = g'.hasActive package) : g.roster = g'.roster := by
  have hmembers : g.activeMembers.map Prod.fst = g'.activeMembers.map Prod.fst :=
    Keyed.eq_of_ascending g.ascending_activeMembers g'.ascending_activeMembers fun package => by
      rw [mem_map_activeMembers, mem_map_activeMembers, h]
  rw [roster, roster, hname, hmembers]

end GroupEntry

namespace Tables

/-- **A copy of a tag**: it shows now what the source shows at an event, without blocked groups
and members and with complete builds only, all of them its own. -/
structure Replica (t : Tables) (src : TagId) (event : Option EventId) (inheritBuilds : Bool)
    (t' : Tables) (dst : TagId) : Prop where
  packages : (t'.listPackages dst true none).map PackageEntry.listed =
    (t.listPackages src true event).map PackageEntry.listed
  builds : ∃ shown own, t.listBuilds src inheritBuilds false event = .ok shown ∧
    t'.listBuilds dst false false none = .ok own ∧
    (own.map BuildEntry.nvr).Perm ((shown.filter BuildEntry.isComplete).map BuildEntry.nvr)
  groups : (t'.listGroups dst none).map GroupEntry.roster =
    ((t.listGroups src event).filter fun g => !g.blocked).map GroupEntry.roster
  active : ∀ g ∈ t'.listGroups dst none, g.blocked = false ∧
    ∀ p ∈ g.members.entries, p.2.blocked = false

variable {t t' : Tables} {src : TagInfo} {event : Option EventId} {d : TagId} {row : TagRow}
  {w : Wish} {inheritBuilds : Bool} {o : DiffOptions}

/-- What a tag lists as its own in a place above which there is nothing. -/
lemma package?_map_listed (hrow : t.tag? d = some row) {name : String}
    (habove : t.above d (.package name) = none) :
    (t.package? d none name).map PackageEntry.listed =
      (t.packageRow? d name).map fun r => (r.package, r.owner, r.blocked, r.extraArches) := by
  rw [above, Option.map_eq_none_iff, find?_packageView] at habove
  have hown : ((t.packagesOn none row).find? (·.name == name)).map PackageEntry.listed =
      (t.packageRow? row.id name).map
        fun r => (r.package, r.owner, r.blocked, r.extraArches) := by
    simp [packagesOn, packageRow?, History.current, List.find?_map, List.find?_filter,
      Function.comp_def, Bool.decide_and, beq_eq_decide, PackageEntry.listed]
  rw [package?, find?_packageView, chain_eq hrow, List.flatMap_cons, List.find?_append, habove,
    Option.or_none, hown, id_of_tag? hrow]

/-- The wishes of a source that is read as a whole. -/
def wishes (t : Tables) (src : TagInfo) (event : Option EventId) (inheritBuilds : Bool)
    (o : DiffOptions) : Wish :=
  Wish.ofSnapshot (t.snapshot src event (.source .all inheritBuilds false)) o

section

variable (ht' : t'.Sound) (hrow : t'.tag? d = some row)
  (hlayers : t'.layers d = ⟨(t.wishes src event inheritBuilds o).record, fun _ => none⟩)

include hlayers

lemma sees_of_record (s : Slot) : t'.sees d s = (t.wishes src event inheritBuilds o).record s := by
  rw [← layers_sees, hlayers, Layers.sees, Option.or_none]

include hrow

/-- A tag that holds what a source wishes lists its packages. -/
lemma listPackages_of_record
    (hrows : ∀ name, t'.packageRow? d name =
      ((t.snapshot src event (.source .all inheritBuilds false)).packages.find? name).map
        fun e => ⟨d, name, e.owner, e.blocked, e.extraArches⟩) :
    (t'.listPackages d true none).map PackageEntry.listed =
      (t.listPackages src.id true event).map PackageEntry.listed := by
  have habove : t'.above d = fun _ => none := congrArg Layers.above hlayers
  have hviews : (t'.packageView none (t'.chain d)).map PackageEntry.listed =
      (t.packageView event (t.chain src.id)).map PackageEntry.listed := by
    refine Keyed.ext_find? fun name => ?_
    have hown := package?_map_listed hrow (congrFun habove (.package name))
    rw [package?] at hown
    rw [Keyed.find?_map, Keyed.find?_map, hown, hrows, snapshot_find?_package rfl, Option.map_map,
      Option.map_map]
    refine Option.map_congr fun e he => ?_
    have hname := packageView_named t event _ name e he
    rw [PackageEntry.listed, hname]
    rfl
  rw [listPackages, listPackages, ← Keyed.values_map, ← Keyed.values_map]
  exact congrArg Keyed.values hviews

omit hrow hlayers in
/-- A source wishes the complete builds that it shows. -/
lemma wishes_build_iff (ht : t.Sound) (ho : o.latestOnly = false) (n : Nvr) :
    (t.wishes src event inheritBuilds o).build n = true ↔ Nvr.parse? n.display = some n ∧
      n.display ∈ ((t.shownBuilds src.id inheritBuilds false event).filter
        BuildEntry.isComplete).map BuildEntry.nvr := by
  let s := t.snapshot src event (.source .all inheritBuilds false)
  have hwanted : ∀ b, b ∈ Diff.wantedBuilds s o ↔
      (∃ e ∈ t.shownBuilds src.id inheritBuilds false event, e.stamp src.id = b) ∧
        b.isComplete := by
    intro b
    simp only [Diff.wantedBuilds, ho, Bool.false_eq_true, if_false, List.mem_filter]
    exact and_congr_left' (mem_snapshot_builds rfl)
  simp only [wishes, wish_build_iff, List.mem_map, List.mem_filter]
  constructor
  · rintro ⟨b, hb, hn⟩
    have hnvr := display_of_parse? ht (comparable_snapshot ..) (Diff.mem_of_mem_wantedBuilds hb) hn
    obtain ⟨⟨e, he, rfl⟩, hcomplete⟩ := (hwanted b).mp hb
    exact ⟨by rwa [← hnvr], e, ⟨he, hcomplete⟩, hnvr⟩
  · rintro ⟨hn, e, ⟨he, hcomplete⟩, hnvr⟩
    exact ⟨_, (hwanted _).mpr ⟨⟨e, he, rfl⟩, hcomplete⟩, by rwa [← hnvr] at hn⟩

include ht'

/-- A tag that holds what a source wishes lists its complete builds. -/
lemma listBuilds_of_record (ht : t.Sound) (ho : o.latestOnly = false) :
    ((t'.shownBuilds d false false none).map BuildEntry.nvr).Perm
      (((t.shownBuilds src.id inheritBuilds false event).filter BuildEntry.isComplete).map
        BuildEntry.nvr) := by
  refine (List.perm_ext_iff_of_nodup (nodup_shownBuilds ..)
    ((nodup_shownBuilds ..).sublist (List.filter_sublist.map _))).mpr fun nvr => ?_
  have hiff : ∀ n : Nvr, Nvr.parse? n.display = some n →
      (n.display ∈ (t'.shownBuilds d false false none).map BuildEntry.nvr ↔
        n.display ∈ ((t.shownBuilds src.id inheritBuilds false event).filter
          BuildEntry.isComplete).map BuildEntry.nvr) := by
    intro n hn
    have hlisted : (t.wishes src event inheritBuilds o).Listed := listed_ofSnapshot ht fun _ => rfl
    have hshows := shows_iff ht' hrow (n := n)
    rw [← layers_shows, hlayers, Wish.shows_record hlisted, wishes_build_iff ht ho] at hshows
    exact ⟨fun h => (hshows.mpr ⟨h, hn⟩).2, fun h => (hshows.mp ⟨hn, h⟩).1⟩
  constructor
  · intro h
    obtain ⟨e, he, rfl⟩ := List.mem_map.mp h
    obtain ⟨b, hb, hnvr, -⟩ := mem_builds_of_mem_shownBuilds he
    rw [hnvr] at h ⊢
    exact (hiff b.nvr (ht'.readable b hb)).mp h
  · intro h
    obtain ⟨e, he, rfl⟩ := List.mem_map.mp h
    obtain ⟨b, hb, hnvr, -⟩ := mem_builds_of_mem_shownBuilds (List.mem_filter.mp he).1
    rw [hnvr] at h ⊢
    exact (hiff b.nvr (ht.readable b hb)).mpr h

omit ht'

/-! ### Groups -/

/-- No group and no member is blocked where a wish is recorded. -/
lemma active_of_record {g : GroupEntry} (hg : g ∈ t'.listGroups d none) :
    g.blocked = false ∧ ∀ p ∈ g.members.entries, p.2.blocked = false := by
  have hfind : t'.group? d g.name = some g := (groupView_named t' none _).mem_values.mp hg
  have hblocked : g.blocked = false := by
    have hseen := group?_map_blocked hrow g.name
    rw [hfind, sees_of_record hlayers, Wish.record, Option.map_some] at hseen
    split at hseen
    · exact Option.some.inj hseen
    · cases hseen
  refine ⟨hblocked, fun p hp => ?_⟩
  have hseen := memberView_map_blocked hrow g.name p.1
  rw [← group?_members hfind hblocked, Keyed.find?_eq_some_iff.mpr hp, sees_of_record hlayers,
    Wish.record, Option.map_some] at hseen
  split at hseen
  · exact Option.some.inj hseen
  · cases hseen

/-- A group that is wished has the members that are wished. -/
lemma hasActive_of_record {g : GroupEntry} {name : String} (hfind : t'.group? d name = some g)
    (hwish : (t.wishes src event inheritBuilds o).group name = true) (package : String) :
    g.hasActive package = (t.wishes src event inheritBuilds o).member name package := by
  have hseen := group?_map_blocked hrow name
  rw [hfind, sees_of_record hlayers, Wish.record, if_pos hwish, Option.map_some] at hseen
  have hmember := memberView_map_blocked hrow name package
  rw [← group?_members hfind (Option.some.inj hseen), sees_of_record hlayers, Wish.record,
    hwish, Bool.true_and] at hmember
  rw [Bool.eq_iff_iff, Diff.hasActive_iff, hmember]
  simp

/-- Group by group, a tag that holds what a source wishes has its rosters. -/
lemma roster_of_record (name : String) :
    ((t'.group? d name).filter fun g => !g.blocked).map GroupEntry.roster =
      (((t.groupView event (t.chain src.id)).find? name).filter fun g => !g.blocked).map
        GroupEntry.roster := by
  have hsource : Diff.activeGroup? (t.snapshot src event (.source .all inheritBuilds false)) name =
      _ := snapshot_activeGroup? rfl name
  have hwish : (t.wishes src event inheritBuilds o).group name = _ :=
    congrArg Option.isSome hsource
  have hseen := group?_map_blocked hrow name
  rw [sees_of_record hlayers, Wish.record] at hseen
  rcases ha :
    ((t.groupView event (t.chain src.id)).find? name).filter fun g => !g.blocked with _ | a
  · rw [ha] at hwish
    rw [hwish] at hseen
    rw [ha, Option.map_eq_none_iff.mp hseen, Option.filter_none]
  · rw [ha] at hwish hsource
    have hwish : (t.wishes src event inheritBuilds o).group name = true := hwish
    rw [if_pos hwish] at hseen
    obtain ⟨g, hg, hblocked⟩ := Option.map_eq_some_iff.mp hseen
    have hname : g.name = a.name := (group?_name hg).trans
      (groupView_named t event _ name a (Option.filter_eq_some_iff.mp ha).1).symm
    rw [ha, hg, Option.filter_some_pos (by simp [hblocked]), Option.map_some, Option.map_some,
      GroupEntry.roster_eq hname fun package => ?_]
    rw [hasActive_of_record hrow hlayers hg hwish]
    simp only [wishes, Wish.ofSnapshot, hsource, Option.map_some, Option.any_some,
      GroupEntry.hasActive_stamp]

/-- A tag that holds what a source wishes lists its groups. -/
lemma listGroups_of_record :
    (t'.listGroups d none).map GroupEntry.roster =
      ((t.listGroups src.id event).filter fun g => !g.blocked).map GroupEntry.roster := by
  have hactive : (t'.listGroups d none).filter (fun g => !g.blocked) = t'.listGroups d none :=
    List.filter_eq_self.mpr fun g hg => by simp [(active_of_record hrow hlayers hg).1]
  have hascending : ∀ {m : Keyed GroupEntry}, m.NamedBy GroupEntry.name →
      ((m.values.filter fun g => !g.blocked).map GroupEntry.roster).Pairwise
        fun a b => a.1 < b.1 := fun hm => by
    rw [List.pairwise_map]
    exact hm.pairwise_values.filter _
  rw [← hactive]
  refine Keyed.eq_of_ascending (hascending (groupView_named t' none _))
    (hascending (groupView_named t event _)) fun x => ?_
  rw [listGroups, listGroups, Keyed.mem_map_filter_values_iff, Keyed.mem_map_filter_values_iff]
  exact exists_congr fun name => by rw [← roster_of_record hrow hlayers]; rfl

include ht'

/-- **A tag that holds what a source wishes is a copy of it.** -/
theorem replica_of_record (ht : t.Sound) (ho : o.latestOnly = false)
    (hrows : ∀ name, t'.packageRow? d name =
      ((t.snapshot src event (.source .all inheritBuilds false)).packages.find? name).map
        fun e => ⟨d, name, e.owner, e.blocked, e.extraArches⟩) :
    t.Replica src.id event inheritBuilds t' d where
  packages := listPackages_of_record hrow hlayers hrows
  builds := ⟨_, _, listBuilds_eq ht .., listBuilds_eq ht' ..,
    listBuilds_of_record ht' hrow hlayers ht ho⟩
  groups := listGroups_of_record hrow hlayers
  active := fun _ hg => active_of_record hrow hlayers hg

end

end Tables

end TagSync
