import TagSync.Proofs.Answers

/-!
What the listings of a tag have to do with its chain, and with one another.

A listing takes every package, every group and every member by itself from the first tag of the
chain that has a row of it. The listing of the tag alone is the part of the whole listing that
comes from the tag. For builds this holds, too: which packages a listing of builds allows depends
on the whole chain, even when only the tag's own builds are listed.
-/

namespace TagSync

namespace Tables

variable {α κ : Type} {t : Tables} {id : TagId} {row : TagRow} {event : Option EventId}

/-! ### First rows -/

/-- Of all rows of one name, a row on the first one of some tags that has any. -/
def Leads (tags : List TagRow) (rows : List α) (owner : α → TagId) (name : α → κ) (tag : TagRow)
    (r : α) : Prop :=
  r ∈ rows ∧ owner r = tag.id ∧
    ∃ before after, tags = before ++ tag :: after ∧
      ∀ a ∈ before, ∀ x ∈ rows, name x = name r → owner x ≠ a.id

section Leads

variable {rows : List α} {owner : α → TagId} {name : α → κ} {tags : List TagRow}
  {tag : TagRow} {r : α} {k : κ}

lemma Leads.head {rest : List TagRow} (hr : r ∈ rows) (howner : owner r = tag.id) :
    Leads (tag :: rest) rows owner name tag r :=
  ⟨hr, howner, [], rest, rfl, nofun⟩

/-- A tag without a row of the name is passed over. -/
lemma leads_cons_iff {a : TagRow} {rest : List TagRow}
    (hnone : ∀ x ∈ rows, name x = name r → owner x ≠ a.id) :
    Leads (a :: rest) rows owner name tag r ↔ Leads rest rows owner name tag r := by
  constructor
  · rintro ⟨hr, howner, before, after, hsplit, hbefore⟩
    rcases before with _ | ⟨b, before⟩
    · obtain ⟨rfl, rfl⟩ := List.cons.inj hsplit
      exact absurd howner (hnone r hr rfl)
    · obtain ⟨rfl, rfl⟩ := List.cons.inj hsplit
      exact ⟨hr, howner, before, after, rfl, fun x hx => hbefore x (.tail _ hx)⟩
  · rintro ⟨hr, howner, before, after, rfl, hbefore⟩
    exact ⟨hr, howner, a :: before, after, rfl, List.forall_mem_cons.mpr ⟨hnone, hbefore⟩⟩

/-- Where no tag has two rows of one name, the row that is found first leads. -/
lemma find?_rowsAlong [DecidableEq κ] (hnodup : (rows.map fun r => (owner r, name r)).Nodup) :
    ((rowsAlong tags fun tag => rows.filter (owner · = tag.id)).find? fun x => name x.2 = k) =
        some (tag, r) ↔ name r = k ∧ Leads tags rows owner name tag r := by
  induction tags with
  | nil => simp [rowsAlong, Leads]
  | cons a rest ih =>
    have hstep : ((rowsAlong (a :: rest) fun tag => rows.filter (owner · = tag.id)).find?
        fun x => name x.2 = k) =
          (((rows.filter (owner · = a.id)).find? (name · = k)).map fun r => (a, r)).or
            ((rowsAlong rest fun tag => rows.filter (owner · = tag.id)).find?
              fun x => name x.2 = k) := by
      simp only [rowsAlong, List.flatMap_cons, List.find?_append, List.find?_map,
        Function.comp_def]
    rw [hstep]
    rcases hown : (rows.filter (owner · = a.id)).find? (name · = k) with _ | r'
    · rw [Option.map_none, Option.none_or, ih]
      refine and_congr_right fun hk => (leads_cons_iff fun x hx hname howner => ?_).symm
      have hmem : x ∈ rows.filter (owner · = a.id) :=
        List.mem_filter.mpr ⟨hx, by simpa using howner⟩
      exact List.find?_eq_none.mp hown x hmem (by simp [hname, hk])
    · obtain ⟨hr', howner'⟩ := List.mem_filter.mp (List.mem_of_find?_eq_some hown)
      have howner' : owner r' = a.id := by simpa using howner'
      have hk' : name r' = k := by simpa using List.find?_some hown
      rw [Option.map_some, Option.some_or, Option.some.injEq, Prod.mk.injEq]
      constructor
      · rintro ⟨rfl, rfl⟩
        exact ⟨hk', .head hr' howner'⟩
      · rintro ⟨hk, hr, howner, before, after, hsplit, hbefore⟩
        rcases before with _ | ⟨b, before⟩
        · obtain ⟨rfl, rfl⟩ := List.cons.inj hsplit
          exact ⟨rfl, List.inj_on_of_nodup_map hnodup hr' hr (by rw [howner, howner', hk, hk'])⟩
        · obtain ⟨rfl, rfl⟩ := List.cons.inj hsplit
          exact absurd howner' (hbefore _ (.head _) r' hr' (hk'.trans hk.symm))

end Leads

/-! ### Packages, groups and members -/

section Entries

variable (hs : t.Successive)

include hs

lemma find?_packageView_iff {tags : List TagRow} {name : String} {p : PackageEntry} :
    (t.packageView event tags).find? name = some p ↔ ∃ tag r, r.package = name ∧
      Leads tags (t.packages.active event) PackageRow.tag PackageRow.package tag r ∧
        p = r.entry tag := by
  have hfound : (t.packageView event tags).find? name =
      ((rowsAlong tags fun tag => (t.packages.active event).filter (·.tag = tag.id)).find?
        fun x => x.2.package = name).map fun x => x.2.entry x.1 :=
    (find?_packageView ..).trans
      (find?_entries PackageRow.package PackageEntry.name PackageRow.entry (fun _ _ => rfl) ..)
  simp only [hfound, Option.map_eq_some_iff, Prod.exists, and_assoc, eq_comm (b := p),
    find?_rowsAlong (hs.packages.nodup_active event)]

/-- Every package comes from the first tag that has a row of it. -/
lemma mem_listPackages_iff {inherited : Bool} {p : PackageEntry} :
    p ∈ t.listPackages id inherited event ↔ ∃ tag r,
      Leads (t.sources id inherited) (t.packages.active event) PackageRow.tag PackageRow.package
        tag r ∧ p = r.entry tag := by
  simp only [listPackages, Keyed.mem_values_iff, find?_packageView_iff hs]
  constructor
  · rintro ⟨_, tag, r, rfl, hlead⟩
    exact ⟨tag, r, hlead⟩
  · rintro ⟨tag, r, hlead⟩
    exact ⟨r.package, tag, r, rfl, hlead⟩

/-- Every member comes from the first tag that has a row of it, wherever the group comes from. -/
lemma find?_memberView_iff {tags : List TagRow} {group package : String} {m : GroupMember} :
    (t.memberView event tags group).find? package = some m ↔ ∃ tag r,
      (r.group, r.package) = (group, package) ∧
      Leads tags (t.members.active event) MemberRow.tag (fun r => (r.group, r.package)) tag r ∧
        m = r.entry tag := by
  simp only [find?_memberView_rows, Option.map_eq_some_iff, Prod.exists, eq_comm (b := m),
    find?_rowsAlong (hs.members.nodup_active event), and_assoc]

lemma mem_listGroups_iff {g : GroupEntry} :
    g ∈ t.listGroups id event ↔ ∃ tag r,
      Leads (t.chain id) (t.groups.active event) GroupRow.tag GroupRow.group tag r ∧
        g = (r.entry tag).filled (t.memberView event (t.chain id) r.group) := by
  have hfound : ∀ name, ((t.chain id).flatMap (t.groupsOn event)).find? (·.name == name) =
      ((rowsAlong (t.chain id) fun tag => (t.groups.active event).filter (·.tag = tag.id)).find?
        fun x => x.2.group = name).map fun x => x.2.entry x.1 := fun name =>
    find?_entries GroupRow.group GroupEntry.name GroupRow.entry (fun _ _ => rfl) ..
  simp only [listGroups, Keyed.mem_values_iff, find?_groupView_filled, hfound, Option.map_map,
    Option.map_eq_some_iff, Prod.exists, find?_rowsAlong (hs.groups.nodup_active event),
    Function.comp_apply]
  constructor
  · rintro ⟨_, tag, r, ⟨rfl, hlead⟩, rfl⟩
    exact ⟨tag, r, hlead, rfl⟩
  · rintro ⟨tag, r, hlead, rfl⟩
    exact ⟨r.group, tag, r, ⟨rfl, hlead⟩, rfl⟩

end Entries

/-! ### Own packages and own builds -/

/-- A row leads from the tag itself just when the tag has it. -/
lemma leads_own_iff (hrow : t.tag? id = some row) {rows : List α} {owner : α → TagId}
    {name : α → κ} {tag : TagRow} {r : α} :
    Leads [row] rows owner name tag r ↔ Leads (t.chain id) rows owner name tag r ∧ tag.id = id := by
  rw [chain_eq hrow]
  constructor
  · rintro ⟨hr, howner, before, after, hsplit, -⟩
    obtain rfl : row = tag := by
      have hmem : tag ∈ [row] := hsplit ▸ List.mem_append_right _ (.head _)
      exact (List.mem_singleton.mp hmem).symm
    exact ⟨.head hr howner, id_of_tag? hrow⟩
  · rintro ⟨⟨hr, howner, before, after, hsplit, -⟩, hid⟩
    obtain rfl : row = tag := by
      have hmem : tag ∈ row :: t.ancestors id := hsplit ▸ List.mem_append_right _ (.head _)
      rcases List.mem_cons.mp hmem with rfl | hmem
      · rfl
      · exact absurd hid (id_ne_of_mem_ancestors hmem)
    exact .head hr howner

lemma listPackages_direct (hs : t.Successive) (hrow : t.tag? id = some row) :
    t.listPackages id false event =
      (t.listPackages id true event).filter (·.sourceTagId = id) := by
  have hascending : ∀ inherited, (t.listPackages id inherited event).Pairwise fun p q =>
      p.name < q.name := fun _ => (packageView_named t event _).pairwise_values
  refine Keyed.eq_of_ascending (hascending false) ((hascending true).filter _) fun p => ?_
  have hsources : t.sources id false = [row] := by simp [sources, hrow]
  simp only [List.mem_filter, decide_eq_true_eq, mem_listPackages_iff hs, hsources,
    leads_own_iff hrow]
  constructor
  · rintro ⟨tag, r, ⟨hlead, hid⟩, rfl⟩
    exact ⟨⟨tag, r, hlead, rfl⟩, hid⟩
  · rintro ⟨⟨tag, r, hlead, rfl⟩, hid⟩
    exact ⟨tag, r, ⟨hlead, hid⟩, rfl⟩

/-- What comes first of a list comes first of a longer one. -/
lemma exists_firstOfEach_append (name : α → String) (seen : List String) (l l' : List α) :
    ∃ seen', firstOfEach name seen (l ++ l') =
      firstOfEach name seen l ++ firstOfEach name seen' l' := by
  induction l generalizing seen with
  | nil => exact ⟨seen, rfl⟩
  | cons a rest ih =>
    rw [List.cons_append, firstOfEach, firstOfEach]
    split
    · exact ih seen
    · obtain ⟨seen', h⟩ := ih (name a :: seen)
      exact ⟨seen', by rw [h, List.cons_append]⟩

lemma shownTaggings_direct (hrow : t.tag? id = some row) :
    t.shownTaggings id false event =
      (t.shownTaggings id true event).filter (·.tag.id = id) := by
  have htag : ∀ a, ∀ b ∈ t.taggingsOn event a, b.tag = a := fun a b hb =>
    (mem_taggingsOn_iff.mp hb).1
  have hfalse : (t.sources id false).flatMap (t.taggingsOn event) = t.taggingsOn event row := by
    simp [sources, hrow]
  have htrue : (t.sources id true).flatMap (t.taggingsOn event) =
      t.taggingsOn event row ++ (t.ancestors id).flatMap (t.taggingsOn event) := by
    simp [sources, chain_eq hrow]
  dsimp only [shownTaggings]
  rw [hfalse, htrue, List.filter_append]
  obtain ⟨seen, hfirst⟩ := exists_firstOfEach_append Tagging.name []
    ((t.taggingsOn event row).filter fun b =>
      allows (t.packageView event (t.chain id)) b.build.nvr.name)
    (((t.ancestors id).flatMap (t.taggingsOn event)).filter fun b =>
      allows (t.packageView event (t.chain id)) b.build.nvr.name)
  rw [hfirst, List.filter_append]
  refine (List.append_nil _).symm.trans (congrArg₂ (· ++ ·)
    (List.filter_eq_self.mpr fun b hb => ?_).symm
    (List.filter_eq_nil_iff.mpr fun b hb => ?_).symm)
  · have hmem := (List.mem_filter.mp (mem_of_mem_firstOfEach hb)).1
    rw [htag row b hmem, id_of_tag? hrow]
    exact decide_eq_true rfl
  · have hmem := (List.mem_filter.mp (mem_of_mem_firstOfEach hb)).1
    obtain ⟨a, ha, hb⟩ := List.mem_flatMap.mp hmem
    rw [htag a b hb]
    simpa using id_ne_of_mem_ancestors ha

lemma shownBuilds_direct (hrow : t.tag? id = some row) :
    t.shownBuilds id false false event =
      (t.shownBuilds id true false event).filter (·.sourceTagId = id) := by
  simp only [shownBuilds, Bool.false_eq_true, if_false, List.filter_map, shownTaggings_direct hrow]
  rfl

/-! ### Builds that are tagged -/

lemma allows_iff {name : String} :
    allows (t.packageView event (t.chain id)) name = true ↔
      ∃ p ∈ t.listPackages id true event, p.name = name ∧ p.blocked = false := by
  have hnamed := packageView_named t event (t.chain id)
  simp only [allows, Option.any_eq_true, Bool.not_eq_true']
  constructor
  · rintro ⟨p, hp, hblocked⟩
    exact ⟨p, Keyed.mem_values_iff.mpr ⟨name, hp⟩, hnamed _ _ hp, hblocked⟩
  · rintro ⟨p, hp, rfl, hblocked⟩
    exact ⟨p, hnamed.mem_values.mp hp, hblocked⟩

/-- A build that is tagged is shown just when its package is allowed. -/
lemma shown_iff_allows (hs : t.Sound) {inherited : Bool} {tag : TagRow}
    (htag : tag ∈ t.sources id inherited) {r : TaggingRow} (hr : r ∈ t.taggings.active event)
    (hrtag : r.tag = tag.id) {b : BuildRow} (hb : t.build? r.build = some b) :
    (∃ e ∈ t.shownBuilds id inherited false event, e.nvr = b.nvr.display) ↔
      allows (t.packageView event (t.chain id)) b.nvr.name = true := by
  have hmem : b ∈ t.builds := List.mem_of_find?_eq_some hb
  constructor
  · rintro ⟨e, he, hname⟩
    obtain ⟨b', hb', hname', -, hallowed⟩ := mem_builds_of_mem_shownBuilds he
    rwa [hs.eq_of_display_eq hmem hb' (hname.symm.trans hname')]
  · intro hallowed
    have htagging : (⟨b, tag⟩ : Tagging) ∈
        ((t.sources id inherited).flatMap (t.taggingsOn event)).filter fun b =>
          allows (t.packageView event (t.chain id)) b.build.nvr.name := by
      refine List.mem_filter.mpr ⟨List.mem_flatMap.mpr ⟨tag, htag, ?_⟩, hallowed⟩
      exact mem_taggingsOn_iff.mpr ⟨rfl, r, hr, hrtag, hb⟩
    have hseen : Tagging.name ⟨b, tag⟩ ∉ [] := List.not_mem_nil
    obtain ⟨first, hfirst, hname⟩ := name_mem_firstOfEach htagging hseen
    exact ⟨first.shown, List.mem_map_of_mem hfirst, hname⟩

/-- Whatever is shown is tagged. -/
lemma tagging_of_mem_shownBuilds {inherited : Bool} {e : BuildEntry}
    (h : e ∈ t.shownBuilds id inherited false event) :
    ∃ tag ∈ t.sources id inherited, ∃ r ∈ t.taggings.active event, ∃ b,
      r.tag = tag.id ∧ t.build? r.build = some b ∧ e = (⟨b, tag⟩ : Tagging).shown := by
  obtain ⟨⟨b, tag⟩, hb, rfl⟩ := List.mem_map.mp h
  obtain ⟨a, ha, hmem⟩ :=
    List.mem_flatMap.mp (List.mem_filter.mp (mem_of_mem_firstOfEach hb)).1
  obtain ⟨rfl, r, hr, hrtag, hbuild⟩ := mem_taggingsOn_iff.mp hmem
  exact ⟨tag, ha, r, hr, b, hrtag, hbuild, rfl⟩

/-! ### The listings together -/

/-- The members of a group: each one by itself from the first of some tags that has a row of
it. -/
def MembersLead (t : Tables) (event : Option EventId) (tags : List TagRow) (group : String)
    (members : Keyed GroupMember) : Prop :=
  ∀ package m, members.find? package = some m ↔ ∃ tag r,
    Leads tags (t.members.active event) MemberRow.tag (fun r => (r.group, r.package)) tag r ∧
      r.group = group ∧ r.package = package ∧ m = r.entry tag

/-- What the listings of a tag at an event are, whatever the database answers each time. -/
structure ListingsAgree (t : Tables) (id : TagId) (event : Option EventId) : Prop where
  packages_ascend : ∀ (q : t.Answers event) inherited,
    (q.listPackages id inherited).Pairwise fun p p' => p.name < p'.name
  packages_lead : ∀ (q : t.Answers event) inherited p, p ∈ q.listPackages id inherited ↔
    ∃ tag r, Leads (t.sources id inherited) (t.packages.active event) PackageRow.tag
      PackageRow.package tag r ∧ p = r.entry tag
  packages_direct : ∀ q q' : t.Answers event,
    q.listPackages id false = (q'.listPackages id true).filter (·.sourceTagId = id)
  groups_ascend : ∀ q : t.Answers event, (q.listGroups id).Pairwise fun g g' => g.name < g'.name
  /-- A group that is blocked is not filled with its members. -/
  groups_lead : ∀ (q : t.Answers event) g, g ∈ q.listGroups id ↔
    ∃ tag r members, Leads (t.chain id) (t.groups.active event) GroupRow.tag GroupRow.group tag r ∧
      t.MembersLead event (t.chain id) r.group members ∧ g = (r.entry tag).filled members
  builds_once : ∀ (q : t.Answers event) inherited latestOnly, ∃ builds,
    q.listBuilds id inherited latestOnly = .ok builds ∧ (builds.map BuildEntry.nvr).Nodup
  builds_direct : ∀ (q q' : t.Answers event) builds, q'.listBuilds id true false = .ok builds →
    q.listBuilds id false false = .ok (builds.filter (·.sourceTagId = id))
  builds_tagged : ∀ (q : t.Answers event) inherited builds,
    q.listBuilds id inherited false = .ok builds → ∀ e ∈ builds,
      ∃ tag ∈ t.sources id inherited, ∃ r ∈ t.taggings.active event, ∃ b,
        r.tag = tag.id ∧ t.build? r.build = some b ∧ e = (⟨b, tag⟩ : Tagging).shown
  /-- Whether a build that is tagged is listed depends on the packages, with all that is
  inherited. -/
  builds_listed : ∀ (q q' : t.Answers event) inherited builds,
    q.listBuilds id inherited false = .ok builds → ∀ tag ∈ t.sources id inherited,
      ∀ r ∈ t.taggings.active event, r.tag = tag.id → ∀ b, t.build? r.build = some b →
        ((∃ e ∈ builds, e.nvr = b.nvr.display) ↔
          ∃ p ∈ q'.listPackages id true, p.name = b.nvr.name ∧ p.blocked = false)

lemma memberView_lead (hs : t.Successive) (tags : List TagRow) (group : String) :
    t.MembersLead event tags group (t.memberView event tags group) := by
  intro package m
  simp only [find?_memberView_iff hs, Prod.mk.injEq]
  constructor
  · rintro ⟨tag, r, ⟨hgroup, hpackage⟩, hlead, hm⟩
    exact ⟨tag, r, hlead, hgroup, hpackage, hm⟩
  · rintro ⟨tag, r, hlead, hgroup, hpackage, hm⟩
    exact ⟨tag, r, ⟨hgroup, hpackage⟩, hlead, hm⟩

/-- The members are determined by where they come from. -/
lemma MembersLead.unique {tags : List TagRow} {group : String}
    {members members' : Keyed GroupMember} (h : t.MembersLead event tags group members)
    (h' : t.MembersLead event tags group members') :
    members = members' :=
  Keyed.ext_find? fun package => Option.ext fun m => (h package m).trans (h' package m).symm

lemma listingsAgree (hs : t.Sound) (hsucc : t.Successive) (hi : t.taggings.InTurn)
    (hrow : t.tag? id = some row) (event : Option EventId) : t.ListingsAgree id event where
  packages_ascend q inherited := by
    rw [q.listPackages_eq hsucc]
    exact (packageView_named t event _).pairwise_values
  packages_lead q inherited p := by
    rw [q.listPackages_eq hsucc]
    exact mem_listPackages_iff hsucc
  packages_direct q q' := by
    rw [q.listPackages_eq hsucc, q'.listPackages_eq hsucc]
    exact listPackages_direct hsucc hrow
  groups_ascend q := by
    rw [q.listGroups_eq hsucc]
    exact (groupView_named t event _).pairwise_values
  groups_lead q g := by
    rw [q.listGroups_eq hsucc, mem_listGroups_iff hsucc]
    constructor
    · rintro ⟨tag, r, hlead, rfl⟩
      exact ⟨tag, r, _, hlead, memberView_lead hsucc _ _, rfl⟩
    · rintro ⟨tag, r, members, hlead, hmembers, rfl⟩
      exact ⟨tag, r, hlead, by rw [hmembers.unique (memberView_lead hsucc _ _)]⟩
  builds_once q inherited latestOnly := by
    refine ⟨_, (q.listBuilds_eq hsucc hi ..).trans (listBuilds_eq hs ..), ?_⟩
    exact nodup_shownBuilds ..
  builds_direct q q' builds h := by
    rw [q'.listBuilds_eq hsucc hi, listBuilds_eq hs] at h
    rw [q.listBuilds_eq hsucc hi, listBuilds_eq hs, shownBuilds_direct hrow, Except.ok.inj h]
  builds_tagged q inherited builds h e he := by
    rw [q.listBuilds_eq hsucc hi, listBuilds_eq hs] at h
    rw [← Except.ok.inj h] at he
    exact tagging_of_mem_shownBuilds he
  builds_listed q q' inherited builds h tag htag r hr hrtag b hb := by
    rw [q.listBuilds_eq hsucc hi, listBuilds_eq hs] at h
    rw [← Except.ok.inj h, q'.listPackages_eq hsucc, shown_iff_allows hs htag hr hrtag hb,
      allows_iff]

end Tables

namespace Hub

variable {h : Hub} {id : TagId} {row : TagRow}

/-- **The listings of a tag agree**, on every hub and at every event: with its chain, and with one
another. What the hub answers to a request is one of these listings, in whatever order its database
gives the rows. -/
theorem listings_agree (hr : h.Reachable) (hrow : h.tables.tag? id = some row)
    (event : Option EventId) :
    h.tables.ListingsAgree id event ∧ ∀ q : h.tables.Answers event,
      (∀ inherited, (h.session (.listPackages id inherited event)).answer =
        .ok (q.listPackages id inherited)) ∧
      (∀ inherited latestOnly, (h.session (.listBuilds id inherited latestOnly event)).answer =
        q.listBuilds id inherited latestOnly) ∧
      (h.session (.listGroups id event)).answer = .ok (q.listGroups id) := by
  have hthere : (h.tables.tag? id).isSome := by
    rw [hrow]
    rfl
  refine ⟨Tables.listingsAgree hr.sound hr.successive hr.inTurn hrow event, fun q =>
    ⟨fun inherited => ?_, fun inherited latestOnly => ?_, ?_⟩⟩
  · rw [q.listPackages_eq hr.successive]
    exact listing_eq hthere _
  · rw [q.listBuilds_eq hr.successive hr.inTurn]
    exact listing_eq hthere _
  · rw [q.listGroups_eq hr.successive]
    exact listing_eq hthere _

/-! ### Two tags that inherit from each other -/

/-- The tag `a` has the package `x` before `b` does, and the group `g` of `b` has a member on
each. -/
def entwined : Seed :=
  { schemaVersion := 0, users := [⟨"u", ["admin"]⟩]
    builds := [
      { package := "x", version := "1", release := "1", owner := "u" },
      { package := "y", version := "1", release := "1", owner := "u" }]
    tags := [
      { name := "a", parents := [{ name := "b" }], packages := [{ name := "x", owner := "u" }]
        builds := ["x-1-1", "y-1-1"], groups := [{ name := "h", blocked := true }] },
      { name := "b", parents := [{ name := "a" }]
        packages := [{ name := "y", owner := "u" }, { name := "x", owner := "v", blocked := true }]
        builds := ["y-1-1"], groups := [{ name := "g", members := [{ name := "x" }] }] }] }

/-- After the import the tag `b` loses what `a` got from it. -/
def entwinedHub : Hub :=
  ((({ user := "u" } : Hub).importSeed entwined).2.session
    (.multicall 2 [.blockPackage "y", .removeGroup "g"] {})).state

lemma reachable_entwinedHub : entwinedHub.Reachable :=
  .request _ (.importSeed (show entwined.check .empty = .ok () from rfl) (.start "u" _))

/-- The database answers from the end of every table, about the event of the import. -/
def entwinedAnswers : entwinedHub.tables.Answers (some 1) :=
  .backwards (some 1) reachable_entwinedHub.inTurn

/-- At the event of the import the package `y` of `b` was not blocked yet, so the build of it that
is tagged into `a` is listed. -/
theorem listings_agree_entwined :
    (entwinedAnswers.listPackages 1 true).map (fun p => (p.name, p.sourceTagId, p.blocked)) =
        [("x", 1, false), ("y", 2, false)] ∧
      (entwinedAnswers.listGroups 1).map (fun g => (g.name, g.sourceTagId, g.members.keys)) =
        [("g", 2, ["x"]), ("h", 1, [])] ∧
      (∀ q : entwinedHub.tables.Answers (some 1), q.listPackages 1 false =
        (entwinedAnswers.listPackages 1 true).filter (·.sourceTagId = 1)) ∧
      (∃ builds, entwinedAnswers.listBuilds 1 false false = .ok builds ∧
        ∃ e ∈ builds, e.nvr = "y-1-1") ∧
      (entwinedHub.session (.listGroups 1 (some 1))).answer =
        .ok (entwinedAnswers.listGroups 1) := by
  have hrow : (entwinedHub.tables.tag? 1).map TagRow.name = some "a" := by decide +kernel
  obtain ⟨row, hrow, -⟩ := Option.map_eq_some_iff.mp hrow
  obtain ⟨hagree, hsession⟩ := listings_agree reachable_entwinedHub hrow (some 1)
  have hparents : entwinedHub.tables.parents 1 = [2] ∧ entwinedHub.tables.parents 2 = [1] := by
    decide +kernel
  have hchain : entwinedHub.tables.chain 1 = [1, 2].filterMap entwinedHub.tables.tag? := by
    rw [Tables.chain]
    simp [Tables.walk, hparents]
  have hpackages : (entwinedAnswers.listPackages 1 true).map
      (fun p => (p.name, p.sourceTagId, p.blocked)) = [("x", 1, false), ("y", 2, false)] := by
    rw [Tables.Answers.listPackages, Tables.sources, if_pos rfl, hchain]
    decide +kernel
  have hgroups : (entwinedAnswers.listGroups 1).map
      (fun g => (g.name, g.sourceTagId, g.members.keys)) = [("g", 2, ["x"]), ("h", 1, [])] := by
    rw [Tables.Answers.listGroups, hchain]
    decide +kernel
  obtain ⟨builds, hbuilds, -⟩ := hagree.builds_once entwinedAnswers false false
  have hbuild : (entwinedHub.tables.build? 2).map (·.nvr) = some ⟨"y", "1", "1"⟩ := by
    decide +kernel
  obtain ⟨b, hb, hnvr⟩ := Option.map_eq_some_iff.mp hbuild
  have hlisted := hagree.builds_listed entwinedAnswers entwinedAnswers false builds hbuilds row
    (by simp [Tables.sources, hrow]) ⟨1, 2⟩ (by decide +kernel) (Tables.id_of_tag? hrow).symm b hb
  have hallowed : ("y", 2, false) ∈ (entwinedAnswers.listPackages 1 true).map
      fun p => (p.name, p.sourceTagId, p.blocked) := by
    rw [hpackages]
    decide
  obtain ⟨p, hp, hentry⟩ := List.mem_map.mp hallowed
  simp only [Prod.mk.injEq] at hentry
  rw [hnvr] at hlisted
  exact ⟨hpackages, hgroups, fun q => hagree.packages_direct q entwinedAnswers,
    ⟨builds, hbuilds, hlisted.mpr ⟨p, hp, hentry.1, hentry.2.2⟩⟩, (hsession entwinedAnswers).2.2⟩

end Hub

end TagSync
