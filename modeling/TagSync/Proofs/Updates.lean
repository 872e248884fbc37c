import TagSync.Proofs.Delivery
import TagSync.Proofs.Shadowing

/-!
What calls make of the view of a tag.

Every accepted call is an update of three things its tag shows: the map of its packages, the map of
its groups with their members, and the list of the builds tagged into it (`Tables.Updates`). Calls
that take a record away bring what the rest of the chain shows in its place.
-/

namespace TagSync

/-- What a tag shows: the packages and groups that it sees, by name, and the builds that are tagged
into it. -/
structure View where
  packages : Keyed PackageEntry
  packages_named : packages.NamedBy PackageEntry.name
  groups : Keyed GroupEntry
  groups_named : groups.NamedBy GroupEntry.name
  builds : List BuildEntry

namespace View

/-- The builds of other packages. -/
def buildsBut (v : View) (package : String) : List BuildEntry :=
  v.builds.filter fun b => b.packageName ≠ package

end View

namespace Tables

variable {c : Clock} {t t' : Tables} {row : TagRow} {flags : CallFlags} {event : EventId}

/-- What a tag shows now. -/
def view (t : Tables) (d : TagId) : View where
  packages := t.packageView none (t.chain d)
  packages_named := packageView_named t none _
  groups := t.groupView none (t.chain d)
  groups_named := groupView_named t none _
  builds := t.shownBuilds d false false none

/-! ### The update of every call -/

/-- What an accepted call for a tag makes of its view: of `v` before it `v'` after it. The tables
before it say what lies above the tag and which builds there are. -/
def Updates (t : Tables) (tag : TagInfo) (v v' : View) : Operation → Prop
  | .addPackage package owner blocked extraArches =>
    v'.packages = v.packages.insert package
      { name := package, owner, blocked, extraArches
        sourceTagId := tag.id, sourceTagName := tag.name } ∧
    v'.groups = v.groups ∧
    v'.buildsBut package = v.buildsBut package ∧
    (blocked → v'.builds = v.buildsBut package) ∧
    (allows v.packages package = !blocked → v'.builds = v.builds)
  | .blockPackage package =>
    (∃ p, v.packages.find? package = some p ∧
      v'.packages = v.packages.insert package
        { name := package, owner := p.owner, blocked := true, extraArches := p.extraArches
          sourceTagId := tag.id, sourceTagName := tag.name }) ∧
    v'.groups = v.groups ∧ v'.builds = v.buildsBut package
  | .addGroup group =>
    v'.groups = v.groups.insert group
      { name := group, sourceTagId := tag.id
        members := t.memberView none (t.chain tag.id) group } ∧
    v'.packages = v.packages ∧ v'.builds = v.builds
  | .removeGroup group =>
    v'.groups = v.groups.put group ((t.groupView none (t.ancestors tag.id)).find? group) ∧
    v'.packages = v.packages ∧ v'.builds = v.builds
  | .blockGroup group =>
    v.groups.contains group ∧
    v'.groups = v.groups.insert group
      { name := group, blocked := true, sourceTagId := tag.id } ∧
    v'.packages = v.packages ∧ v'.builds = v.builds
  | .addGroupPackage group package =>
    (∃ g, v.groups.find? group = some g ∧ g.blocked = false) ∧
    v'.groups = v.groups.modify group (fun g =>
      { g with members := g.members.insert package { sourceTagId := tag.id } }) ∧
    v'.packages = v.packages ∧ v'.builds = v.builds
  | .removeGroupPackage group package =>
    v'.groups = v.groups.modify group (fun g =>
      if g.blocked then g
      else { g with
        members := g.members.put package
          ((t.memberView none (t.ancestors tag.id) group).find? package) }) ∧
    v'.packages = v.packages ∧ v'.builds = v.builds
  | .blockGroupPackage group package =>
    (∃ g, v.groups.find? group = some g ∧ g.blocked = false) ∧
    v'.groups = v.groups.modify group (fun g =>
      { g with members := g.members.insert package { blocked := true, sourceTagId := tag.id } }) ∧
    v'.packages = v.packages ∧ v'.builds = v.builds
  | .tagBuild nvr =>
    (∃ n b state, Nvr.parse? nvr = some n ∧ t.buildNamed? n = some b ∧
      BuildState.parse b.state = .ok state ∧
      v'.builds =
        if allows v.packages n.name then
          { nvr, packageName := n.name, version := n.version, release := n.release, state
            owner := b.owner, sourceTagId := tag.id, sourceTagName := tag.name } :: v.builds
        else v.builds) ∧
    v'.packages = v.packages ∧ v'.groups = v.groups
  | .untagBuild nvr =>
    v'.builds = v.builds.filter (fun b => b.nvr ≠ nvr) ∧
    v'.packages = v.packages ∧ v'.groups = v.groups

/-! ### Tables that differ in the records of one tag -/

/-- Both tables have the tag `row`, and the same above it. -/
structure SameAbove (row : TagRow) (t t' : Tables) : Prop where
  found : t.tag? row.id = some row
  found' : t'.tag? row.id = some row
  ancestors : t'.ancestors row.id = t.ancestors row.id
  packages : t'.packageView none (t.ancestors row.id) = t.packageView none (t.ancestors row.id)
  groups : t'.groupView none (t.ancestors row.id) = t.groupView none (t.ancestors row.id)
  members : ∀ group, t'.memberView none (t.ancestors row.id) group =
    t.memberView none (t.ancestors row.id) group

lemma Confined.sameAbove (e : Confined c row.id t t') (hs : t.Sound)
    (found : t.tag? row.id = some row) (htags : t'.tags = t.tags) : SameAbove row t t' := by
  have hw := hs.writtenTo
  have hm : SameMoment t.events.length none none := .inl rfl
  have habove : ∀ a ∈ t.ancestors row.id, a.id ≠ row.id := fun a => id_ne_of_mem_ancestors
  have found' : t'.tag? row.id = some row := by
    rw [Tables.tag?, htags]
    exact found
  exact ⟨found, found', e.ancestors_eq, e.packageView_eq hw hm habove,
    e.groupView_eq hw hm habove, e.memberView_eq hw hm habove⟩

/-- The builds in the view of a tag are those tagged into it whose packages it lists. -/
lemma view_builds (hs : t.Sound) (found : t.tag? row.id = some row) :
    (t.view row.id).builds = (t.taggedBuilds row).filter fun b =>
      allows (t.view row.id).packages b.packageName := shownBuilds_own hs found

/-- A package that is blocked shows no builds. -/
lemma buildsBut_of_blocked (hs : t.Sound) (found : t.tag? row.id = some row) {package : String}
    (h : allows (t.view row.id).packages package = false) :
    (t.view row.id).buildsBut package = (t.view row.id).builds := by
  rw [View.buildsBut, view_builds hs found, List.filter_filter]
  refine List.filter_congr fun b _ => ?_
  by_cases hb : b.packageName = package <;> simp [hb, h]

namespace SameAbove

variable (e : SameAbove row t t') {group package : String}

include e

/-! ### Packages -/

lemma find?_packages (name : String) :
    (t'.view row.id).packages.find? name =
      ((t'.packageRow? row.id name).map (PackageRow.entry row)).or
        ((t.packageView none (t.ancestors row.id)).find? name) := by
  rw [view, find?_packageView_chain e.found', e.ancestors, e.packages]

lemma packages_eq (same : t'.packages = t.packages) :
    (t'.view row.id).packages = (t.view row.id).packages := by
  refine Keyed.ext_find? fun name => ?_
  rw [e.find?_packages, packageRow?, same, view, find?_packageView_chain e.found, packageRow?]

/-- A package record of the tag's own is shown. -/
lemma packages_insert {r : PackageRow} (put : t'.packageRow? row.id r.package = some r)
    (others : ∀ name ≠ r.package, t'.packageRow? row.id name = t.packageRow? row.id name) :
    (t'.view row.id).packages = (t.view row.id).packages.insert r.package (r.entry row) := by
  refine Keyed.ext_find? fun name => ?_
  rw [e.find?_packages, Keyed.find?_insert]
  by_cases hname : r.package = name
  · subst hname
    rw [put, if_pos rfl]
    rfl
  · rw [others name (Ne.symm hname), if_neg hname, view, find?_packageView_chain e.found]

/-! ### Members -/

lemma find?_members (group package : String) :
    (t'.memberView none (t'.chain row.id) group).find? package =
      ((t'.own row.id (.member group package)).map
        fun blocked => { blocked, sourceTagId := row.id }).or
          ((t.memberView none (t.ancestors row.id) group).find? package) := by
  rw [find?_memberView_chain e.found', e.ancestors, e.members]

lemma members_eq (same : ∀ p, t'.own row.id (.member group p) = t.own row.id (.member group p)) :
    t'.memberView none (t'.chain row.id) group = t.memberView none (t.chain row.id) group := by
  refine Keyed.ext_find? fun p => ?_
  rw [e.find?_members, same, find?_memberView_chain e.found]

/-- Where only one member was written to, only it is shown in another way. -/
lemma members_put (others : ∀ p ≠ package,
      t'.own row.id (.member group p) = t.own row.id (.member group p)) :
    t'.memberView none (t'.chain row.id) group =
      (t.memberView none (t.chain row.id) group).put package
        (((t'.own row.id (.member group package)).map
          fun blocked => { blocked, sourceTagId := row.id }).or
            ((t.memberView none (t.ancestors row.id) group).find? package)) := by
  refine Keyed.ext_find? fun p => ?_
  rw [e.find?_members, Keyed.find?_put]
  by_cases hp : package = p
  · rw [if_pos hp, hp]
  · rw [if_neg hp, others p (Ne.symm hp), find?_memberView_chain e.found]

/-! ### Groups -/

lemma find?_groups (name : String) :
    (t'.view row.id).groups.find? name =
      (((t'.own row.id (.group name)).map
        fun blocked => { name, blocked, sourceTagId := row.id }).or
          ((t.groupView none (t.ancestors row.id)).find? name)).map
            (GroupEntry.filled (t'.memberView none (t'.chain row.id) name)) := by
  rw [view, find?_groupView_chain e.found', e.ancestors, e.groups]

lemma group_eq (same : t'.own row.id (.group group) = t.own row.id (.group group))
    (sameMembers : t'.memberView none (t'.chain row.id) group =
      t.memberView none (t.chain row.id) group) :
    (t'.view row.id).groups.find? group = (t.view row.id).groups.find? group := by
  rw [e.find?_groups, same, sameMembers, view, find?_groupView_chain e.found]

lemma groups_eq (groups : t'.groups = t.groups) (members : t'.members = t.members) :
    (t'.view row.id).groups = (t.view row.id).groups := by
  refine Keyed.ext_find? fun name => e.group_eq ?_ (e.members_eq fun p => ?_)
  · rw [own, own, groups]
  · rw [own, own, members]

/-- A group record of the tag's own is shown, with the members of the chain. -/
lemma groups_insert {blocked : Bool} (put : t'.own row.id (.group group) = some blocked)
    (others : ∀ s ≠ .group group, t'.own row.id s = t.own row.id s) :
    (t'.view row.id).groups = (t.view row.id).groups.insert group
      (GroupEntry.filled (t.memberView none (t.chain row.id) group)
        { name := group, blocked, sourceTagId := row.id }) := by
  have hmembers : ∀ k, t'.memberView none (t'.chain row.id) k =
      t.memberView none (t.chain row.id) k := fun k => e.members_eq fun p => others _ nofun
  refine Keyed.ext_find? fun name => ?_
  rw [Keyed.find?_insert]
  by_cases hname : group = name
  · subst hname
    rw [if_pos rfl, e.find?_groups, put, hmembers]
    rfl
  · have hother : Slot.group name ≠ .group group := fun h => hname (Slot.group.inj h).symm
    rw [if_neg hname, e.group_eq (others _ hother) (hmembers name)]

/-- Where a group record is taken away, with those of the members, what lies above is shown. -/
lemma groups_put (gone : t'.own row.id (.group group) = none)
    (goneMembers : ∀ p, t'.own row.id (.member group p) = none)
    (others : ∀ k ≠ group, t'.own row.id (.group k) = t.own row.id (.group k) ∧
      ∀ p, t'.own row.id (.member k p) = t.own row.id (.member k p)) :
    (t'.view row.id).groups = (t.view row.id).groups.put group
      ((t.groupView none (t.ancestors row.id)).find? group) := by
  refine Keyed.ext_find? fun name => ?_
  rw [Keyed.find?_put]
  by_cases hname : group = name
  · subst hname
    have hmembers : t'.memberView none (t'.chain row.id) group =
        t.memberView none (t.ancestors row.id) group :=
      Keyed.ext_find? fun p => by rw [e.find?_members, goneMembers]; rfl
    rw [if_pos rfl, e.find?_groups, gone, hmembers, Option.map_none, Option.none_or,
      find?_groupView_filled, Option.map_map]
    simp only [Function.comp_def, GroupEntry.filled_filled]
  · obtain ⟨hgroup, hmembers⟩ := others name (Ne.symm hname)
    rw [if_neg hname, e.group_eq hgroup (e.members_eq hmembers)]

/-- Where only one member was written to, the group shows it in another way if it shows members at
all, and all other groups stay. -/
lemma groups_modify
    (others : ∀ s ≠ .member group package, t'.own row.id s = t.own row.id s) :
    (t'.view row.id).groups = (t.view row.id).groups.modify group fun g =>
      g.filled (g.members.put package
        (((t'.own row.id (.member group package)).map
          fun blocked => { blocked, sourceTagId := row.id }).or
            ((t.memberView none (t.ancestors row.id) group).find? package))) := by
  refine Keyed.ext_find? fun name => ?_
  have hgroup : t'.own row.id (.group name) = t.own row.id (.group name) := others _ nofun
  rw [Keyed.find?_modify]
  by_cases hname : group = name
  · subst hname
    have hmembers := e.members_put fun p hp => others (.member group p) fun h =>
      hp (Slot.member.inj h).2
    rw [if_pos rfl, e.find?_groups, hgroup, hmembers, view, find?_groupView_chain e.found,
      Option.map_map]
    refine Option.map_congr fun g _ => ?_
    exact (GroupEntry.filled_members _ (Keyed.put · package _) g).symm
  · have hmembers := e.members_eq fun p => others (.member name p) fun h =>
      hname (Slot.member.inj h).1.symm
    rw [if_neg hname, e.group_eq hgroup hmembers]

/-- A member record of the tag's own is shown in a group that is active. -/
lemma groups_modify_insert {blocked : Bool}
    (active : ∃ g, (t.view row.id).groups.find? group = some g ∧ g.blocked = false)
    (put : t'.own row.id (.member group package) = some blocked)
    (others : ∀ s ≠ .member group package, t'.own row.id s = t.own row.id s) :
    (t'.view row.id).groups = (t.view row.id).groups.modify group fun g =>
      { g with members := g.members.insert package { blocked, sourceTagId := row.id } } := by
  obtain ⟨g, hg, hactive⟩ := active
  rw [e.groups_modify others, put]
  refine Keyed.modify_congr fun g' hg' => ?_
  obtain rfl := Option.some.inj (hg.symm.trans hg')
  exact if_neg (by simp [hactive])

/-! ### Builds -/

section

variable (hs : t.Sound) (hs' : t'.Sound) (tagged : t'.taggedBuilds row = t.taggedBuilds row)

include hs hs' tagged

lemma builds_eq (same : ∀ name, allows (t'.view row.id).packages name =
      allows (t.view row.id).packages name) :
    (t'.view row.id).builds = (t.view row.id).builds := by
  simp only [view_builds hs' e.found', view_builds hs e.found, tagged, same]

/-- Where a package is listed in another way, the builds of other packages stay. -/
lemma buildsBut_eq (others : ∀ name ≠ package, (t'.view row.id).packages.find? name =
      (t.view row.id).packages.find? name) :
    (t'.view row.id).buildsBut package = (t.view row.id).buildsBut package := by
  rw [View.buildsBut, View.buildsBut, view_builds hs' e.found', view_builds hs e.found, tagged,
    List.filter_filter, List.filter_filter]
  refine List.filter_congr fun b _ => ?_
  by_cases hb : b.packageName = package
  · simp [hb]
  · rw [allows, allows, others _ hb]

/-- A package record of the tag's own changes what the tag shows of this package. -/
lemma updates_package {r : PackageRow} (groups : t'.groups = t.groups)
    (members : t'.members = t.members) (put : t'.packageRow? row.id r.package = some r)
    (others : ∀ name ≠ r.package, t'.packageRow? row.id name = t.packageRow? row.id name) :
    (t'.view row.id).packages = (t.view row.id).packages.insert r.package (r.entry row) ∧
      (t'.view row.id).groups = (t.view row.id).groups ∧
      (t'.view row.id).buildsBut r.package = (t.view row.id).buildsBut r.package ∧
      (r.blocked → (t'.view row.id).builds = (t.view row.id).buildsBut r.package) ∧
      (allows (t.view row.id).packages r.package = !r.blocked →
        (t'.view row.id).builds = (t.view row.id).builds) := by
  have hpackages := e.packages_insert put others
  have hfind : ∀ name ≠ r.package, (t'.view row.id).packages.find? name =
      (t.view row.id).packages.find? name := by
    intro name hname
    rw [hpackages, Keyed.find?_insert, if_neg (Ne.symm hname)]
  have hallows : allows (t'.view row.id).packages r.package = !r.blocked := by
    rw [hpackages, allows, Keyed.find?_insert, if_pos rfl]
    rfl
  have hbuilds := e.buildsBut_eq hs hs' tagged hfind
  refine ⟨hpackages, e.groups_eq groups members, hbuilds, fun hblocked => ?_, fun hkept => ?_⟩
  · rw [← hbuilds]
    exact (buildsBut_of_blocked hs' e.found' (by rw [hallows, hblocked]; rfl)).symm
  · refine e.builds_eq hs hs' tagged fun name => ?_
    by_cases hname : name = r.package
    · rw [hname, hallows, hkept]
    · rw [allows, allows, hfind name hname]

end

end SameAbove

/-! ### Calls -/

/-- An operation that writes to one place leaves the others. -/
lemma own_of_write {d : TagId} {o : Operation} (place : Slot) {v : Option Bool}
    (hown : ∀ s, t'.own d s = (o.write? s).getD (t.own d s))
    (hwrite : ∀ s, o.write? s = if s = place then some v else none) :
    t'.own d place = v ∧ ∀ s ≠ place, t'.own d s = t.own d s := by
  refine ⟨?_, fun s hne => ?_⟩
  · rw [hown, hwrite, if_pos rfl, Option.getD_some]
  · rw [hown, hwrite, if_neg hne, Option.getD_none]

/-- The same content is stored, whatever else differs. -/
structure SameContent (t t' : Tables) : Prop where
  packages : t'.packages = t.packages
  taggings : t'.taggings = t.taggings
  groups : t'.groups = t.groups
  members : t'.members = t.members

lemma notifyIf_content (t : Tables) (flags : CallFlags) (n : Notice) :
    SameContent t (t.notifyIf flags n) := by
  unfold notifyIf
  split <;> exact ⟨rfl, rfl, rfl, rfl⟩

/-- A build as it is shown, from the text it was asked for by. -/
lemma shown_of_parse? {nvr : String} {n : Nvr} {b : BuildRow} {state : BuildState}
    (parsed : Nvr.parse? nvr = some n) (found : t.buildNamed? n = some b)
    (hstate : BuildState.parse b.state = .ok state) :
    (⟨b, row⟩ : Tagging).shown =
      { nvr, packageName := n.name, version := n.version, release := n.release, state
        owner := b.owner, sourceTagId := row.id, sourceTagName := row.name } := by
  have hn : b.nvr = n := by simpa using List.find?_some found
  rw [Tagging.shown_eq hstate, Tagging.name, hn, Nvr.display_of_parse? parsed]

section

variable {o : Operation} (hs : t.Sound) (found : t.tag? row.id = some row)

include hs found

/-- An event by itself changes nothing that a tag shows. -/
lemma sameAbove_newEvent (c : Clock) : SameAbove row t (t.newEvent c).1 :=
  (Confined.newEvent c row.id t).sameAbove hs found rfl

lemma exists_active (c : Clock) {group : String}
    (seen : ((t.newEvent c).1.group? row.id group).any fun g => !g.blocked) :
    ∃ g, (t.view row.id).groups.find? group = some g ∧ g.blocked = false := by
  obtain ⟨g, hg, hactive⟩ := (Option.any_eq_true _ _).mp seen
  rw [← (sameAbove_newEvent hs found c).groups_eq rfl rfl]
  exact ⟨g, hg, by simpa using hactive⟩

variable (h : t.call c row.info flags o = .ok t')

include h

lemma sameAbove_of_call : SameAbove row t t' :=
  Confined.sameAbove (confined_of_call h) hs found (tags_of_call h)

/-- Calls about groups leave packages and builds as they are. -/
lemma packages_builds_of_call (packages : t'.packages = t.packages)
    (taggings : t'.taggings = t.taggings) :
    (t'.view row.id).packages = (t.view row.id).packages ∧
      (t'.view row.id).builds = (t.view row.id).builds := by
  have e := sameAbove_of_call hs found h
  have hs' := (confined_of_call h).sound hs
  have hpackages := e.packages_eq packages
  have htagged := taggedBuilds_congr (confined_of_call h).builds (by rw [taggings])
  exact ⟨hpackages, e.builds_eq hs hs' (congrFun htagged row) fun _ => by rw [hpackages]⟩

/-- **Every accepted call is an update of the view** of its tag. -/
theorem updates_of_call : t.Updates row.info (t.view row.id) (t'.view row.id) o := by
  have e := sameAbove_of_call hs found h
  -- the call is judged by the tables with its event, which show what the tables before it do
  have e₁ := sameAbove_newEvent hs found c
  have hs' := (confined_of_call h).sound hs
  have hbuilds := (confined_of_call h).builds
  have hown : ∀ s, t'.own row.id s = (o.write? s).getD (t.own row.id s) := own_of_call hs h
  cases call_eq_ok h with
  | addPackage package owner blocked extraArches =>
    let r : PackageRow := ⟨row.id, package, owner, blocked, extraArches⟩
    have hrow := packageRow?_setPackage (t.newEvent c).1 (t.newEvent c).2 r
    exact e.updates_package hs hs' (r := r) (congrFun (taggedBuilds_congr rfl rfl) row) rfl rfl
      ((hrow package).trans (if_pos rfl)) fun name hname => (hrow name).trans (if_neg hname)
  | @blockPackage package p seen =>
    let r : PackageRow := ⟨row.id, package, p.owner, true, p.extraArches⟩
    have hrow := packageRow?_setPackage (t.newEvent c).1 (t.newEvent c).2 r
    have hseen : (t.view row.id).packages.find? package = some p := by
      rw [← e₁.packages_eq rfl]
      exact seen
    obtain ⟨hpackages, hgroups, -, hblocked, -⟩ := e.updates_package hs hs' (r := r)
      (congrFun (taggedBuilds_congr rfl rfl) row) rfl rfl ((hrow package).trans (if_pos rfl))
      fun name hname => (hrow name).trans (if_neg hname)
    exact ⟨⟨p, hseen, hpackages⟩, hgroups, hblocked rfl⟩
  | addGroup group =>
    obtain ⟨hput, hothers⟩ := own_of_write (.group group) hown fun _ => rfl
    exact ⟨e.groups_insert hput hothers, packages_builds_of_call hs found h rfl rfl⟩
  | @removeGroup group own =>
    refine ⟨e.groups_put ?_ (fun p => ?_) fun k hk => ⟨?_, fun p => ?_⟩,
      packages_builds_of_call hs found h rfl rfl⟩
    all_goals rw [hown]; simp only [Operation.write?, if_true, Option.getD_some]
    · rw [if_neg hk, Option.getD_none]
    · rw [if_neg hk, Option.getD_none]
  | @blockGroup group seen =>
    obtain ⟨hput, hothers⟩ := own_of_write (.group group) hown fun _ => rfl
    have hseen : (t.view row.id).groups.contains group = true := by
      rw [Keyed.contains_eq_isSome, ← e₁.groups_eq rfl rfl]
      exact seen
    exact ⟨hseen, e.groups_insert hput hothers, packages_builds_of_call hs found h rfl rfl⟩
  | @addGroupPackage group package seen =>
    obtain ⟨hput, hothers⟩ := own_of_write (.member group package) hown fun _ => rfl
    have hactive := exists_active hs found c seen
    exact ⟨hactive, e.groups_modify_insert hactive hput hothers,
      packages_builds_of_call hs found h rfl rfl⟩
  | @removeGroupPackage group package own =>
    obtain ⟨hgone, hothers⟩ := own_of_write (.member group package) hown fun _ => rfl
    refine ⟨?_, packages_builds_of_call hs found h rfl rfl⟩
    rw [e.groups_modify hothers, hgone]
    rfl
  | @blockGroupPackage group package seen =>
    obtain ⟨hput, hothers⟩ := own_of_write (.member group package) hown fun _ => rfl
    have hactive := exists_active hs found c seen
    exact ⟨hactive, e.groups_modify_insert hactive hput hothers,
      packages_builds_of_call hs found h rfl rfl⟩
  | @tagBuild nvr n b parsed buildFound listed free =>
    obtain ⟨state, hstate⟩ := hs.states b (List.mem_of_find?_eq_some buildFound)
    have hpackages := e.packages_eq (notifyIf_content _ _ _).packages
    have hadded := History.active_add t.taggings (t.newEvent c).2 ⟨row.id, b.id⟩
    have htagged := taggedBuilds_add hs buildFound hbuilds
      ((congrArg (History.active · none) (notifyIf_content _ _ _).taggings).trans hadded) free
    refine ⟨⟨n, b, state, parsed, buildFound, hstate, ?_⟩, hpackages,
      e.groups_eq (notifyIf_content _ _ _).groups (notifyIf_content _ _ _).members⟩
    rw [view_builds hs' e.found', htagged, hpackages, List.filter_cons, ← view_builds hs found,
      shown_of_parse? parsed buildFound hstate]
    rfl
  | @untagBuild nvr n b parsed buildFound tagged =>
    have hpackages := e.packages_eq (notifyIf_content _ _ _).packages
    have hrevoked := History.active_revoke t.taggings (t.newEvent c).2
      fun x => x.tag = row.id && x.build = b.id
    have htagged := taggedBuilds_revoke hs buildFound hbuilds
      ((congrArg (History.active · none) (notifyIf_content _ _ _).taggings).trans hrevoked)
    refine ⟨?_, hpackages,
      e.groups_eq (notifyIf_content _ _ _).groups (notifyIf_content _ _ _).members⟩
    rw [view_builds hs' e.found', htagged, hpackages, view_builds hs found, List.filter_comm,
      Nvr.display_of_parse? parsed]

end

end Tables

namespace Hub

variable {h : Hub} {d : TagId} {v v' : View}

/-- What the hub answers about a tag now is a view. -/
structure Shows (h : Hub) (d : TagId) (v : View) : Prop where
  packages : (h.session (.listPackages d true none)).answer = .ok v.packages.values
  groups : (h.session (.listGroups d none)).answer = .ok v.groups.values
  builds : (h.session (.listBuilds d false false none)).answer = .ok v.builds

/-- The answers leave one view. -/
theorem Shows.eq (hv : h.Shows d v) (hv' : h.Shows d v') : v = v' := by
  have hpackages : v.packages = v'.packages := Keyed.ext_find? fun key => by
    rw [← v.packages_named.find?_values, ← v'.packages_named.find?_values,
      Except.ok.inj (hv.packages.symm.trans hv'.packages)]
  have hgroups : v.groups = v'.groups := Keyed.ext_find? fun key => by
    rw [← v.groups_named.find?_values, ← v'.groups_named.find?_values,
      Except.ok.inj (hv.groups.symm.trans hv'.groups)]
  have hbuilds : v.builds = v'.builds := Except.ok.inj (hv.builds.symm.trans hv'.builds)
  cases v
  cases v'
  cases hpackages
  cases hgroups
  cases hbuilds
  rfl

/-- The hub answers with what its tables show. -/
lemma Reachable.shows (hr : h.Reachable) (found : (h.tables.tag? d).isSome) :
    h.Shows d (h.tables.view d) where
  packages := listing_eq found _
  groups := listing_eq found _
  builds := (listing_eq found _).trans (Tables.listBuilds_eq hr.sound d false false none)

/-- **Accepted calls are updates of what a tag shows.** Before and after every call that a hub
accepts, its answers about the tag are views, and the second follows from the first as the call
says. -/
theorem updates_of_accepted (hr : h.Reachable) {operations : List Operation} {o : Operation}
    {flags : CallFlags} {results : List CallResult}
    (accepted : (h.session (.multicall d (operations ++ [o]) flags)).answer =
      .ok (results ++ [.ok ()])) :
    let before := (h.session (.multicall d operations flags)).state
    let after := (h.session (.multicall d (operations ++ [o]) flags)).state
    ∃ tag, before.tables.getTag (.byId d) none = some tag ∧
      before.Shows d (before.tables.view d) ∧ after.Shows d (after.tables.view d) ∧
      before.tables.Updates tag (before.tables.view d) (after.tables.view d) o := by
  intro before after
  obtain ⟨tag, t, found, hid, hcall, hstate⟩ := call_of_multicall accepted
  have hbefore : before = (h.answers tag flags operations).2 :=
    (multicall_eq found operations flags).2
  have hafter : after.tables = t := congrArg Hub.tables hstate
  have hr₁ : before.Reachable := .request (.multicall d operations flags) hr
  have hr₂ : after.Reachable := .request (.multicall d (operations ++ [o]) flags) hr
  rw [← hbefore] at hcall
  have found₁ : before.tables.getTag (.byId d) none = some tag := by
    rw [hbefore, getTag_answers]
    exact found
  obtain ⟨row, hrow, -, rfl⟩ := Tables.getTag_eq_some_iff.mp found₁
  obtain rfl : row.id = d := hid
  have hrow₁ : before.tables.tag? row.id = some row := hrow
  have hrow₂ : after.tables.tag? row.id = some row := by
    rw [hafter]
    exact (Tables.sameAbove_of_call hr₁.sound hrow₁ hcall).found'
  refine ⟨row.info, found₁, hr₁.shows (Option.isSome_of_eq_some hrow₁),
    hr₂.shows (Option.isSome_of_eq_some hrow₂), ?_⟩
  rw [hafter]
  exact Tables.updates_of_call hr₁.sound hrow₁ hcall

/-! ### A group that lies below another one -/

/-- The tag `d` has a group of its own that hides the group of `p`, and adds a member. -/
def overlaid : Seed :=
  { schemaVersion := 0, users := [⟨"u", ["admin"]⟩]
    tags := [
      { name := "p", groups := [{ name := "g", members := [{ name := "a" }] }] },
      { name := "d", parents := [{ name := "p" }]
        groups := [{ name := "g", members := [{ name := "b" }] }] }] }

def overlaidHub : Hub := (({ user := "u" } : Hub).importSeed overlaid).2

/-- What the hub shows of the group `g` in the tag `d`: where it is stored, and its members with
whether they are blocked. -/
def overlaidGroup (h : Hub) : Option (TagId × List (String × Bool)) :=
  ((h.tables.view 2).groups.find? "g").map fun g =>
    (g.sourceTagId, g.members.entries.map fun m => (m.1, m.2.blocked))

/-- The first call blocks a member, and when the second one takes the group away the group above is
shown as it is there. -/
theorem updates_of_accepted_overlaid :
    let before := (overlaidHub.session (.multicall 2 [.blockGroupPackage "g" "a"] {})).state
    let after := (overlaidHub.session
      (.multicall 2 [.blockGroupPackage "g" "a", .removeGroup "g"] {})).state
    overlaidGroup before = some (2, [("a", true), ("b", false)]) ∧
      overlaidGroup after = some (1, [("a", false)]) ∧
      after.Shows 2 (after.tables.view 2) ∧
      (after.tables.view 2).groups = (before.tables.view 2).groups.put "g"
        ((before.tables.groupView none (before.tables.ancestors 2)).find? "g") := by
  intro before after
  have checked : overlaid.check .empty = .ok () := rfl
  have hr : overlaidHub.Reachable := .importSeed checked (.start "u" _)
  have found : overlaidHub.tables.getTag (.byId 2) none = some ⟨2, "d", {}⟩ := by decide +kernel
  have accepted : (overlaidHub.answers ⟨2, "d", {}⟩ {}
      ([.blockGroupPackage "g" "a"] ++ [.removeGroup "g"])).1 = [.ok ()] ++ [.ok ()] := by
    decide +kernel
  obtain ⟨tag, htag, -, hshows, hgroups, -⟩ := updates_of_accepted hr
    ((multicall_eq found _ {}).1.trans (congrArg Except.ok accepted))
  rw [Tables.id_of_getTag htag] at hgroups
  exact ⟨by decide +kernel, by decide +kernel, hshows, hgroups⟩

end Hub

end TagSync
