import TagSync.Hub.Listing
import TagSync.Proofs.Inheritance
import TagSync.Proofs.Keyed
import TagSync.Proofs.Slot

/-!
What a tag sees now: its own records, and in the places where it has none those above it.
-/

namespace TagSync.Tables

variable {t : Tables} {d : TagId} {row : TagRow} {event : Option EventId}

/-! ### Views over some tags -/

lemma find?_packageView (t : Tables) (event : Option EventId) (tags : List TagRow)
    (name : String) :
    (t.packageView event tags).find? name =
      (tags.flatMap (t.packagesOn event)).find? (·.name == name) := by
  simp [packageView, Keyed.find?_ofList, List.find?_map, Function.comp_def]

lemma find?_groupView (t : Tables) (event : Option EventId) (tags : List TagRow)
    (name : String) :
    (t.groupView event tags).find? name =
      ((tags.flatMap (t.groupsOn event)).find? (·.name == name)).map
        (t.withMembers event tags) := by
  simp [groupView, Keyed.find?_ofList, List.find?_map, Function.comp_def]

/-- The members of a group over some tags. -/
def memberView (t : Tables) (event : Option EventId) (tags : List TagRow) (group : String) :
    Keyed GroupMember :=
  .ofList (tags.flatMap (t.membersOn event group))

lemma find?_memberView (t : Tables) (event : Option EventId) (tags : List TagRow)
    (group package : String) :
    (t.memberView event tags group).find? package =
      ((tags.flatMap (t.membersOn event group)).find? (·.1 == package)).map (·.2) := by
  rw [memberView, Keyed.find?_ofList]

lemma withMembers_blocked (tags : List TagRow) (g : GroupEntry) :
    (t.withMembers event tags g).blocked = g.blocked := by
  unfold withMembers
  split <;> rfl

lemma withMembers_name (tags : List TagRow) (g : GroupEntry) :
    (t.withMembers event tags g).name = g.name := by
  unfold withMembers
  split <;> rfl

lemma withMembers_sourceTagId (tags : List TagRow) (g : GroupEntry) :
    (t.withMembers event tags g).sourceTagId = g.sourceTagId := by
  unfold withMembers
  split <;> rfl

/-! ### Above a tag -/

/-- What lies above a tag in a place: whether the record there blocks. Builds are not
inherited. -/
def above (t : Tables) (d : TagId) : Slot → Option Bool
  | .package name => ((t.packageView none (t.ancestors d)).find? name).map PackageEntry.blocked
  | .build _ => none
  | .group name => ((t.groupView none (t.ancestors d)).find? name).map GroupEntry.blocked
  | .member group package =>
    ((t.memberView none (t.ancestors d) group).find? package).map GroupMember.blocked

/-- What a tag sees in a place: its own record comes first. -/
def sees (t : Tables) (d : TagId) (s : Slot) : Option Bool := (t.own d s).or (t.above d s)

/-- There is nothing above a tag without parents. -/
lemma above_of_parents {t : Tables} {d : TagId} (h : t.parents d = []) :
    t.above d = fun _ => none := by
  have hancestors : t.ancestors d = [] := by rw [ancestors, h, walk, List.filterMap_nil]
  funext s
  cases s <;> simp only [above, hancestors] <;> rfl

lemma find?_packagesOn (t : Tables) (tag : TagRow) (name : String) :
    ((t.packagesOn none tag).find? (·.name == name)).map PackageEntry.blocked =
      t.own tag.id (.package name) := by
  simp [packagesOn, own, History.current, List.find?_map, List.find?_filter, Function.comp_def,
    Bool.decide_and, beq_eq_decide]

lemma find?_groupsOn (t : Tables) (tag : TagRow) (name : String) :
    ((t.groupsOn none tag).find? (·.name == name)).map GroupEntry.blocked =
      t.own tag.id (.group name) := by
  simp [groupsOn, own, History.current, List.find?_map, List.find?_filter, Function.comp_def,
    Bool.decide_and, beq_eq_decide]

lemma find?_membersOn (t : Tables) (tag : TagRow) (group package : String) :
    ((t.membersOn none group tag).find? (·.1 == package)).map (·.2.blocked) =
      t.own tag.id (.member group package) := by
  simp [membersOn, own, History.current, List.find?_map, List.find?_filter, Function.comp_def,
    Bool.decide_and, beq_eq_decide]

lemma groupsOn_sourceTagId {tag : TagRow} {g : GroupEntry} (h : g ∈ t.groupsOn event tag) :
    g.sourceTagId = tag.id := by
  obtain ⟨r, -, rfl⟩ := List.mem_map.mp h
  rfl

lemma membersOn_sourceTagId {tag : TagRow} {group : String} {p : String × GroupMember}
    (h : p ∈ t.membersOn event group tag) : p.2.sourceTagId = tag.id := by
  obtain ⟨r, -, rfl⟩ := List.mem_map.mp h
  rfl

/-! ### The whole view -/

lemma above_group (t : Tables) (d : TagId) (name : String) :
    t.above d (.group name) =
      (((t.ancestors d).flatMap (t.groupsOn none)).find? (·.name == name)).map
        GroupEntry.blocked := by
  simp [above, find?_groupView, Function.comp_def, withMembers_blocked]

lemma above_member (t : Tables) (d : TagId) (group package : String) :
    t.above d (.member group package) =
      (((t.ancestors d).flatMap (t.membersOn none group)).find? (·.1 == package)).map
        (·.2.blocked) := by
  simp [above, find?_memberView, Function.comp_def]

/-- What is found first along the chain belongs to the tag just when the tag has it itself. -/
lemma isOwn_of_find?_chain {β : Type} {on : TagRow → List β} {source : β → TagId}
    (hon : ∀ tag, ∀ b ∈ on tag, source b = tag.id) {p : β → Bool} {b : β}
    (hrow : t.tag? d = some row) (h : ((t.chain d).flatMap on).find? p = some b) :
    source b = d ↔ ((on row).find? p).isSome := by
  rw [chain_eq hrow, List.flatMap_cons, List.find?_append] at h
  rcases hown : (on row).find? p with _ | a
  · rw [hown, Option.none_or] at h
    obtain ⟨anc, hanc, hb⟩ := List.mem_flatMap.mp (List.mem_of_find?_eq_some h)
    simpa [hon anc b hb] using id_ne_of_mem_ancestors hanc
  · rw [hown, Option.some_or] at h
    obtain rfl := Option.some.inj h
    simp [hon row a (List.mem_of_find?_eq_some hown), id_of_tag? hrow]

/-- The packages a tag sees. -/
theorem package?_map_blocked (hrow : t.tag? d = some row) (name : String) :
    (t.package? d none name).map PackageEntry.blocked = t.sees d (.package name) := by
  rw [package?, find?_packageView, chain_eq hrow, List.flatMap_cons, List.find?_append,
    Option.map_or, find?_packagesOn, id_of_tag? hrow, sees, above, find?_packageView]

/-- The groups a tag sees. -/
theorem group?_map_blocked (hrow : t.tag? d = some row) (name : String) :
    (t.group? d name).map GroupEntry.blocked = t.sees d (.group name) := by
  have hblocked : GroupEntry.blocked ∘ t.withMembers none (t.chain d) = GroupEntry.blocked :=
    funext fun g => withMembers_blocked _ g
  rw [group?, find?_groupView, Option.map_map, hblocked, chain_eq hrow, List.flatMap_cons,
    List.find?_append, Option.map_or, find?_groupsOn, id_of_tag? hrow, sees, above_group]

lemma group?_isOwn (hrow : t.tag? d = some row) {name : String} {g : GroupEntry}
    (h : t.group? d name = some g) : g.sourceTagId = d ↔ (t.own d (.group name)).isSome := by
  rw [group?, find?_groupView] at h
  obtain ⟨a, ha, rfl⟩ := Option.map_eq_some_iff.mp h
  have := isOwn_of_find?_chain (fun _ _ hb => groupsOn_sourceTagId hb) hrow ha
  rw [withMembers_sourceTagId, this, ← id_of_tag? hrow, ← find?_groupsOn, Option.isSome_map]

lemma group?_name {name : String} {g : GroupEntry} (h : t.group? d name = some g) :
    g.name = name := by
  rw [group?, find?_groupView] at h
  obtain ⟨a, ha, rfl⟩ := Option.map_eq_some_iff.mp h
  rw [withMembers_name]
  simpa using List.find?_some ha

lemma group?_members {name : String} {g : GroupEntry} (h : t.group? d name = some g)
    (hg : g.blocked = false) : g.members = t.memberView none (t.chain d) name := by
  have hname := group?_name h
  rw [group?, find?_groupView] at h
  obtain ⟨a, ha, rfl⟩ := Option.map_eq_some_iff.mp h
  rw [withMembers_name] at hname
  rw [withMembers_blocked] at hg
  simp [withMembers, hg, memberView, hname]

/-- The members a tag sees in a group that is not blocked. -/
theorem memberView_map_blocked (hrow : t.tag? d = some row) (group package : String) :
    ((t.memberView none (t.chain d) group).find? package).map GroupMember.blocked =
      t.sees d (.member group package) := by
  rw [find?_memberView, Option.map_map, chain_eq hrow, List.flatMap_cons, List.find?_append,
    Option.map_or, sees, above_member, ← id_of_tag? hrow, ← find?_membersOn, id_of_tag? hrow]
  rfl

lemma memberView_isOwn (hrow : t.tag? d = some row) {group package : String} {m : GroupMember}
    (h : (t.memberView none (t.chain d) group).find? package = some m) :
    m.sourceTagId = d ↔ (t.own d (.member group package)).isSome := by
  rw [find?_memberView] at h
  obtain ⟨p, hp, rfl⟩ := Option.map_eq_some_iff.mp h
  have hown : p.2.sourceTagId = d ↔ _ :=
    isOwn_of_find?_chain (fun _ _ hb => membersOn_sourceTagId hb) hrow hp
  rw [hown, ← id_of_tag? hrow, ← find?_membersOn, Option.isSome_map]

end TagSync.Tables
