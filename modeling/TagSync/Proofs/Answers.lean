import TagSync.Proofs.Shadowing
import TagSync.Proofs.Versions

/-!
Listings over the answers of a database.

A listing asks for the packages, the groups and the members of one tag after the other, and the
database may answer each time with the rows in any order. The answers are taken in row by row, and
of the rows with one name the first one stays. Since a tag has at most one row of a name that
counts, the outcome does not depend on the order. Only taggings come in an order, and it is that
in which they are stored, from the end.
-/

namespace TagSync

variable {α β κ : Type}

/-! ### Rows in turn -/

namespace History

variable {h : History α} {event : EventId}

/-- The rows lie in the order of the events at which they were made. -/
def InTurn (h : History α) : Prop := h.Pairwise fun r s => r.created ≤ s.created

namespace InTurn

lemma add (hi : h.InTurn) (hold : ∀ r ∈ h, r.created ≤ event) (a : α) : (h.add event a).InTurn := by
  refine List.pairwise_append.mpr ⟨hi, List.pairwise_singleton _ _, fun r hr s hs => ?_⟩
  rw [List.mem_singleton.mp hs]
  exact hold r hr

lemma revoke (hi : h.InTurn) (event : EventId) (p : α → Bool) : (h.revoke event p).InTurn := by
  have hkept : ∀ r : Versioned α,
      (if p r.record then r.revoke event else r).created = r.created := by
    intro r
    split
    · exact r.created_revoke event
    · rfl
  refine List.pairwise_map.mpr (hi.imp fun {r s} hle => ?_)
  rwa [hkept, hkept]

end InTurn

end History

/-- A group record as its tag shows it, without members. -/
def GroupRow.entry (tag : TagRow) (r : GroupRow) : GroupEntry :=
  { name := r.group, blocked := r.blocked, sourceTagId := tag.id }

/-- A member record as its tag shows it. -/
def MemberRow.entry (tag : TagRow) (r : MemberRow) : GroupMember :=
  { blocked := r.blocked, sourceTagId := tag.id }

namespace Tables

variable {c : Clock} {t t' : Tables} {event : Option EventId}

lemma inTurn_of_writes {k : Nat} {n : EventId} (hw : Writes k n t t')
    (hi : t.taggings.InTurn) (hold : ∀ r ∈ t.taggings, r.created ≤ n) :
    t'.taggings.InTurn ∧ ∀ r ∈ t'.taggings, r.created ≤ n := by
  induction hw with
  | refl => exact ⟨hi, hold⟩
  | tail _ hw ih =>
    cases hw with
    | tagging r =>
      refine ⟨ih.1.add ih.2 r, fun x hx => ?_⟩
      rcases List.mem_append.mp hx with hx | hx
      · exact ih.2 x hx
      · rw [List.mem_singleton.mp hx]
    | _ => exact ih

/-- Every step of a hub stores taggings in turn. -/
lemma Step.inTurn (hstep : Step c t t') (hs : t.Sound) (hi : t.taggings.InTurn) :
    t'.taggings.InTurn := by
  have hold : ∀ r ∈ t.taggings, r.created ≤ (t.newEvent c).2 := fun r hr =>
    Int.le_trans (hs.taggings r hr).1 (Int.le_add_one (Int.le_refl _))
  cases hstep with
  | @call tag flags o _ found accepted =>
    cases call_eq_ok accepted with
    | tagBuild =>
      rw [taggings_notifyIf]
      exact hi.add hold _
    | @untagBuild nvr n b =>
      rw [taggings_notifyIf]
      exact hi.revoke (t.newEvent c).2 fun x => x.tag = tag.id && x.build = b.id
    | _ => exact hi
  | createTag config new => exact hi
  | editTag config found => exact hi
  | newRepo found => exact hi
  | importSeed checked imported =>
    have hsound := (Confined.newEvent c 0 t).sound hs
    exact (inTurn_of_writes (writes_importSeed hsound checked imported) hi hold).1

/-! ### One row of a name -/

/-- Rows that have keys of their own are found in any order. -/
lemma find?_of_perm [DecidableEq κ] {key : α → κ} {l l' : List α} (hperm : l.Perm l')
    (hnodup : (l'.map key).Nodup) (k : κ) :
    (l.find? fun a => key a = k) = l'.find? fun a => key a = k := by
  have hnodup' : (l.map key).Nodup := (hperm.map key).nodup_iff.mpr hnodup
  refine Option.ext fun a => ⟨fun h => ?_, fun h => ?_⟩
  · have hk : key a = k := by simpa using List.find?_some h
    rw [← hk]
    exact find?_key hnodup (hperm.mem_iff.mp (List.mem_of_find?_eq_some h))
  · have hk : key a = k := by simpa using List.find?_some h
    rw [← hk]
    exact find?_key hnodup' (hperm.mem_iff.mpr (List.mem_of_find?_eq_some h))

/-- The rows of some tags, one tag after the other, each with its tag. -/
def rowsAlong (tags : List TagRow) (rows : TagRow → List α) : List (TagRow × α) :=
  tags.flatMap fun tag => (rows tag).map fun r => (tag, r)

lemma foldl_rowsAlong (step : β → TagRow → α → β) (tags : List TagRow) (rows : TagRow → List α)
    (b : β) :
    tags.foldl (fun b tag => (rows tag).foldl (fun b r => step b tag r) b) b =
      (rowsAlong tags rows).foldl (fun b x => step b x.1 x.2) b := by
  simp only [rowsAlong, List.foldl_flatMap, List.foldl_map]

lemma map_rowsAlong (f : TagRow → α → β) (tags : List TagRow) (rows : TagRow → List α) :
    (rowsAlong tags rows).map (fun x => f x.1 x.2) =
      tags.flatMap fun tag => (rows tag).map (f tag) := by
  simp only [rowsAlong, List.map_flatMap, List.map_map, Function.comp_def]

/-- Takes in the rows of some tags, one tag after the other and row by row: of the rows of one name
the first one stays. -/
def takeIn (name : α → String) (entry : TagRow → α → β) (rows : TagRow → List α)
    (tags : List TagRow) : Keyed β :=
  tags.foldl (fun view tag =>
    (rows tag).foldl (fun view r => view.insertNew (name r) (entry tag r)) view) .empty

lemma find?_rowsAlong_of_perm [DecidableEq κ] {key : α → κ} {rows rows' : TagRow → List α}
    (hperm : ∀ tag, (rows tag).Perm (rows' tag)) (hnodup : ∀ tag, ((rows' tag).map key).Nodup)
    (tags : List TagRow) (k : κ) :
    ((rowsAlong tags rows).find? fun x => key x.2 = k) =
      (rowsAlong tags rows').find? fun x => key x.2 = k := by
  simp only [rowsAlong, List.find?_flatMap, List.find?_map, Function.comp_def,
    find?_of_perm (hperm _) (hnodup _)]

/-- Rows are found under the names of their entries. -/
lemma find?_entries (name : α → String) (name' : β → String) (entry : TagRow → α → β)
    (named : ∀ tag r, name' (entry tag r) = name r) (rows : TagRow → List α) (tags : List TagRow)
    (key : String) :
    (tags.flatMap fun tag => (rows tag).map (entry tag)).find? (name' · == key) =
      ((rowsAlong tags rows).find? fun x => name x.2 = key).map fun x => entry x.1 x.2 := by
  rw [← map_rowsAlong, List.find?_map]
  simp only [Function.comp_def, named, beq_eq_decide]

/-- Whatever the order of the rows of each tag is, the first one along the tags is found. -/
lemma find?_takeIn (name : α → String) (name' : β → String) (entry : TagRow → α → β)
    (named : ∀ tag r, name' (entry tag r) = name r) {rows rows' : TagRow → List α}
    (hperm : ∀ tag, (rows tag).Perm (rows' tag)) (hnodup : ∀ tag, ((rows' tag).map name).Nodup)
    (tags : List TagRow) (key : String) :
    (takeIn name entry rows tags).find? key =
      (tags.flatMap fun tag => (rows' tag).map (entry tag)).find? (name' · == key) := by
  have hfold : (takeIn name entry rows tags).find? key =
      ((rowsAlong tags rows).find? (name ·.2 == key)).map fun x => entry x.1 x.2 := by
    rw [takeIn, foldl_rowsAlong fun view tag r => Keyed.insertNew view (name r) (entry tag r)]
    exact (Keyed.find?_foldl_insertNew (fun x : TagRow × α => name x.2) _ _ _ _).trans
      Option.none_or
  simp only [beq_eq_decide] at hfold
  rw [hfold, find?_rowsAlong_of_perm hperm hnodup, find?_entries name name' entry named]

/-! ### Answers -/

/-- What the database answers when it is asked for the rows of one tag that count at an event.
Packages, groups and members come in any order. Taggings, here with their places in the table,
come from the newest event to the oldest, those of one event from the last place to the first. -/
structure Answers (t : Tables) (event : Option EventId) where
  packages : TagRow → List PackageRow
  groups : TagRow → List GroupRow
  members : TagRow → List MemberRow
  taggings : TagRow → List (Versioned TaggingRow × Nat)
  packages_perm : ∀ tag,
    (packages tag).Perm ((t.packages.active event).filter (·.tag = tag.id))
  groups_perm : ∀ tag, (groups tag).Perm ((t.groups.active event).filter (·.tag = tag.id))
  members_perm : ∀ tag, (members tag).Perm ((t.members.active event).filter (·.tag = tag.id))
  taggings_perm : ∀ tag, (taggings tag).Perm
    (t.taggings.zipIdx.filter fun r => r.1.isActive event && r.1.record.tag = tag.id)
  taggings_order : ∀ tag, (taggings tag).Pairwise fun r s =>
    s.1.created < r.1.created ∨ s.1.created = r.1.created ∧ s.2 < r.2

lemma find?_memberView_rows (t : Tables) (event : Option EventId) (tags : List TagRow)
    (group package : String) :
    (t.memberView event tags group).find? package =
      ((rowsAlong tags fun tag => (t.members.active event).filter (·.tag = tag.id)).find?
        fun x => (x.2.group, x.2.package) = (group, package)).map fun x => x.2.entry x.1 := by
  have hon : t.membersOn event group = fun tag =>
      (((t.members.active event).filter (·.tag = tag.id)).filter (·.group = group)).map
        fun r => (r.package, r.entry tag) := funext fun tag => by
    rw [List.filter_filter, membersOn]
    simp only [Bool.and_comm]
    rfl
  have hview : tags.flatMap (t.membersOn event group) =
      ((rowsAlong tags fun tag => (t.members.active event).filter (·.tag = tag.id)).filter
        (·.2.group = group)).map fun x => (x.2.package, x.2.entry x.1) := by
    simp only [rowsAlong, List.filter_flatMap, List.map_flatMap, List.filter_map, List.map_map,
      Function.comp_def, hon]
  rw [find?_memberView, hview, List.find?_map, List.find?_filter]
  simp only [Function.comp_def, beq_eq_decide, Bool.decide_and, decide_eq_true_eq, Option.map_map,
    Prod.mk.injEq]

/-- Taggings of a tag that were stored in turn. -/
lemma pairwise_taggings (hi : t.taggings.InTurn) (event : Option EventId) (tag : TagRow) :
    (t.taggings.zipIdx.filter fun r => r.1.isActive event && r.1.record.tag = tag.id).Pairwise
      fun r s => r.1.created < s.1.created ∨ r.1.created = s.1.created ∧ r.2 < s.2 := by
  refine List.Pairwise.filter _ (List.pairwise_iff_getElem.mpr fun i j hi' hj hij => ?_)
  have hle := List.pairwise_iff_getElem.mp hi i j (by simpa using hi') (by simpa using hj) hij
  simp only [List.getElem_zipIdx]
  grind

namespace Answers

/-- A database may answer from the end of every table. -/
def backwards (event : Option EventId) (hi : t.taggings.InTurn) : t.Answers event where
  packages tag := ((t.packages.active event).filter (·.tag = tag.id)).reverse
  groups tag := ((t.groups.active event).filter (·.tag = tag.id)).reverse
  members tag := ((t.members.active event).filter (·.tag = tag.id)).reverse
  taggings tag :=
    (t.taggings.zipIdx.filter fun r => r.1.isActive event && r.1.record.tag = tag.id).reverse
  packages_perm _ := List.reverse_perm _
  groups_perm _ := List.reverse_perm _
  members_perm _ := List.reverse_perm _
  taggings_perm _ := List.reverse_perm _
  taggings_order tag := List.pairwise_reverse.mpr (pairwise_taggings hi event tag)

variable (q : t.Answers event)

def packageMap (tags : List TagRow) : Keyed PackageEntry :=
  takeIn PackageRow.package PackageRow.entry q.packages tags

def listPackages (id : TagId) (inherited : Bool) : List PackageEntry :=
  (q.packageMap (t.sources id inherited)).values

/-- Puts a member into its group, if that is there and not blocked. -/
def admitMember (view : Keyed GroupEntry) (tag : TagRow) (r : MemberRow) : Keyed GroupEntry :=
  view.modify r.group fun g => g.filled (g.members.insertNew r.package (r.entry tag))

/-- Takes in the groups of some tags, and after all of them the members, row by row. -/
def groupMap (tags : List TagRow) : Keyed GroupEntry :=
  tags.foldl (fun view tag => (q.members tag).foldl (fun view r => admitMember view tag r) view)
    (takeIn GroupRow.group GroupRow.entry q.groups tags)

def listGroups (id : TagId) : List GroupEntry := (q.groupMap (t.chain id)).values

/-- The builds that are tagged into a tag, as the database lists them. -/
def taggingsOn (tag : TagRow) : List Tagging :=
  ((q.taggings tag).filterMap fun r => t.build? r.1.record.build).map fun b => ⟨b, tag⟩

/-- Whether a package is listed and not blocked, with all that is inherited. -/
def allows (id : TagId) (package : String) : Bool :=
  ((q.listPackages id true).find? (·.name == package)).any fun p => !p.blocked

def listBuilds (id : TagId) (inherited latestOnly : Bool) : Except Failure (List BuildEntry) := do
  let shown := firstOfEach Tagging.name []
    (((t.sources id inherited).flatMap q.taggingsOn).filter fun b => q.allows id b.build.nvr.name)
  let builds ← shown.mapM Tagging.entry
  return if latestOnly then BuildEntry.latest builds else builds

/-! ### The order does not matter -/

section Equal

variable (hs : t.Successive) (tags : List TagRow)

include hs

lemma packageMap_eq : q.packageMap tags = t.packageView event tags := by
  refine Keyed.ext_find? fun name => ?_
  rw [packageMap, find?_takeIn PackageRow.package PackageEntry.name PackageRow.entry
    (fun _ _ => rfl) q.packages_perm
    fun tag => nodup_map_filter (hs.packages.nodup_active event) tag.id, find?_packageView]
  rfl

lemma find?_groups (name : String) :
    (takeIn GroupRow.group GroupRow.entry q.groups tags).find? name =
      (tags.flatMap (t.groupsOn event)).find? (·.name == name) := by
  rw [find?_takeIn GroupRow.group GroupEntry.name GroupRow.entry (fun _ _ => rfl) q.groups_perm
    fun tag => nodup_map_filter (hs.groups.nodup_active event) tag.id]
  rfl

/-- Puts members into those of a group, one after the other. -/
def enter (l : List (TagRow × MemberRow)) (members : Keyed GroupMember) : Keyed GroupMember :=
  l.foldl (fun m x => m.insertNew x.2.package (x.2.entry x.1)) members

omit hs in
/-- Members that are put in one after the other are put into their groups. -/
lemma find?_foldl_admitMember (l : List (TagRow × MemberRow)) (view : Keyed GroupEntry)
    (name : String) :
    (l.foldl (fun view x => admitMember view x.1 x.2) view).find? name =
      (view.find? name).map fun g => g.filled (enter (l.filter (·.2.group = name)) g.members) := by
  have hkept : ∀ g : GroupEntry, g.filled g.members = g := fun g => by
    unfold GroupEntry.filled
    split <;> rfl
  induction l generalizing view with
  | nil => simp [hkept, enter]
  | cons x rest ih =>
    rw [List.foldl_cons, ih, admitMember, Keyed.find?_modify]
    by_cases hgroup : x.2.group = name
    · rw [if_pos hgroup, List.filter_cons_of_pos (by simpa using hgroup), Option.map_map]
      -- the rest is put into the group that has the first member already
      exact Option.map_congr fun g _ => GroupEntry.filled_members
        (g.members.insertNew x.2.package (x.2.entry x.1)) (enter _) g
    · rw [if_neg hgroup, List.filter_cons_of_neg (by simpa using hgroup)]

lemma find?_members (group package : String) :
    (enter ((rowsAlong tags q.members).filter (·.2.group = group)) .empty).find? package =
      (t.memberView event tags group).find? package := by
  have hnodup : ∀ tag : TagRow, (((t.members.active event).filter (·.tag = tag.id)).map
      fun r => (r.group, r.package)).Nodup := fun tag =>
    nodup_map_filter (hs.members.nodup_active event) tag.id
  have hfound := find?_rowsAlong_of_perm q.members_perm hnodup tags (group, package)
  simp only [Prod.mk.injEq, Bool.decide_and] at hfound
  rw [enter, Keyed.find?_foldl_insertNew (fun x : TagRow × MemberRow => x.2.package)
    fun x => x.2.entry x.1, List.find?_filter, Keyed.find?_empty, Option.none_or,
    find?_memberView_rows]
  simp only [beq_eq_decide, Bool.decide_and, decide_eq_true_eq, hfound, Prod.mk.injEq]

lemma groupMap_eq : q.groupMap tags = t.groupView event tags := by
  refine Keyed.ext_find? fun name => ?_
  rw [groupMap, foldl_rowsAlong admitMember, find?_foldl_admitMember, find?_groups q hs,
    find?_groupView_filled]
  refine Option.map_congr fun g hg => ?_
  have hempty : g.members = .empty := by
    obtain ⟨tag, -, hmem⟩ := List.mem_flatMap.mp (List.mem_of_find?_eq_some hg)
    obtain ⟨r, -, rfl⟩ := List.mem_map.mp hmem
    rfl
  rw [hempty, Keyed.ext_find? fun package => find?_members q hs tags name package]

end Equal

/-- Taggings that are stored in turn come from the last one to the first. -/
lemma taggingsOn_eq (hi : t.taggings.InTurn) (tag : TagRow) :
    q.taggingsOn tag = t.taggingsOn event tag := by
  have hrows : q.taggings tag = (t.taggings.zipIdx.filter fun r =>
      r.1.isActive event && r.1.record.tag = tag.id).reverse := by
    refine List.Perm.eq_of_pairwise (fun r s _ _ hrs hsr => ?_) (q.taggings_order tag)
      (List.pairwise_reverse.mpr (pairwise_taggings hi event tag))
      ((q.taggings_perm tag).trans (List.reverse_perm _).symm)
    grind
  have hplaces : (t.taggings.zipIdx.filter fun r =>
      r.1.isActive event && r.1.record.tag = tag.id).map Prod.fst =
        t.taggings.filter fun r => r.isActive event && r.record.tag = tag.id := by
    have hall := congrArg (List.filter fun r => r.isActive event && r.record.tag = tag.id)
      (List.zipIdx_map_fst 0 t.taggings)
    rwa [List.filter_map] at hall
  have hrecords : (t.taggings.active event).filter (·.tag = tag.id) =
      (t.taggings.filter fun r => r.isActive event && r.record.tag = tag.id).map
        Versioned.record := by
    rw [History.active, List.filter_map, List.filter_filter]
    simp only [Function.comp_def, Bool.and_comm]
  rw [taggingsOn, Tables.taggingsOn, hrecords, ← hplaces, hrows, List.map_map, ← List.map_reverse,
    List.filterMap_map]
  rfl

/-- **The order of the rows does not matter**: what is listed is what the tables say. -/
lemma listPackages_eq (hs : t.Successive) (id : TagId) (inherited : Bool) :
    q.listPackages id inherited = t.listPackages id inherited event := by
  rw [listPackages, packageMap_eq q hs, Tables.listPackages]

lemma listGroups_eq (hs : t.Successive) (id : TagId) :
    q.listGroups id = t.listGroups id event := by
  rw [listGroups, groupMap_eq q hs, Tables.listGroups]

lemma allows_eq (hs : t.Successive) (id : TagId) :
    q.allows id = Tables.allows (t.packageView event (t.chain id)) := by
  funext name
  rw [allows, listPackages_eq q hs, Tables.allows]
  exact congrArg (Option.any _) ((packageView_named t event (t.chain id)).find?_values name)

lemma listBuilds_eq (hs : t.Successive) (hi : t.taggings.InTurn) (id : TagId)
    (inherited latestOnly : Bool) :
    q.listBuilds id inherited latestOnly = t.listBuilds id inherited latestOnly event := by
  rw [listBuilds, Tables.listBuilds, shownTaggings, allows_eq q hs,
    funext (taggingsOn_eq q hi)]

end Answers

end Tables

/-- Taggings are stored in turn on every hub. -/
lemma Hub.Reachable.inTurn {h : Hub} (hr : h.Reachable) : h.tables.taggings.InTurn := by
  have hboth := hr.holds (P := fun t : Tables => t.Sound ∧ t.taggings.InTurn) ⟨.empty, .nil⟩
    fun t t' ht hstep => ⟨hstep.sound ht.1, hstep.inTurn ht.1 ht.2⟩
  exact hboth.1.2

end TagSync
