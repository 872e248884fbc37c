import TagSync.Proofs.Names
import TagSync.Proofs.Reachable
import TagSync.Proofs.Snapshots

/-!
How the view of a tag follows from its own records.

A tag's own record of a package, a group or a member hides what lies above it. So when only the
tag itself is written to, its view shows the new record in the places that were written, or what
lies above where a record was taken away, and in all other places what it showed before. The
builds a tag shows as its own are those tagged into it, without those of packages that are not
listed or blocked.
-/

namespace TagSync

/-- A package record as its tag shows it. -/
def PackageRow.entry (tag : TagRow) (r : PackageRow) : PackageEntry :=
  { name := r.package, owner := r.owner, blocked := r.blocked, extraArches := r.extraArches
    sourceTagId := tag.id, sourceTagName := tag.name }

/-- A group with some members, unless it is blocked. -/
def GroupEntry.filled (members : Keyed GroupMember) (g : GroupEntry) : GroupEntry :=
  if g.blocked then g else { g with members }

@[simp] lemma GroupEntry.filled_filled (m m' : Keyed GroupMember) (g : GroupEntry) :
    (g.filled m).filled m' = g.filled m' := by
  unfold filled
  split <;> simp_all

/-- Changing the members that were filled in is filling in changed ones. -/
lemma GroupEntry.filled_members (m : Keyed GroupMember) (f : Keyed GroupMember → Keyed GroupMember)
    (g : GroupEntry) : (g.filled m).filled (f (g.filled m).members) = g.filled (f m) := by
  unfold filled
  by_cases hg : g.blocked = true <;> simp [hg]

namespace Tables

variable {t t' : Tables} {d : TagId} {row : TagRow} {event : Option EventId}

/-! ### First ones of each name -/

section FirstOfEach

variable {α : Type} {name : α → String} {l : List α}

/-- Of the names that came before only those of the list matter. -/
lemma firstOfEach_congr {seen seen' : List String}
    (h : ∀ a ∈ l, name a ∈ seen ↔ name a ∈ seen') :
    firstOfEach name seen l = firstOfEach name seen' l := by
  induction l generalizing seen seen' with
  | nil => rfl
  | cons a rest ih =>
    have hrest : ∀ x ∈ rest, name x ∈ seen ↔ name x ∈ seen' := fun x hx => h x (.tail _ hx)
    have hseen : seen.contains (name a) = seen'.contains (name a) := by
      rw [Bool.eq_iff_iff, List.contains_iff_mem, List.contains_iff_mem]
      exact h a (.head _)
    rw [firstOfEach, firstOfEach, hseen]
    split
    · exact ih hrest
    · refine congrArg (a :: ·) (ih fun x hx => ?_)
      rw [List.mem_cons, List.mem_cons, hrest x hx]

lemma firstOfEach_cons_of_new {x : String} {seen : List String} (h : ∀ a ∈ l, name a ≠ x) :
    firstOfEach name (x :: seen) l = firstOfEach name seen l :=
  firstOfEach_congr fun a ha => by simp [h a ha]

/-- Leaving out all elements of some names commutes with keeping the first of each name. -/
lemma firstOfEach_filter {p : α → Bool} (seen : List String)
    (hp : ∀ a ∈ l, ∀ b ∈ l, name a = name b → p a = p b) :
    firstOfEach name seen (l.filter p) = (firstOfEach name seen l).filter p := by
  induction l generalizing seen with
  | nil => rfl
  | cons a rest ih =>
    have ih := fun seen => ih seen fun x hx y hy => hp x (.tail _ hx) y (.tail _ hy)
    rcases hpa : p a with _ | _
    · -- no other element of the name is kept, so it need not be remembered
      have hnew : ∀ b ∈ rest.filter p, name b ≠ name a := by
        intro b hb hname
        obtain ⟨hb, hpb⟩ := List.mem_filter.mp hb
        rw [hp b (.tail _ hb) a (.head _) hname, hpa] at hpb
        cases hpb
      have hneg : ¬ p a = true := by simp [hpa]
      rw [List.filter_cons_of_neg hneg, firstOfEach]
      split
      · exact ih seen
      · rw [List.filter_cons_of_neg hneg, ← ih, firstOfEach_cons_of_new hnew]
    · rw [List.filter_cons_of_pos hpa, firstOfEach, firstOfEach]
      split
      · exact ih seen
      · rw [List.filter_cons_of_pos hpa, ih]

end FirstOfEach

/-! ### Own records first -/

lemma find?_groupView_filled (t : Tables) (event : Option EventId) (tags : List TagRow)
    (name : String) :
    (t.groupView event tags).find? name =
      ((tags.flatMap (t.groupsOn event)).find? (·.name == name)).map
        (GroupEntry.filled (t.memberView event tags name)) := by
  rw [find?_groupView]
  refine Option.map_congr fun g hg => ?_
  have hname : g.name = name := by simpa using List.find?_some hg
  rw [withMembers, GroupEntry.filled, memberView, hname]

section Own

variable (hrow : t.tag? d = some row)

include hrow

/-- What is found first along the chain is what the tag has itself, or else what lies above. -/
lemma find?_flatMap_chain {β : Type} (on : TagRow → List β) (p : β → Bool) :
    ((t.chain d).flatMap on).find? p =
      ((on row).find? p).or (((t.ancestors d).flatMap on).find? p) := by
  rw [chain_eq hrow, List.flatMap_cons, List.find?_append]

lemma find?_packageView_chain (name : String) :
    (t.packageView none (t.chain d)).find? name =
      ((t.packageRow? d name).map (PackageRow.entry row)).or
        ((t.packageView none (t.ancestors d)).find? name) := by
  have hown : (t.packagesOn none row).find? (·.name == name) =
      (t.packageRow? row.id name).map (PackageRow.entry row) := by
    simp only [packagesOn, packageRow?, History.current, List.find?_map, List.find?_filter,
      Function.comp_def, Bool.decide_and, beq_eq_decide, Bool.decide_eq_true]
    rfl
  rw [find?_packageView, find?_flatMap_chain hrow, hown, id_of_tag? hrow, find?_packageView]

lemma find?_memberView_chain (group package : String) :
    (t.memberView none (t.chain d) group).find? package =
      ((t.own d (.member group package)).map fun blocked => { blocked, sourceTagId := d }).or
        ((t.memberView none (t.ancestors d) group).find? package) := by
  have hown : ((t.membersOn none group row).find? (·.1 == package)).map Prod.snd =
      (t.own row.id (.member group package)).map
        fun blocked => { blocked, sourceTagId := row.id } := by
    simp [membersOn, own, History.current, List.find?_map, List.find?_filter, Function.comp_def,
      Bool.decide_and, beq_eq_decide]
  rw [find?_memberView, find?_flatMap_chain hrow, Option.map_or, hown, id_of_tag? hrow,
    find?_memberView]

/-- A group shows the members of the whole chain, wherever its own record lies. -/
lemma find?_groupView_chain (name : String) :
    (t.groupView none (t.chain d)).find? name =
      (((t.own d (.group name)).map fun blocked => { name, blocked, sourceTagId := d }).or
        ((t.groupView none (t.ancestors d)).find? name)).map
          (GroupEntry.filled (t.memberView none (t.chain d) name)) := by
  have hown : (t.groupsOn none row).find? (·.name == name) =
      (t.own row.id (.group name)).map
        fun blocked => { name, blocked, sourceTagId := row.id } := by
    simp only [groupsOn, own, History.current, List.find?_map, List.find?_filter,
      Function.comp_def, Bool.decide_and, beq_eq_decide, Bool.decide_eq_true, Option.map_map]
    refine Option.map_congr fun r hr => ?_
    have hfound := List.find?_some hr
    simp only [Bool.and_eq_true, decide_eq_true_eq] at hfound
    rw [hfound.2]
  rw [find?_groupView_filled, find?_flatMap_chain hrow, hown, id_of_tag? hrow,
    find?_groupView_filled, Option.map_or, Option.map_or]
  -- a group from above comes with the members from above, which the whole chain's replace
  simp only [Option.map_map, Function.comp_def, GroupEntry.filled_filled]

end Own

/-! ### Own builds -/

/-- The builds that are tagged into a tag, each once, whether the tag shows them or not. -/
def taggedBuilds (t : Tables) (tag : TagRow) : List BuildEntry :=
  (firstOfEach Tagging.name [] (t.taggingsOn none tag)).map Tagging.shown

lemma Tagging.shown_eq {b : Tagging} {state : BuildState}
    (h : BuildState.parse b.build.state = .ok state) :
    b.shown =
      { nvr := b.name, packageName := b.build.nvr.name, version := b.build.nvr.version
        release := b.build.nvr.release, state, owner := b.build.owner
        sourceTagId := b.tag.id, sourceTagName := b.tag.name } := by
  have hentry := Tagging.entry_eq_ok h
  rw [entry, h] at hentry
  exact (Except.ok.inj hentry).symm

lemma build_mem_of_mem_taggingsOn {b : Tagging} (h : b ∈ t.taggingsOn event row) :
    b.build ∈ t.builds := by
  obtain ⟨-, r, -, -, hbuild⟩ := mem_taggingsOn_iff.mp h
  exact List.mem_of_find?_eq_some hbuild

/-- On sound tables builds of one name are the same. -/
lemma Sound.eq_of_display_eq (hs : t.Sound) {a b : BuildRow} (ha : a ∈ t.builds)
    (hb : b ∈ t.builds) (h : a.nvr.display = b.nvr.display) : a = b := by
  have hread := hs.readable a ha
  rw [h, hs.readable b hb] at hread
  have hfound := hs.buildNamed?_self ha
  rw [← Option.some.inj hread, hs.buildNamed?_self hb] at hfound
  exact (Option.some.inj hfound).symm

/-- **The builds a tag shows as its own** are those tagged into it whose packages it allows. -/
theorem shownBuilds_own (hs : t.Sound) (hrow : t.tag? d = some row) :
    t.shownBuilds d false false none = (t.taggedBuilds row).filter fun e =>
      allows (t.packageView none (t.chain d)) e.packageName := by
  have hsources : (t.sources d false).flatMap (t.taggingsOn none) = t.taggingsOn none row := by
    simp [sources, hrow]
  have hfirst : t.shownTaggings d false none =
      (firstOfEach Tagging.name [] (t.taggingsOn none row)).filter fun b =>
        allows (t.packageView none (t.chain d)) b.build.nvr.name := by
    rw [shownTaggings, hsources]
    refine firstOfEach_filter [] fun a ha b hb hname => ?_
    rw [hs.eq_of_display_eq (build_mem_of_mem_taggingsOn ha) (build_mem_of_mem_taggingsOn hb)
      hname]
  rw [taggedBuilds, List.filter_map]
  exact congrArg (List.map Tagging.shown) hfirst

lemma build?_congr (h : t'.builds = t.builds) : t'.build? = t.build? := by
  funext x
  rw [build?, build?, h]

lemma taggedBuilds_congr (hbuilds : t'.builds = t.builds)
    (htaggings : t'.taggings.active none = t.taggings.active none) :
    t'.taggedBuilds = t.taggedBuilds := by
  funext tag
  rw [taggedBuilds, taggedBuilds, taggingsOn, taggingsOn, build?_congr hbuilds, htaggings]

section Taggings

variable (hs : t.Sound) {n : Nvr} {b : BuildRow} (hb : t.buildNamed? n = some b)

include hs hb

/-- A build that is tagged has the name of another one just when it has its number. -/
lemma name_eq_display_iff {a : Tagging} (ha : a.build ∈ t.builds) :
    a.name = n.display ↔ a.build.id = b.id := by
  have hn : b.nvr = n := by simpa using List.find?_some hb
  have hmem : b ∈ t.builds := List.mem_of_find?_eq_some hb
  constructor
  · intro hname
    rw [hs.eq_of_display_eq ha hmem (by rw [hn]; exact hname)]
  · intro hid
    have hsame := hs.build?_self ha
    rw [hid, hs.build?_self hmem] at hsame
    rw [Tagging.name, ← Option.some.inj hsame, hn]

/-- A build that is tagged comes first, if it was not tagged yet. -/
lemma taggedBuilds_add (hbuilds : t'.builds = t.builds)
    (htaggings : t'.taggings.active none = t.taggings.active none ++ [⟨row.id, b.id⟩])
    (free : t.isTagged row.id b.id = false) :
    t'.taggedBuilds row = (⟨b, row⟩ : Tagging).shown :: t.taggedBuilds row := by
  have hn : b.nvr = n := by simpa using List.find?_some hb
  have hbuild : t.build? b.id = some b := hs.build?_self (List.mem_of_find?_eq_some hb)
  have hon : t'.taggingsOn none row = ⟨b, row⟩ :: t.taggingsOn none row := by
    simp [taggingsOn, build?_congr hbuilds, htaggings, hbuild]
  have hnew : ∀ a ∈ t.taggingsOn none row, a.name ≠ Tagging.name ⟨b, row⟩ := by
    intro a ha hname
    have hid := (name_eq_display_iff hs hb (build_mem_of_mem_taggingsOn ha)).mp
      (hname.trans (congrArg Nvr.display hn))
    obtain ⟨-, r, hr, htag, hfound⟩ := mem_taggingsOn_iff.mp ha
    have hrid : a.build.id = r.build := by simpa using List.find?_some hfound
    have htagged : t.isTagged row.id b.id = true := by
      simp only [isTagged, History.hasActive, List.any_eq_true, Bool.and_eq_true,
        decide_eq_true_eq]
      exact ⟨r, hr, htag, hrid.symm.trans hid⟩
    rw [free] at htagged
    cases htagged
  rw [taggedBuilds, hon, firstOfEach, if_neg (by simp), firstOfEach_cons_of_new hnew]
  rfl

/-- A build that is untagged is left out, however often it was tagged. -/
lemma taggedBuilds_revoke (hbuilds : t'.builds = t.builds)
    (htaggings : t'.taggings.active none =
      (t.taggings.active none).filter fun x => !(x.tag = row.id && x.build = b.id)) :
    t'.taggedBuilds row = (t.taggedBuilds row).filter fun e => e.nvr ≠ n.display := by
  have hon : t'.taggingsOn none row =
      (t.taggingsOn none row).filter fun a => a.name ≠ n.display := by
    simp only [taggingsOn, build?_congr hbuilds, htaggings, List.filter_map,
      List.filter_filterMap]
    -- left out are the rows of the build on one side, the taggings of its name on the other
    rw [List.filter_comm, ← List.filter_reverse, List.filterMap_filter]
    refine congrArg _ (List.filterMap_congr fun r hr => ?_)
    have htag : r.tag = row.id := by
      simpa using (List.mem_filter.mp (List.mem_reverse.mp hr)).2
    rcases hfound : t.build? r.build with _ | x
    · simp
    · have hx : x.id = r.build := by simpa using List.find?_some hfound
      have hname := name_eq_display_iff hs hb (a := ⟨x, row⟩) (List.mem_of_find?_eq_some hfound)
      simp only [hx] at hname
      by_cases hrb : r.build = b.id <;> simp [Option.filter, htag, hrb, hname]
  rw [taggedBuilds, hon, firstOfEach_filter [] fun a _ b _ hname => by rw [hname],
    taggedBuilds, List.filter_map]
  rfl

end Taggings

end Tables

end TagSync
