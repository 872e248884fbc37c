import TagSync.Proofs.Elsewhere
import TagSync.Proofs.Onward

/-!
Listings of the past.

Where the same records count, tables that have grown list the same for all tags that they had
before: these have the parents they had, and no record is about a tag or a build that was made
later.
-/

namespace TagSync

/-- The rows of a build that is tagged, with the tag as it is now. -/
def Tables.Tagging.retag (f : TagRow → TagRow) (b : Tables.Tagging) : Tables.Tagging :=
  ⟨b.build, f b.tag⟩

namespace Tables

variable {t t' : Tables} {f : TagRow → TagRow} {m m' : Option EventId} {id : TagId}

/-- The records that count in `t` at `m` are those that count in `t'` at `m'`. -/
structure SameRecords (t : Tables) (m : Option EventId) (t' : Tables) (m' : Option EventId) :
    Prop where
  packages : t'.packages.active m' = t.packages.active m
  taggings : t'.taggings.active m' = t.taggings.active m
  groups : t'.groups.active m' = t.groups.active m
  members : t'.members.active m' = t.members.active m

/-- What counts now goes on to count at the last event. -/
lemma Onward.sameRecords (h : Onward t t') (hs : t.Sound) :
    SameRecords t none t' (some t.events.length) where
  packages := (h.packages _ (Int.le_refl _)).trans (hs.packages.active_eq (Int.le_refl _))
  taggings := (h.taggings _ (Int.le_refl _)).trans (hs.taggings.active_eq (Int.le_refl _))
  groups := (h.groups _ (Int.le_refl _)).trans (hs.groups.active_eq (Int.le_refl _))
  members := (h.members _ (Int.le_refl _)).trans (hs.members.active_eq (Int.le_refl _))

namespace Onward

variable (h : Onward t t')

include h

/-! ### The chain -/

lemma parents_eq {x : TagId} (hx : x ≤ t.tags.length) : t'.parents x = t.parents x := by
  obtain ⟨new, hheirs, hnew⟩ := h.heirs
  have hnone : new.filter (·.tag = x) = [] := by
    rw [List.filter_eq_nil_iff]
    intro r hr heq
    have := hnew r hr
    rw [of_decide_eq_true heq] at this
    exact absurd hx (Int.not_le.mpr this)
  rw [parents, parents, hheirs, List.filter_append, hnone, List.append_nil]

variable (hs : t.Sound)

include hs

lemma walk_eq {todo seen : List TagId} (htodo : ∀ x ∈ todo, x ≤ t.tags.length) :
    t'.walk todo seen = t.walk todo seen := by
  fun_induction t.walk todo seen with
  | case1 => rw [walk]
  | case2 seen id todo hseen ih =>
    rw [walk, dif_pos hseen, ih fun x hx => htodo x (.tail _ hx)]
  | case3 seen id todo hseen ih =>
    rw [walk, dif_neg hseen, h.parents_eq (htodo id (.head _)), ih fun x hx => ?_]
    rcases List.mem_append.mp hx with hx | hx
    · obtain ⟨r, hr, rfl⟩ := List.mem_map.mp hx
      exact (hs.heirs r (List.mem_filter.mp (mem_sort.mp hr)).1).2
    · exact htodo x (.tail _ hx)

omit h in
lemma walk_le (hid : id ≤ t.tags.length) {x : TagId} (hx : x ∈ t.walk [id] []) :
    x ≤ t.tags.length := by
  rcases mem_todo_or_parent_of_mem_walk hx with hx | ⟨r, hr, rfl⟩
  · rwa [List.mem_singleton.mp hx]
  · exact (hs.heirs r hr).2

variable (hs' : t'.Sound) (hf : TagRow.Grown f t.events.length t.tags t'.tags)

include hs' hf

omit h hs in
lemma tag?_eq {x : TagId} (hx : x ≤ t.tags.length) : t'.tag? x = (t.tag? x).map f := by
  obtain ⟨new, htags, -⟩ := hf.rows
  have hnew : new.find? (fun row => row.id = x) = none := by
    have hids := hs'.tagIds
    rw [htags, List.map_append] at hids
    rw [List.find?_eq_none]
    intro row hrow heq
    have hlt := hids.lt_of_mem_append (List.mem_map_of_mem hrow)
    rw [List.length_map, List.length_map, of_decide_eq_true heq] at hlt
    exact absurd hx (Int.not_le.mpr hlt)
  have hsame : (fun row : TagRow => decide (row.id = x)) ∘ f = fun row => decide (row.id = x) := by
    funext row
    simp [(hf.same row).1]
  rw [tag?, tag?, htags, List.find?_append, hnew, Option.or_none, List.find?_map, hsame]

lemma chain_eq (hid : id ≤ t.tags.length) : t'.chain id = (t.chain id).map f := by
  rw [chain, chain, h.walk_eq hs (by simpa using hid), List.map_filterMap]
  exact List.filterMap_congr fun x hx => tag?_eq hs' hf (walk_le hs hid hx)

lemma sources_eq (hid : id ≤ t.tags.length) (inherited : Bool) :
    t'.sources id inherited = (t.sources id inherited).map f := by
  cases inherited
  · simp only [sources, Bool.false_eq_true, if_false, tag?_eq hs' hf hid]
    cases t.tag? id <;> rfl
  · exact h.chain_eq hs hs' hf hid

end Onward

/-! ### Views -/

section Views

variable (hm : SameRecords t m t' m') (hf : TagRow.Grown f t.events.length t.tags t'.tags)
  (tags : List TagRow)

include hm hf

lemma SameRecords.packageView_eq :
    t'.packageView m' (tags.map f) = t.packageView m tags := by
  have hon : ∀ row, t'.packagesOn m' (f row) = t.packagesOn m row := fun row => by
    rw [packagesOn, packagesOn, hm.packages, (hf.same row).1, (hf.same row).2.1]
  simp only [packageView, List.flatMap_map, hon]

lemma SameRecords.groupView_eq : t'.groupView m' (tags.map f) = t.groupView m tags := by
  have hon : ∀ row, t'.groupsOn m' (f row) = t.groupsOn m row := fun row => by
    rw [groupsOn, groupsOn, hm.groups, (hf.same row).1]
  have hmembers : t'.withMembers m' (tags.map f) = t.withMembers m tags := by
    have : ∀ group row, t'.membersOn m' group (f row) = t.membersOn m group row :=
      fun group row => by rw [membersOn, membersOn, hm.members, (hf.same row).1]
    funext g
    simp only [withMembers, List.flatMap_map, this]
  simp only [groupView, List.flatMap_map, hon, hmembers]

end Views

/-! ### Listings -/

/-- A list without doubles, where the names are others' names. -/
lemma firstOfEach_map {α β : Type} {name : α → String} {name' : β → String} {g : α → β}
    (hg : ∀ a, name' (g a) = name a) (seen : List String) (l : List α) :
    firstOfEach name' seen (l.map g) = (firstOfEach name seen l).map g := by
  induction l generalizing seen with
  | nil => rfl
  | cons a rest ih =>
    simp only [List.map_cons, firstOfEach, hg]
    split
    · exact ih seen
    · rw [ih, List.map_cons]

section Listings

variable (h : Onward t t') (hs : t.Sound) (hs' : t'.Sound) (hm : SameRecords t m t' m')
  (hid : id ≤ t.tags.length)

include h hs hs' hm hid

lemma Onward.listPackages_eq (inherited : Bool) :
    t'.listPackages id inherited m' = t.listPackages id inherited m := by
  obtain ⟨f, hf⟩ := h.tags
  rw [listPackages, listPackages, h.sources_eq hs hs' hf hid, hm.packageView_eq hf]

lemma Onward.listGroups_eq : t'.listGroups id m' = t.listGroups id m := by
  obtain ⟨f, hf⟩ := h.tags
  rw [listGroups, listGroups, h.chain_eq hs hs' hf hid, hm.groupView_eq hf]

variable (hg : t.Grounded)

omit hs hm hid in
lemma Onward.build?_eq {x : Int} (hx : x ≤ t.builds.length) : t'.build? x = t.build? x := by
  obtain ⟨new, hbuilds⟩ := h.builds
  have hnew : new.find? (fun b => b.id = x) = none := by
    have hids := hs'.buildIds
    rw [hbuilds, List.map_append] at hids
    rw [List.find?_eq_none]
    intro b hb heq
    have hlt := hids.lt_of_mem_append (List.mem_map_of_mem hb)
    rw [List.length_map, of_decide_eq_true heq] at hlt
    exact absurd hx (Int.not_le.mpr hlt)
  rw [build?, build?, hbuilds, List.find?_append, hnew, Option.or_none]

include hg

omit hs hid in
lemma Onward.taggingsOn_eq (hf : TagRow.Grown f t.events.length t.tags t'.tags) (row : TagRow) :
    t'.taggingsOn m' (f row) = (t.taggingsOn m row).map (.retag f) := by
  have hbuilds : ∀ r ∈ ((t.taggings.active m).filter (·.tag = row.id)).reverse,
      t'.build? r.build = t.build? r.build := by
    intro r hr
    have hactive := (List.mem_filter.mp (List.mem_reverse.mp hr)).1
    exact h.build?_eq hs' (hg.taggings.of_mem_active hactive).2
  rw [taggingsOn, taggingsOn, hm.taggings, (hf.same row).1, List.filterMap_congr hbuilds,
    List.map_map]
  rfl

lemma Onward.listBuilds_eq (inherited latestOnly : Bool) :
    t'.listBuilds id inherited latestOnly m' = t.listBuilds id inherited latestOnly m := by
  obtain ⟨f, hf⟩ := h.tags
  have hshown : t'.shownTaggings id inherited m' =
      (t.shownTaggings id inherited m).map (.retag f) := by
    have hall : (t'.sources id inherited).flatMap (t'.taggingsOn m') =
        ((t.sources id inherited).flatMap (t.taggingsOn m)).map (.retag f) := by
      rw [h.sources_eq hs hs' hf hid, List.flatMap_map, List.map_flatMap]
      exact List.flatMap_congr fun row _ => h.taggingsOn_eq hs' hm hg hf row
    rw [shownTaggings, shownTaggings, h.chain_eq hs hs' hf hid, hm.packageView_eq hf, hall,
      List.filter_map]
    exact firstOfEach_map (fun _ => rfl) _ _
  have hentry : ∀ b : Tagging, (b.retag f).entry = b.entry := fun b => by
    rw [Tagging.entry, Tagging.entry, Tagging.retag, (hf.same b.tag).1, (hf.same b.tag).2.1]
    rfl
  rw [listBuilds, listBuilds, hshown, List.mapM_map]
  simp only [Function.comp_def, hentry]

end Listings

/-! ### Tags -/

/-- Of the tags of a kind the first one that existed at an event is the one that was there. -/
lemma find?_of_grown {n : EventId} {l l' : List TagRow} (hf : TagRow.Grown f n l l')
    (hn : ∀ row ∈ l, row.created ≤ n) {p : TagRow → Bool} (hp : ∀ row, p (f row) = p row) :
    ((l'.find? p).filter fun row => row.created ≤ n) = (l.find? p).map f := by
  obtain ⟨new, rfl, hnew⟩ := hf.rows
  have hsame : p ∘ f = p := funext hp
  rw [List.find?_append, List.find?_map, hsame]
  rcases hrow : l.find? p with _ | row
  · rw [Option.map_none, Option.none_or, Option.filter_eq_none_iff]
    intro row hrow' hle
    exact absurd (of_decide_eq_true hle)
      (Int.not_le.mpr (hnew row (List.mem_of_find?_eq_some hrow')))
  · have hle := hn row (List.mem_of_find?_eq_some hrow)
    rw [← (hf.same row).2.2] at hle
    rw [Option.map_some, Option.some_or]
    exact Option.filter_some_pos (by simpa using hle)

/-- Tags that were made later are not found at the last event, and the others go on to be found
under their references. -/
lemma Onward.getTag_eq (h : Onward t t') (hg : t.Grounded) (ref : TagRef) :
    (t'.getTag ref (some t.events.length)).map (fun tag => (tag.id, tag.name)) =
      (t.getTag ref none).map fun tag => (tag.id, tag.name) := by
  obtain ⟨f, hf⟩ := h.tags
  have hinfo : ∀ row : Option TagRow,
      ((row.map f).map TagRow.info).map (fun tag => (tag.id, tag.name)) =
        (row.map TagRow.info).map fun tag => (tag.id, tag.name) := by
    intro row
    rcases row with _ | row
    · rfl
    · simp [TagRow.info, (hf.same row).1, (hf.same row).2.1]
  rw [getTag_none, ← hinfo]
  cases ref with
  | byId id =>
    have hrow := find?_of_grown hf hg.tags (p := fun row => row.id = id)
      fun row => by rw [(hf.same row).1]
    exact congrArg (fun row : Option TagRow => (row.map TagRow.info).map _) hrow
  | byName name =>
    have hrow := find?_of_grown hf hg.tags (p := fun row => row.name = name)
      fun row => by rw [(hf.same row).2.1]
    exact congrArg (fun row : Option TagRow => (row.map TagRow.info).map _) hrow

end Tables

namespace Hub

variable {h h' : Hub}

/-- What may become of a hub that stays open: users come and go, seeds are imported, requests are
made, repositories are noted down, and open transactions are settled. -/
inductive Evolves (h : Hub) : Hub → Prop where
  | refl : Evolves h h
  | actAs {h' : Hub} (user : String) (before : Evolves h h') : Evolves h { h' with user }
  | importSeed {h' : Hub} {s : Seed} {context : SeedContext} (checked : s.check context = .ok ())
      (before : Evolves h h') : Evolves h (h'.importSeed s).2
  | request {h' : Hub} (r : Request) (before : Evolves h h') : Evolves h (h'.session r).state
  | newRepo {h' : Hub} (tag : TagId) (before : Evolves h h') : Evolves h (h'.newRepo tag).2
  | settle {h' : Hub} (before : Evolves h h') : Evolves h h'.settle

namespace Evolves

lemma reachable (hr : h.Reachable) (later : h.Evolves h') : h'.Reachable := by
  induction later with
  | refl => exact hr
  | actAs user _ ih => exact .actAs user ih
  | importSeed checked _ ih => exact .importSeed checked ih
  | request r _ ih => exact .request r ih
  | newRepo tag _ ih => exact .newRepo tag ih
  | settle _ ih => exact .settle ih

/-- A hub that stays open moves onward. -/
lemma onward (hr : h.Reachable) (later : h.Evolves h') : h.tables.Onward h'.tables := by
  -- what the tables were before an open transaction does not matter
  have holds : h'.Holds (fun t => t.Sound ∧ h.tables.Onward t) fun _ => True := by
    have step : ∀ c t t', (t.Sound ∧ h.tables.Onward t) → Tables.Step c t t' →
        t'.Sound ∧ h.tables.Onward t' :=
      fun c t t' ht hstep => ⟨hstep.sound ht.1, ht.2.step ht.1 hstep⟩
    induction later with
    | refl => exact ⟨⟨hr.sound, .refl _⟩, fun _ _ => trivial⟩
    | actAs user _ ih => exact ih
    | importSeed checked _ ih => exact ih.importSeed (step _) checked
    | request r _ ih =>
      exact ih.request (fun t t' ht hedit => step _ t t' ht hedit.step) (fun _ _ => trivial) r
    | newRepo tag _ ih => exact ih.newRepo (fun t t' ht hedit => step _ t t' ht hedit.step) tag
    | settle _ ih => exact ⟨ih.1, fun _ _ => trivial⟩
  exact holds.1.2

end Evolves

/-- **History is stable.** Whatever becomes of a hub, at the event that was its newest one it goes
on to list what it listed then, and to find the tags that it found then. -/
theorem past_unchanged (hr : h.Reachable) {e : EventInfo}
    (newest : h.tables.events.getLast? = some e) (later : h.Evolves h') :
    (∀ id, (h.tables.tag? id).isSome →
      (∀ inherited, (h'.session (.listPackages id inherited (some e.id))).answer =
        (h.session (.listPackages id inherited none)).answer) ∧
      (∀ inherited latestOnly,
        (h'.session (.listBuilds id inherited latestOnly (some e.id))).answer =
          (h.session (.listBuilds id inherited latestOnly none)).answer) ∧
      (h'.session (.listGroups id (some e.id))).answer =
        (h.session (.listGroups id none)).answer) ∧
    ∀ ref, ∃ tag tag' : Option TagInfo, (h.session (.getTag ref none)).answer = .ok tag ∧
      (h'.session (.getTag ref (some e.id))).answer = .ok tag' ∧
      tag'.map (fun tag => (tag.id, tag.name)) = tag.map fun tag => (tag.id, tag.name) := by
  have hs := hr.sound
  have hs' := (later.reachable hr).sound
  have hon := later.onward hr
  rw [hs.id_getLast? newest]
  have hm := hon.sameRecords hs
  refine ⟨fun id hid => ?_, fun ref => ⟨_, _, rfl, rfl, hon.getTag_eq hr.grounded ref⟩⟩
  obtain ⟨row, hrow⟩ := Option.isSome_iff_exists.mp hid
  have hle : id ≤ h.tables.tags.length := by
    rw [← Tables.id_of_tag? hrow]
    exact hs.tag_le (Tables.mem_of_tag? hrow)
  obtain ⟨f, hf⟩ := hon.tags
  have hid' : (h'.tables.tag? id).isSome := by
    rwa [Tables.Onward.tag?_eq hs' hf hle, Option.isSome_map]
  have hlisting : ∀ {α : Type} (a : Except Failure α), h'.listing id a = h.listing id a :=
    fun a => (if_pos hid').trans (if_pos hid).symm
  refine ⟨fun inherited => ?_, fun inherited latestOnly => ?_, ?_⟩
  · exact (hlisting _).trans (congrArg (fun l => h.listing id (.ok l))
      (hon.listPackages_eq hs hs' hm hle inherited))
  · exact (hlisting _).trans (congrArg (h.listing id)
      (hon.listBuilds_eq hs hs' hm hle hr.grounded inherited latestOnly))
  · exact (hlisting _).trans (congrArg (fun l => h.listing id (.ok l))
      (hon.listGroups_eq hs hs' hm hle))

/-! ### A tag that loses what it shows -/

/-- The tag `s` has two builds and a package, and sees a group of the tag above it. -/
def dwindling : Seed :=
  { schemaVersion := 0, users := [⟨"u", ["admin"]⟩]
    builds := ["1", "2"].map fun version =>
      { package := "a", version, release := "1", owner := "u" }
    tags := [
      { name := "p", groups := [{ name := "g", members := [{ name := "a" }] }] },
      { name := "s", parents := [{ name := "p" }], packages := [{ name := "a", owner := "u" }]
        builds := ["a-1-1", "a-2-1"] }] }

def dwindlingHub : Hub := (({ user := "u" } : Hub).importSeed dwindling).2

/-- A build is untagged, the package and the group are blocked, and a tag is made. -/
def dwindledHub : Hub :=
  let gone := (dwindlingHub.session (.multicall 2
    [.untagBuild "a-2-1", .blockPackage "a", .blockGroup "g"] {})).state
  (gone.session (.createTag "t" {})).state

/-- What `s` shows now has changed, but not what it shows at the event of the import; the new tag
was not there. -/
theorem past_unchanged_dwindling :
    (dwindledHub.session (.listPackages 2 true (some 1))).answer =
        (dwindlingHub.session (.listPackages 2 true none)).answer ∧
      (dwindledHub.session (.listBuilds 2 true false (some 1))).answer =
        (dwindlingHub.session (.listBuilds 2 true false none)).answer ∧
      (dwindledHub.session (.listGroups 2 (some 1))).answer =
        (dwindlingHub.session (.listGroups 2 none)).answer ∧
      (dwindledHub.session (.getTag (.byName "t") (some 1))).answer = .ok none ∧
      dwindledHub.tables.listPackages 2 true none ≠ dwindlingHub.tables.listPackages 2 true none ∧
      dwindledHub.tables.listGroups 2 none ≠ dwindlingHub.tables.listGroups 2 none := by
  have checked : dwindling.check .empty = .ok () := rfl
  have hr : dwindlingHub.Reachable := .importSeed checked (.start "u" _)
  have later : dwindlingHub.Evolves dwindledHub := .request _ (.request _ .refl)
  obtain ⟨e, newest⟩ : ∃ e, dwindlingHub.tables.events.getLast? = some e :=
    Option.isSome_iff_exists.mp (by decide +kernel)
  have hid : e.id = 1 := hr.sound.id_getLast? newest
  obtain ⟨hlistings, htags⟩ := past_unchanged hr newest later
  rw [hid] at hlistings htags
  obtain ⟨hpackages, hbuilds, hgroups⟩ := hlistings 2 (by decide +kernel)
  obtain ⟨tag, tag', hnow, hthen, hsame⟩ := htags (.byName "t")
  obtain rfl : tag = none := by
    cases hnow
    decide +kernel
  obtain rfl : tag' = none := by simpa using hsame
  exact ⟨hpackages true, hbuilds true false, hgroups, hthen, by decide +kernel,
    by decide +kernel⟩

end Hub

end TagSync
