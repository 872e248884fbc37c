import TagSync.Proofs.Past
import TagSync.Proofs.Rework

/-!
What requests and runs leave alone.

A request with calls, and a run, write to one tag. The records of all other tags stay as they are,
those that were revoked included, and a tag that does not inherit from the one that is written to
goes on to show what it showed, at every event.
-/

namespace TagSync

namespace Tables

variable {c : Clock} {d u : TagId} {t t' t'' : Tables}

/-! ### Records of other tags -/

/-- The rows of other tags are the same in both tables, and in the same order. -/
structure SameRows (d : TagId) (t t' : Tables) : Prop where
  packages : t'.packages.rowsOf (fun r => r.tag ≠ d) = t.packages.rowsOf fun r => r.tag ≠ d
  taggings : t'.taggings.rowsOf (fun r => r.tag ≠ d) = t.taggings.rowsOf fun r => r.tag ≠ d
  groups : t'.groups.rowsOf (fun r => r.tag ≠ d) = t.groups.rowsOf fun r => r.tag ≠ d
  members : t'.members.rowsOf (fun r => r.tag ≠ d) = t.members.rowsOf fun r => r.tag ≠ d

lemma SameRows.refl (d : TagId) (t : Tables) : SameRows d t t := ⟨rfl, rfl, rfl, rfl⟩

lemma Confined.sameRows (e : Confined c d t t') : SameRows d t t' where
  packages := e.packages.rowsOf_eq fun r hr => by simpa using hr
  taggings := e.taggings.rowsOf_eq fun r hr => by simpa using hr
  groups := e.groups.rowsOf_eq fun r hr => by simpa using hr
  members := e.members.rowsOf_eq fun r hr => by simpa using hr

/-! ### What other tags show -/

/-- A reference that means the same row finds the same tag, at every event. -/
lemma getTag_congr_row? {ref : TagRef} {row : TagRow} (h' : t'.row? ref = some row)
    (h : t.row? ref = some row) (m : Option EventId) : t'.getTag ref m = t.getTag ref m := by
  refine Option.ext fun tag => ?_
  rw [getTag_eq_some_iff, getTag_eq_some_iff, h', h]

/-- All that can be asked about a tag and its content has one answer in both tables, at every
event. -/
structure SameAnswers (u : TagId) (t t' : Tables) : Prop where
  row : ∀ ref row, t.row? ref = some row → row.id = u → t'.row? ref = some row
  packages : ∀ inherited m, t'.listPackages u inherited m = t.listPackages u inherited m
  builds : ∀ inherited latestOnly m,
    t'.listBuilds u inherited latestOnly m = t.listBuilds u inherited latestOnly m
  groups : ∀ m, t'.listGroups u m = t.listGroups u m

namespace SameAnswers

lemma refl (u : TagId) (t : Tables) : SameAnswers u t t where
  row := fun _ _ hrow _ => hrow
  packages := fun _ _ => rfl
  builds := fun _ _ _ => rfl
  groups := fun _ => rfl

lemma trans (h : SameAnswers u t t') (h' : SameAnswers u t' t'') : SameAnswers u t t'' where
  row := fun ref row hrow hid => h'.row ref row (h.row ref row hrow hid) hid
  packages := fun inherited m => (h'.packages inherited m).trans (h.packages inherited m)
  builds := fun inherited latestOnly m =>
    (h'.builds inherited latestOnly m).trans (h.builds inherited latestOnly m)
  groups := fun m => (h'.groups m).trans (h.groups m)

end SameAnswers

/-- A tag that does not inherit from the changed one shows what it showed. -/
lemma Confined.sameAnswers (e : Confined c d t t') (hs : t.Sound) (hu : d ∉ t.walk [u] []) :
    SameAnswers u t t' := by
  have hw := hs.writtenTo
  have hm : ∀ m, SameMoment t.events.length m m := fun _ => .inl rfl
  have hne : u ≠ d := by
    rintro rfl
    exact hu (by rw [walk_singleton]; exact .head _)
  refine ⟨fun ref row hrow hid => ?_, fun inherited m => e.listPackages_eq hw (hm m) hu inherited,
    fun inherited latestOnly m => ?_, fun m => e.listGroups_eq hw (hm m) hu⟩
  · obtain ⟨f, hf⟩ := e.settings
    have hother : row.id ≠ d := by rwa [hid]
    rw [row?_of_settings hf, hrow, Option.map_some, if_neg hother]
  · rw [listBuilds, listBuilds, e.shownTaggings_eq hw (hm m) hu]

/-- A new tag makes no difference to the tags that were there. -/
lemma Sound.sameAnswers_withTag (hs : t.Sound) (hg : t.Grounded) (hu : u ≤ t.tags.length)
    {name : String} (missing : t.tagNamed? name = none) (c : Clock) (config : TagConfig) :
    SameAnswers u t (t.withTag c name config) := by
  have hstep : Step c t (t.withTag c name config) := .createTag config missing
  have hon : Onward t (t.withTag c name config) := (Onward.refl t).step hs hstep
  have hs' := hstep.sound hs
  have hm : ∀ m, SameRecords t m (t.withTag c name config) m := fun _ => ⟨rfl, rfl, rfl, rfl⟩
  exact ⟨fun ref row hrow _ => row?_withTag hrow c name config,
    fun inherited m => hon.listPackages_eq hs hs' (hm m) hu _,
    fun inherited latestOnly m => hon.listBuilds_eq hs hs' (hm m) hu hg inherited latestOnly,
    fun m => hon.listGroups_eq hs hs' (hm m) hu⟩

/-! ### Changes that keep to one tag -/

lemma Reworked.sameRows (hw : Reworked c d t t') : SameRows d t t' := by
  cases hw with
  | untouched => exact .refl d t
  | edited found confined => exact confined.sameRows
  | made new missing confined =>
    -- a new tag comes without records
    exact ⟨confined.sameRows.packages, confined.sameRows.taggings, confined.sameRows.groups,
      confined.sameRows.members⟩

lemma Reworked.sameAnswers (hw : Reworked c d t t') (hs : t.Sound) (hg : t.Grounded)
    (hu : (t.tag? u).isSome) (apart : ∀ a ∈ t.chain u, a.id ≠ d) : SameAnswers u t t' := by
  obtain ⟨row, hrow⟩ := Option.isSome_iff_exists.mp hu
  have hle : u ≤ t.tags.length := by
    rw [← id_of_tag? hrow]
    exact hs.tag_le (mem_of_tag? hrow)
  cases hw with
  | untouched => exact .refl u t
  | edited found confined =>
    refine confined.sameAnswers hs fun hmem => ?_
    obtain ⟨own, hown⟩ := Option.isSome_iff_exists.mp found
    have hchain : own ∈ t.chain u := List.mem_filterMap.mpr ⟨d, hmem, hown⟩
    exact apart own hchain (id_of_tag? hown)
  | @made t' name config new missing confined =>
    have hstep : Step c t (t.withTag c name config) := .createTag config missing
    have hon : Onward t (t.withTag c name config) := (Onward.refl t).step hs hstep
    have hmade := hs.sameAnswers_withTag hg hle missing c config
    refine hmade.trans (confined.sameAnswers (hstep.sound hs) fun hmem => ?_)
    rw [hon.walk_eq hs (by simpa using hle)] at hmem
    have hold := Onward.walk_le hs hle hmem
    rw [new] at hold
    exact absurd hold (Int.not_le.mpr (Int.lt_add_one_of_le (Int.le_refl _)))

end Tables

namespace Hub

variable {h h' : Hub} {d : TagId}

/-- What a request with calls for a tag makes of a hub, and what a run makes of it whose
destination is the tag, however they end. -/
inductive Writes (h : Hub) : TagId → Hub → Prop where
  | calls (d : TagId) (operations : List Operation) (flags : CallFlags) :
    h.Writes d (h.session (.multicall d operations flags)).state
  | run (c : RunContext) (o : CloneOptions) :
    h.Writes (Clone.destinationId o h.tables) ((Clone.run c o).run session h).state

lemma Writes.reworked (hr : h.Reachable) (hw : h.Writes d h') :
    h.tables.Reworked h.clock d h'.tables := by
  cases hw with
  | calls _ operations flags =>
    have hstate : (h.session (.multicall d operations flags)).state =
        (h.multicall d operations flags).state := rfl
    rw [hstate]
    rcases found : h.tables.getTag (.byId d) none with _ | tag
    · have hsame : (h.multicall d operations flags).state = h := by
        simp only [multicall, found]
      rw [hsame]
      exact .untouched
    · obtain ⟨row, hrow, -, rfl⟩ := Tables.getTag_eq_some_iff.mp found
      have hid : row.info.id = d := Tables.id_of_tag? hrow
      rw [(multicall_eq found operations flags).2]
      refine .edited (Option.isSome_of_eq_some hrow) ?_
      rw [← hid]
      exact (h.confined_answers row.info flags operations).1
  | run c o => exact Clone.reworked_of_run hr c o

/-- Where the tables have the same answers about a tag, so have the hubs, at every event. -/
lemma answers_of_sameAnswers {u : TagId} (hsame : h.tables.SameAnswers u h'.tables)
    (hu : (h.tables.tag? u).isSome) :
    (∀ ref tag, h.tables.getTag ref none = some tag → tag.id = u → ∀ event,
      (h'.session (.getTag ref event)).answer = (h.session (.getTag ref event)).answer) ∧
    (∀ inherited event, (h'.session (.listPackages u inherited event)).answer =
      (h.session (.listPackages u inherited event)).answer) ∧
    (∀ inherited latestOnly event,
      (h'.session (.listBuilds u inherited latestOnly event)).answer =
        (h.session (.listBuilds u inherited latestOnly event)).answer) ∧
    ∀ event, (h'.session (.listGroups u event)).answer =
      (h.session (.listGroups u event)).answer := by
  have hu' : (h'.tables.tag? u).isSome := by
    obtain ⟨row, hrow⟩ := Option.isSome_iff_exists.mp hu
    exact Option.isSome_of_eq_some (hsame.row (.byId u) row hrow (Tables.id_of_tag? hrow))
  have hlisting : ∀ {α : Type} (a : Except Failure α), h'.listing u a = h.listing u a :=
    fun a => (if_pos hu').trans (if_pos hu).symm
  refine ⟨fun ref tag found hid event => ?_, fun inherited event => ?_,
    fun inherited latestOnly event => ?_, fun event => ?_⟩
  · obtain ⟨row, hrow, -, rfl⟩ := Tables.getTag_eq_some_iff.mp found
    exact congrArg Except.ok (Tables.getTag_congr_row? (hsame.row ref row hrow hid) hrow event)
  · exact (hlisting _).trans
      (congrArg (fun l => h.listing u (.ok l)) (hsame.packages inherited event))
  · exact (hlisting _).trans (congrArg (h.listing u) (hsame.builds inherited latestOnly event))
  · exact (hlisting _).trans (congrArg (fun l => h.listing u (.ok l)) (hsame.groups event))

/-- **A request or a run touches nothing but its tag.** The rows of other tags are what they were,
and a tag that was there and does not inherit from it is found and shown as before, now and at
every event. -/
theorem untouched_of_writes (hr : h.Reachable) (hw : h.Writes d h') :
    h.tables.SameRows d h'.tables ∧
    ∀ u, (h.tables.tag? u).isSome → (∀ a ∈ h.tables.chain u, a.id ≠ d) →
      (∀ ref tag, h.tables.getTag ref none = some tag → tag.id = u → ∀ event,
        (h'.session (.getTag ref event)).answer = (h.session (.getTag ref event)).answer) ∧
      (∀ inherited event, (h'.session (.listPackages u inherited event)).answer =
        (h.session (.listPackages u inherited event)).answer) ∧
      (∀ inherited latestOnly event,
        (h'.session (.listBuilds u inherited latestOnly event)).answer =
          (h.session (.listBuilds u inherited latestOnly event)).answer) ∧
      ∀ event, (h'.session (.listGroups u event)).answer =
        (h.session (.listGroups u event)).answer := by
  have hreworked := hw.reworked hr
  exact ⟨hreworked.sameRows, fun u hu apart =>
    answers_of_sameAnswers (hreworked.sameAnswers hr.sound hr.grounded hu apart) hu⟩

/-! ### Two tags below one -/

/-- The tags `s` and `d` both inherit from `p`. -/
def siblings : Seed :=
  { schemaVersion := 0, users := [⟨"u", ["tag"]⟩]
    builds := [{ package := "a", version := "1", release := "1", owner := "u" }]
    tags := [
      { name := "p", packages := [{ name := "a", owner := "u" }], builds := ["a-1-1"]
        groups := [{ name := "g", members := [{ name := "a" }] }] },
      { name := "s", parents := [{ name := "p" }], packages := [{ name := "b", owner := "u" }]
        groups := [{ name := "g", blocked := true }] },
      { name := "d", parents := [{ name := "p" }], packages := [{ name := "c", owner := "u" }] }] }

def siblingsHub : Hub := (({ user := "u" } : Hub).importSeed siblings).2

/-- The hub after a run from `s` to `d`, which blocks the group that `d` inherits from `p`. -/
def clonedHub : Hub :=
  ((Clone.run ⟨"r", none⟩ { src := .byName "s", dst := .byName "d" }).run session
    siblingsHub).state

/-- The run has changed what `d` shows, and neither the rows of `p` and `s` nor what they show. -/
theorem untouched_of_writes_siblings :
    siblingsHub.tables.SameRows 3 clonedHub.tables ∧
      (clonedHub.session (.getTag (.byName "p") none)).answer =
        (siblingsHub.session (.getTag (.byName "p") none)).answer ∧
      (clonedHub.session (.listGroups 1 none)).answer =
        (siblingsHub.session (.listGroups 1 none)).answer ∧
      (clonedHub.session (.listPackages 2 true (some 1))).answer =
        (siblingsHub.session (.listPackages 2 true (some 1))).answer ∧
      clonedHub.tables.listGroups 3 none ≠ siblingsHub.tables.listGroups 3 none := by
  have checked : siblings.check .empty = .ok () := rfl
  have hr : siblingsHub.Reachable := .importSeed checked (.start "u" _)
  have hid : Clone.destinationId { src := .byName "s", dst := .byName "d" } siblingsHub.tables =
      3 := by decide +kernel
  have hw : siblingsHub.Writes 3 clonedHub := hid ▸ .run ⟨"r", none⟩ _
  obtain ⟨hrows, hothers⟩ := untouched_of_writes hr hw
  obtain ⟨htag, -, -, hgroups⟩ := hothers 1 (by decide +kernel) (by decide +kernel)
  obtain ⟨-, hpackages, -, -⟩ := hothers 2 (by decide +kernel) (by decide +kernel)
  exact ⟨hrows, htag (.byName "p") ⟨1, "p", {}⟩ (by decide +kernel) rfl none, hgroups none,
    hpackages true (some 1), by decide +kernel⟩

end Hub

end TagSync
