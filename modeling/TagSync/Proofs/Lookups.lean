import TagSync.Proofs.Accepts
import TagSync.Proofs.Listings
import TagSync.Proofs.Past

/-!
The texts of names, as a hub uses them.

Rows of builds differ in one of three parts, but a call looks a build up by the text that the parts
make up, and a listing leaves out what has the text of something before it. Dashes inside the parts
could make two rows look the same. No row with such parts gets onto a hub, so a text belongs to one
row, whatever is imported later.
-/

namespace TagSync

namespace Tables

variable {t : Tables} {id : TagId} {event : Option EventId} {b : BuildRow} {nvr : String}

/-! ### Looking builds up -/

/-- **A text stands for a row**: a call finds this row under the text, and it is the one that is
tagged or untagged. -/
structure StandsFor (t : Tables) (nvr : String) (b : BuildRow) : Prop where
  found : t.lookupBuild nvr = .ok b
  tagged : ∀ (c : Clock) (tag : TagInfo) (flags : CallFlags) (t' : Tables),
    t.call c tag flags (.tagBuild nvr) = .ok t' →
      t'.taggings = t.taggings.add (t.newEvent c).2 ⟨tag.id, b.id⟩
  untagged : ∀ (c : Clock) (tag : TagInfo) (flags : CallFlags) (t' : Tables),
    t.call c tag flags (.untagBuild nvr) = .ok t' →
      t'.taggings = t.taggings.revoke (t.newEvent c).2
        fun x => x.tag = tag.id && x.build = b.id

/-- Calls work on the row that they look up. -/
lemma standsFor_of_lookupBuild (h : t.lookupBuild nvr = .ok b) : t.StandsFor nvr b := by
  obtain ⟨n, hn, hb⟩ := lookupBuild_eq_ok h
  refine ⟨h, fun c tag flags t' hcall => ?_, fun c tag flags t' hcall => ?_⟩
  · cases call_eq_ok hcall with
    | @tagBuild _ n' b' parsed found listed free =>
      obtain rfl := Option.some.inj (hn.symm.trans parsed)
      obtain rfl := Option.some.inj (hb.symm.trans found)
      exact taggings_notifyIf ..
  · cases call_eq_ok hcall with
    | @untagBuild _ n' b' parsed found tagged =>
      obtain rfl := Option.some.inj (hn.symm.trans parsed)
      obtain rfl := Option.some.inj (hb.symm.trans found)
      exact taggings_notifyIf ..

namespace Sound

variable (hs : t.Sound)

include hs

/-- A row is found under its own text. -/
lemma standsFor_display (hb : b ∈ t.builds) : t.StandsFor b.nvr.display b :=
  standsFor_of_lookupBuild (lookupBuild_of_found (hs.readable b hb) (hs.buildNamed?_self hb))

lemma nodup_display : (t.builds.map fun b => b.nvr.display).Nodup :=
  hs.nvrs.of_map.map_on fun _ ha _ hb => hs.eq_of_display_eq ha hb

end Sound

/-! ### Builds that are left out -/

/-- The builds that are tagged into a tag, or into those it inherits from, shown or not. -/
def taggingsAlong (t : Tables) (id : TagId) (inherited : Bool) (event : Option EventId) :
    List Tagging :=
  (t.sources id inherited).flatMap (t.taggingsOn event)

lemma mem_taggingsAlong_of_shown {inherited : Bool} {x : Tagging}
    (h : x ∈ t.shownTaggings id inherited event) : x ∈ t.taggingsAlong id inherited event :=
  (List.mem_filter.mp (mem_of_mem_firstOfEach h)).1

lemma build_mem_of_mem_taggingsAlong {inherited : Bool} {x : Tagging}
    (h : x ∈ t.taggingsAlong id inherited event) : x.build ∈ t.builds := by
  obtain ⟨row, -, hx⟩ := List.mem_flatMap.mp h
  exact build_mem_of_mem_taggingsOn hx

/-- An entry bears the text of the name of its build. -/
lemma Tagging.nvr_of_entry {x : Tagging} {e : BuildEntry} (h : x.entry = .ok e) :
    e.nvr = x.build.nvr.display := by
  unfold entry at h
  rcases hstate : BuildState.parse x.build.state with f | s
  · rw [hstate] at h
    cases h
  · rw [hstate] at h
    cases h
    rfl

variable (hs : t.Sound) {inherited : Bool} {x : Tagging}
  (hx : x ∈ t.taggingsAlong id inherited event)

include hs hx

lemma entry_of_mem_taggingsAlong : x.entry = .ok x.shown := by
  obtain ⟨s, hstate⟩ := hs.states x.build (build_mem_of_mem_taggingsAlong hx)
  exact Tagging.entry_eq_ok hstate

/-- What comes before a build under its text is the same build. -/
lemma exists_shown_of_allowed
    (hallowed : allows (t.packageView event (t.chain id)) x.build.nvr.name = true) :
    ∃ y ∈ t.shownTaggings id inherited event, y.build = x.build := by
  have hmem : x ∈ ((t.sources id inherited).flatMap (t.taggingsOn event)).filter fun b =>
      allows (t.packageView event (t.chain id)) b.build.nvr.name :=
    List.mem_filter.mpr ⟨hx, hallowed⟩
  have hseen : Tagging.name x ∉ [] := List.not_mem_nil
  obtain ⟨y, hy, hname⟩ := name_mem_firstOfEach hmem hseen
  exact ⟨y, hy, hs.eq_of_display_eq (mem_builds_of_mem_shownTaggings hy)
    (build_mem_of_mem_taggingsAlong hx) hname⟩

end Tables

namespace Hub

variable {h : Hub} {id : TagId} {inherited latestOnly : Bool} {event : Option EventId}

/-- **A listing of builds by the rows that it is made of.** -/
structure ListsRows (h : Hub) (id : TagId) (inherited latestOnly : Bool) (event : Option EventId)
    (builds : List BuildEntry) : Prop where
  /-- What is listed is a build that is tagged, and from then on its text stands for this build. -/
  stands : ∀ e ∈ builds, ∃ x ∈ h.tables.taggingsAlong id inherited event, x.entry = .ok e ∧
    ∀ h', h.Evolves h' → h'.tables.StandsFor e.nvr x.build
  /-- A build that is tagged is listed if its package is, and not blocked; or a newer one is. -/
  listed : ∀ x ∈ h.tables.taggingsAlong id inherited event,
    (∃ p ∈ h.tables.listPackages id true event, p.name = x.build.nvr.name ∧ p.blocked = false) →
      ∃ y ∈ h.tables.taggingsAlong id inherited event, y.build = x.build ∧
        ∃ e, y.entry = .ok e ∧ (e ∈ builds ∨ latestOnly = true ∧
          ∃ newer ∈ builds, newer.packageName = e.packageName ∧ e.compareStrict newer = .lt)

lemma listsRows_shownBuilds (hr : h.Reachable) :
    h.ListsRows id inherited latestOnly event
      (h.tables.shownBuilds id inherited latestOnly event) where
  stands e he := by
    obtain ⟨x, hx, rfl⟩ := Tables.exists_shown_of_mem_shownBuilds he
    have halong := Tables.mem_taggingsAlong_of_shown hx
    refine ⟨x, halong, Tables.entry_of_mem_taggingsAlong hr.sound halong, fun h' later => ?_⟩
    -- rows of builds are only added to
    obtain ⟨new, hbuilds⟩ := (later.onward hr).builds
    refine (later.reachable hr).sound.standsFor_display ?_
    rw [hbuilds]
    exact List.mem_append_left _ (Tables.build_mem_of_mem_taggingsAlong halong)
  listed x hx hpackage := by
    obtain ⟨y, hy, hbuild⟩ :=
      Tables.exists_shown_of_allowed hr.sound hx (Tables.allows_iff.mpr hpackage)
    have halong := Tables.mem_taggingsAlong_of_shown hy
    refine ⟨y, halong, hbuild, y.shown, Tables.entry_of_mem_taggingsAlong hr.sound halong, ?_⟩
    have hshown : y.shown ∈ h.tables.shownBuilds id inherited false event :=
      List.mem_map_of_mem hy
    have hnames := h.tables.nodup_shownBuilds id inherited false event
    cases latestOnly with
    | false => exact .inl hshown
    | true => exact (BuildEntry.mem_latest_or_exists_newer hnames hshown).imp_right (⟨rfl, ·⟩)

/-- **The text of a name identifies a build**, on every hub. The texts of all builds can be read
back, and no two are the same. So a text from any listing stands for the very build that was
listed, and no build is left out because another one has its text. -/
theorem nvr_identifies_build (hr : h.Reachable) :
    (∀ b ∈ h.tables.builds, Nvr.parse b.nvr.display = .ok b.nvr) ∧
    (h.tables.builds.map fun b => b.nvr.display).Nodup ∧
    ∀ id, (h.tables.tag? id).isSome → ∀ inherited latestOnly event, ∃ builds : List BuildEntry,
      (h.session (.listBuilds id inherited latestOnly event)).answer = .ok builds ∧
        (builds.map BuildEntry.nvr).Nodup ∧
        h.ListsRows id inherited latestOnly event builds := by
  have hs := hr.sound
  refine ⟨fun b hb => Nvr.parse_eq_ok.mpr (hs.readable b hb), hs.nodup_display, ?_⟩
  intro id hid inherited latestOnly event
  refine ⟨h.tables.shownBuilds id inherited latestOnly event, ?_, ?_, listsRows_shownBuilds hr⟩
  · exact (listing_eq hid _).trans (Tables.listBuilds_eq hs ..)
  · exact Tables.nodup_shownBuilds ..

/-! ### Two names that look alike -/

/-- A package whose name is the first part of another one's, with builds of both. -/
def dashed : Seed :=
  { schemaVersion := 0, users := [⟨"u", ["admin"]⟩]
    builds := [
      { package := "lib-a", version := "1", release := "1", owner := "u" },
      { package := "lib", version := "a", release := "1", owner := "u" }]
    tags := [
      { name := "s"
        packages := [{ name := "lib", owner := "u" }, { name := "lib-a", owner := "u" }]
        builds := ["lib-a-1-1", "lib-a-1"] }] }

def dashedHub : Hub := (({ user := "u" } : Hub).importSeed dashed).2

/-- Builds that come later. -/
def dashedMore : Seed :=
  { schemaVersion := 0, users := []
    builds := [
      { package := "lib-a-1", version := "1", release := "1", owner := "u" },
      { package := "lib", version := "a", release := "2", owner := "u" }]
    tags := [] }

/-- A seed cannot have a version with a dash, which would make up the text of another build. -/
example : Seed.checkBuild [] { package := "lib", version := "a-1", release := "1", owner := "u" } =
    .error (.dashInBuild "lib-a-1-1") := by
  rfl

/-- Both builds are listed, and the texts go on to stand for them. -/
theorem nvr_identifies_build_dashed :
    ∃ builds : List BuildEntry,
      (dashedHub.session (.listBuilds 1 true false none)).answer = .ok builds ∧
      ∀ n ∈ [Nvr.mk "lib-a" "1" "1", Nvr.mk "lib" "a" "1"],
        ∃ e ∈ builds, e.nvr = n.display ∧ ∃ b : BuildRow, b.nvr = n ∧
          (dashedHub.importSeed dashedMore).2.tables.StandsFor n.display b := by
  have checked : dashed.check .empty = .ok () := rfl
  have checkedMore : dashedMore.check .empty = .ok () := rfl
  have hr : dashedHub.Reachable := .importSeed checked (.start "u" _)
  have later : dashedHub.Evolves (dashedHub.importSeed dashedMore).2 :=
    .importSeed checkedMore .refl
  obtain ⟨-, -, hlistings⟩ := nvr_identifies_build hr
  obtain ⟨builds, hbuilds, -, hrows⟩ := hlistings 1 (by decide +kernel) true false none
  have hparents : dashedHub.tables.parents 1 = [] := by decide +kernel
  have hchain : dashedHub.tables.chain 1 = [1].filterMap dashedHub.tables.tag? := by
    rw [Tables.chain]
    simp [Tables.walk, hparents]
  have htagged : ∀ n ∈ [Nvr.mk "lib-a" "1" "1", Nvr.mk "lib" "a" "1"],
      ∃ x ∈ dashedHub.tables.taggingsAlong 1 true none, x.build.nvr = n := by
    rw [Tables.taggingsAlong, Tables.sources, if_pos rfl, hchain]
    decide +kernel
  have hpackages : ∀ n ∈ [Nvr.mk "lib-a" "1" "1", Nvr.mk "lib" "a" "1"],
      ∃ p ∈ dashedHub.tables.listPackages 1 true none, p.name = n.name ∧ p.blocked = false := by
    rw [Tables.listPackages, Tables.sources, if_pos rfl, hchain]
    decide +kernel
  refine ⟨builds, hbuilds, fun n hn => ?_⟩
  obtain ⟨x, hx, rfl⟩ := htagged n hn
  obtain ⟨y, -, hbuild, e, hy, hlisted⟩ := hrows.listed x hx (hpackages _ hn)
  have he : e ∈ builds := hlisted.resolve_right fun hlatest => Bool.false_ne_true hlatest.1
  have hname : e.nvr = x.build.nvr.display := by rw [Tables.Tagging.nvr_of_entry hy, hbuild]
  obtain ⟨z, hz, hentry, hstands⟩ := hrows.stands e he
  have hsame : z.build = x.build :=
    hr.sound.eq_of_display_eq (Tables.build_mem_of_mem_taggingsAlong hz)
      (Tables.build_mem_of_mem_taggingsAlong hx)
      ((Tables.Tagging.nvr_of_entry hentry).symm.trans hname)
  have hlater := hstands _ later
  rw [hname, hsame] at hlater
  exact ⟨e, he, hname, x.build, rfl, hlater⟩

end Hub

end TagSync
