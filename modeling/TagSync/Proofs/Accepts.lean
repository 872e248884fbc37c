import TagSync.Proofs.Calls
import TagSync.Proofs.Elsewhere

/-!
When a call is accepted.

A call is judged by what the tag holds and sees at that time (`Tables.Accepts`), not by anything
else on the hub.
-/

namespace TagSync.Tables

variable {t t' : Tables} {tag : TagInfo} {row : TagRow} {flags : CallFlags} {event : EventId}
  {c : Clock} {o : Operation}

/-- What a tag that is not locked accepts. -/
def Accepts (t : Tables) (d : TagId) (force : Bool) : Operation → Prop
  | .addPackage package _ blocked _ =>
    force = true ∨ blocked = true ∨ (t.own d (.package package)).isSome ∨
      t.sees d (.package package) ≠ some true
  | .blockPackage package => (t.sees d (.package package)).isSome
  | .addGroup _ => True
  | .removeGroup group => (t.own d (.group group)).isSome
  | .blockGroup group => (t.sees d (.group group)).isSome
  | .addGroupPackage group _ | .blockGroupPackage group _ => t.sees d (.group group) = some false
  | .removeGroupPackage group package => (t.own d (.member group package)).isSome
  | .tagBuild nvr => ∃ n, Nvr.parse? nvr = some n ∧ (t.buildNamed? n).isSome ∧
    t.own d (.build n) = none ∧ (force = true ∨ t.sees d (.package n.name) = some false)
  | .untagBuild nvr => ∃ n, Nvr.parse? nvr = some n ∧ (t.own d (.build n)).isSome

/-! ### What is looked at -/

lemma ownsPackage_eq (t : Tables) (d : TagId) (package : String) :
    t.ownsPackage d package = (t.own d (.package package)).isSome := by
  rw [ownsPackage, own, Option.isSome_map, History.hasActive_eq]

lemma any_blocked_package? (hrow : t.tag? tag.id = some row) (package : String) :
    (t.package? tag.id none package).any PackageEntry.blocked = true ↔
      t.sees tag.id (.package package) = some true := by
  rw [← package?_map_blocked hrow]
  rcases t.package? tag.id none package with _ | p <;> simp

lemma any_active_group? (hrow : t.tag? tag.id = some row) (group : String) :
    ((t.group? tag.id group).any fun g => !g.blocked) = true ↔
      t.sees tag.id (.group group) = some false := by
  rw [← group?_map_blocked hrow]
  rcases t.group? tag.id group with _ | g <;> simp

lemma checkListed_eq_ok_iff (hrow : t.tag? tag.id = some row) (package : String) :
    t.checkListed tag package = .ok () ↔ t.sees tag.id (.package package) = some false := by
  rw [← package?_map_blocked hrow, checkListed]
  rcases t.package? tag.id none package with _ | p
  · simp
  · rcases hp : p.blocked with _ | _ <;> simp [hp]

lemma own_build_eq_none_iff {n : Nvr} {b : BuildRow} (hb : t.buildNamed? n = some b) (d : TagId) :
    t.own d (.build n) = none ↔ t.isTagged d b.id = false := by
  rw [own, holdsBuild, hb, Option.any_some]
  rcases t.isTagged d b.id with _ | _ <;> simp

lemma lookupBuild_of_found {nvr : String} {n : Nvr} {b : BuildRow} (hn : Nvr.parse? nvr = some n)
    (hb : t.buildNamed? n = some b) : t.lookupBuild nvr = .ok b := by
  simp only [lookupBuild, hn, hb]

/-! ### Each call -/

lemma exists_tagBuild (hrow : t.tag? tag.id = some row) {nvr : String}
    (h : t.Accepts tag.id flags.force (.tagBuild nvr)) :
    ∃ t', t.tagBuild tag flags event nvr = .ok t' := by
  obtain ⟨n, hn, hfound, hfree, hlisted⟩ := h
  obtain ⟨b, hb⟩ := Option.isSome_iff_exists.mp hfound
  have hname : b.nvr = n := by simpa using List.find?_some hb
  rw [own_build_eq_none_iff hb] at hfree
  rw [← hname, ← checkListed_eq_ok_iff hrow] at hlisted
  rcases hforce : flags.force with _ | _
  · have hlisted := hlisted.resolve_left (by simp [hforce])
    simp [tagBuild, lookupBuild_of_found hn hb, bind, Except.bind, hforce, hlisted, hfree, pure,
      Except.pure]
  · simp [tagBuild, lookupBuild_of_found hn hb, bind, Except.bind, hforce, hfree, pure,
      Except.pure]

lemma exists_untagBuild {nvr : String} (h : t.Accepts tag.id flags.force (.untagBuild nvr)) :
    ∃ t', t.untagBuild tag flags event nvr = .ok t' := by
  obtain ⟨n, hn, htagged⟩ := h
  rcases hb : t.buildNamed? n with _ | b
  · simp [own, holdsBuild, hb] at htagged
  · rw [Option.isSome_iff_ne_none, ne_eq, own_build_eq_none_iff hb, Bool.not_eq_false] at htagged
    simp [untagBuild, lookupBuild_of_found hn hb, bind, Except.bind, htagged, pure, Except.pure]

lemma exists_carryOut (hrow : t.tag? tag.id = some row) (h : t.Accepts tag.id flags.force o) :
    ∃ t', t.carryOut tag flags event o = .ok t' := by
  cases o with
  | addPackage package owner blocked extraArches =>
    simp only [carryOut, addPackage]
    rw [if_neg]
    · exact ⟨_, rfl⟩
    · rw [ownsPackage_eq]
      rcases h with h | h | h | h
      · simp [h]
      · simp [h]
      · simp [h]
      · rw [ne_eq, ← any_blocked_package? hrow, Bool.not_eq_true] at h
        simp [h]
  | blockPackage package =>
    simp only [Accepts, ← package?_map_blocked hrow, Option.isSome_map] at h
    obtain ⟨p, hp⟩ := Option.isSome_iff_exists.mp h
    simp only [carryOut, blockPackage, hp]
    exact ⟨_, rfl⟩
  | addGroup group => exact ⟨_, rfl⟩
  | removeGroup group =>
    rw [Accepts, own, Option.isSome_map, ← History.hasActive_eq] at h
    exact ⟨_, if_pos h⟩
  | blockGroup group =>
    rw [Accepts, ← group?_map_blocked hrow, Option.isSome_map] at h
    exact ⟨_, if_pos h⟩
  | addGroupPackage group package =>
    rw [Accepts, ← any_active_group? hrow] at h
    exact ⟨_, if_pos h⟩
  | removeGroupPackage group package =>
    rw [Accepts, own, Option.isSome_map, ← History.hasActive_eq] at h
    exact ⟨_, if_pos h⟩
  | blockGroupPackage group package =>
    rw [Accepts, ← any_active_group? hrow] at h
    exact ⟨_, if_pos h⟩
  | tagBuild nvr => exact exists_tagBuild hrow h
  | untagBuild nvr => exact exists_untagBuild h

lemma accepts_of_carryOut (hrow : t.tag? tag.id = some row)
    (h : t.carryOut tag flags event o = .ok t') : t.Accepts tag.id flags.force o := by
  have hcarried := carriedOut_of_carryOut h
  cases hcarried with
  | addPackage package owner blocked extraArches =>
    simp only [carryOut, addPackage] at h
    split at h
    · cases h
    · rename_i hfree
      rw [ownsPackage_eq, Bool.and_eq_true, Bool.and_eq_true, Bool.and_eq_true,
        any_blocked_package? hrow] at hfree
      simp only [Accepts]
      by_contra hnot
      simp only [not_or, ne_eq, not_not, Bool.not_eq_true] at hnot
      exact hfree (by simp [hnot])
  | addGroup group => trivial
  | blockPackage seen => rw [Accepts, ← package?_map_blocked hrow, seen]; rfl
  | removeGroup own => rwa [Accepts, Tables.own, Option.isSome_map, ← History.hasActive_eq]
  | blockGroup seen => rwa [Accepts, ← group?_map_blocked hrow, Option.isSome_map]
  | addGroupPackage package seen => exact (any_active_group? hrow _).mp seen
  | blockGroupPackage package seen => exact (any_active_group? hrow _).mp seen
  | removeGroupPackage own => rwa [Accepts, Tables.own, Option.isSome_map, ← History.hasActive_eq]
  | @tagBuild nvr n b parsed found listed free =>
    have hname : b.nvr = n := by simpa using List.find?_some found
    rw [checkListed_eq_ok_iff hrow, hname] at listed
    exact ⟨n, parsed, by rw [found]; rfl, (own_build_eq_none_iff found _).mpr free, listed⟩
  | @untagBuild nvr n b parsed found tagged =>
    refine ⟨n, parsed, ?_⟩
    rw [Option.isSome_iff_ne_none, ne_eq, own_build_eq_none_iff found, tagged]
    decide

/-- **A call is accepted** when its tag is not locked, or with force, and its condition is met. -/
theorem exists_call_iff (ht : t.Sound) (hrow : t.tag? tag.id = some row)
    (unlocked : (tag.isLocked && !flags.force) = false) :
    (∃ t', t.call c tag flags o = .ok t') ↔ t.Accepts tag.id flags.force o := by
  have hcall : t.call c tag flags o = (t.newEvent c).1.carryOut tag flags (t.newEvent c).2 o := by
    unfold call
    rw [unlocked]
    rfl
  have hsees : (t.newEvent c).1.sees tag.id = t.sees tag.id := by
    funext s
    rw [sees, sees, (Confined.newEvent c tag.id t).above_eq ht, own_newEvent]
  have hbuilds : (t.newEvent c).1.buildNamed? = t.buildNamed? := rfl
  have haccepts : (t.newEvent c).1.Accepts tag.id flags.force o ↔
      t.Accepts tag.id flags.force o := by
    cases o <;> simp only [Accepts, hsees, own_newEvent, hbuilds]
  have hrow' : (t.newEvent c).1.tag? tag.id = some row := hrow
  rw [hcall, ← haccepts]
  constructor
  · rintro ⟨t', h⟩
    exact accepts_of_carryOut hrow' h
  · exact exists_carryOut hrow'

end TagSync.Tables
