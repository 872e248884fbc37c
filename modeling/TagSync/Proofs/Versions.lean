import TagSync.Proofs.Brought
import TagSync.Proofs.Delivery

/-!
The versions of a record.

Whatever a hub has been through, at no event do two rows of one package, group or member of a tag
count; rows begin and end at events that have been, and end after they have begun; and a build
that was untagged is not tagged any more.
-/

namespace TagSync

namespace Tables

variable {α : Type} {c : Clock} {t t' : Tables} {tag : TagInfo} {flags : CallFlags}

/-- **Steps keep rows of one key apart.** -/
theorem Step.successive (hstep : Step c t t') (hs : t.Sound) (hg : t.Grounded)
    (hsucc : t.Successive) : t'.Successive := by
  have hw : (t.newEvent c).1.WrittenTo t.events.length :=
    ⟨hs.packages, hs.taggings, hs.groups, hs.members⟩
  have hle : (t.events.length : Int) ≤ (t.newEvent c).2 := Int.le_add_one (Int.le_refl _)
  have hevent : (t.newEvent c).1.Successive := { hsucc with }
  cases hstep with
  | call found accepted => exact (call_eq_ok accepted).successive hevent hw hle
  | createTag config new => exact { hevent with }
  | editTag config found => exact { hsucc with }
  | newRepo found => exact { hevent with }
  | importSeed checked imported =>
    exact successive_importSeed ((Confined.newEvent c 0 t).sound hs) hg hsucc checked imported

lemma Successive.empty : Tables.empty.Successive := ⟨.nil, .nil, .nil⟩

lemma Dated.empty : Tables.empty.Dated := ⟨.nil, .nil, .nil, .nil⟩

/-- The event has been: it is no later than the newest one. -/
def Happened (t : Tables) (event : EventId) : Prop :=
  ∃ newest, t.events.getLast? = some newest ∧ event ≤ newest.id

/-- All rows were made at events that have been, and revoked, if they were, at later ones that
have been, too. -/
def Lived (t : Tables) (h : History α) : Prop :=
  ∀ r ∈ h, t.Happened r.created ∧ ∀ x, r.revoked = some x → r.created < x ∧ t.Happened x

lemma Sound.happened (hs : t.Sound) {event : EventId} (hpos : 1 ≤ event)
    (hle : event ≤ t.events.length) : t.Happened event := by
  rcases hlast : t.events.getLast? with _ | newest
  · rw [List.getLast?_eq_none_iff] at hlast
    rw [hlast] at hle
    exact absurd (Int.le_trans hpos hle) (by decide)
  · exact ⟨newest, hlast, by rwa [hs.id_getLast? hlast]⟩

lemma Sound.lived (hs : t.Sound) {h : History α} (hd : h.Dated)
    (hstamped : h.StampedTo t.events.length) : t.Lived h := by
  intro r hr
  obtain ⟨hpos, hends⟩ := hd r hr
  obtain ⟨hcreated, hrevoked⟩ := hstamped r hr
  refine ⟨hs.happened hpos hcreated, fun x hx => ⟨hends x hx, ?_⟩⟩
  exact hs.happened (Int.le_trans hpos (Int.le_of_lt (hends x hx))) (hrevoked x hx)

/-- What is untagged is not tagged any more. -/
lemma not_tagged_of_untagBuild {o : Operation} {nvr : String} (ho : o = .untagBuild nvr)
    (h : t.call c tag flags o = .ok t') :
    ∃ n b, Nvr.parse? nvr = some n ∧ t.buildNamed? n = some b ∧
      ∀ r ∈ t'.taggings.active none, ¬ (r.tag = tag.id ∧ r.build = b.id) := by
  subst ho
  cases call_eq_ok h with
  | @untagBuild _ n b parsed found tagged =>
    refine ⟨n, b, parsed, found, fun r hr hsame => ?_⟩
    rw [taggings_notifyIf, History.active_revoke] at hr
    have hother := (List.mem_filter.mp hr).2
    simp [hsame] at hother

end Tables

namespace Hub

variable {h : Hub}

lemma Reachable.successive (hr : h.Reachable) : h.tables.Successive := by
  have hall := hr.holds (P := fun t => (t.Sound ∧ t.Grounded) ∧ t.Successive)
    ⟨⟨.empty, .empty⟩, .empty⟩ fun t t' ht hstep =>
      ⟨⟨hstep.sound ht.1.1, hstep.grounded ht.1.1 ht.1.2⟩, hstep.successive ht.1.1 ht.1.2 ht.2⟩
  exact hall.1.2

lemma Reachable.dated (hr : h.Reachable) : h.tables.Dated := by
  have hall := hr.holds (P := fun t => t.Sound ∧ t.Dated) ⟨.empty, .empty⟩
    fun t t' ht hstep => ⟨hstep.sound ht.1, hstep.dated ht.1 ht.2⟩
  exact hall.1.2

/-- **Versions of a record never overlap.** At most one row counts for each package, group and
member of a tag, at every event and now; every row was made and revoked at events that have been,
in this order; and what an accepted call untags is not tagged afterwards. -/
theorem versions_of_reachable (hr : h.Reachable) :
    (∀ event,
      ((h.tables.packages.active event).map fun r => (r.tag, r.package)).Nodup ∧
      ((h.tables.groups.active event).map fun r => (r.tag, r.group)).Nodup ∧
      ((h.tables.members.active event).map fun r => (r.tag, r.group, r.package)).Nodup) ∧
    (h.tables.Lived h.tables.packages ∧ h.tables.Lived h.tables.taggings ∧
      h.tables.Lived h.tables.groups ∧ h.tables.Lived h.tables.members) ∧
    ∀ d operations nvr flags results,
      let reply := h.session (.multicall d (operations ++ [.untagBuild nvr]) flags)
      reply.answer = .ok (results ++ [.ok ()]) →
      ∃ n b, Nvr.parse? nvr = some n ∧ h.tables.buildNamed? n = some b ∧
        ∀ r ∈ reply.state.tables.taggings.active none, ¬ (r.tag = d ∧ r.build = b.id) := by
  have hsucc := hr.successive
  have hdated := hr.dated
  have hs := hr.sound
  refine ⟨fun event => ?_, ?_, fun d operations nvr flags results => ?_⟩
  · exact ⟨hsucc.packages.nodup_active event, hsucc.groups.nodup_active event,
      hsucc.members.nodup_active event⟩
  · exact ⟨hs.lived hdated.packages hs.packages, hs.lived hdated.taggings hs.taggings,
      hs.lived hdated.groups hs.groups, hs.lived hdated.members hs.members⟩
  · intro reply accepted
    obtain ⟨tag, t, -, hid, hcall, hstate⟩ := call_of_multicall accepted
    obtain ⟨n, b, hparsed, hfound, hgone⟩ := Tables.not_tagged_of_untagBuild rfl hcall
    have hbuilds := (h.confined_answers tag flags operations).1.builds
    rw [Tables.buildNamed?, hbuilds] at hfound
    refine ⟨n, b, hparsed, hfound, fun r hr hsame => ?_⟩
    have hlast : reply.state.tables = t := congrArg Hub.tables hstate
    rw [hlast] at hr
    exact hgone r hr ⟨hsame.1.trans hid.symm, hsame.2⟩

/-! ### A tag with many versions -/

/-- The tag `s` lists a package, a build and a group with a member. -/
def versioned : Seed :=
  { schemaVersion := 0, users := [⟨"u", ["admin"]⟩]
    builds := [{ package := "a", version := "1", release := "1", owner := "u" }]
    tags := [
      { name := "s", packages := [{ name := "a", owner := "u" }], builds := ["a-1-1"]
        groups := [{ name := "g", members := [{ name := "a" }] }] }] }

def versionedHub : Hub := (({ user := "u" } : Hub).importSeed versioned).2

/-- Every record of the tag gets a new version; only the build is left out. -/
def revisions : List Operation :=
  [.blockPackage "a", .addPackage "a" "v" false none, .blockGroup "g", .addGroup "g",
    .blockGroupPackage "g" "a"]

/-- The package has three versions, one of which counts at each event; and once the build is
untagged it does not count. -/
theorem versions_of_reachable_versioned :
    let reply := versionedHub.session (.multicall 1 (revisions ++ [.untagBuild "a-1-1"]) {})
    reply.state.tables.packages.length = 3 ∧
      (∀ event, ((reply.state.tables.packages.active event).map
        fun r => (r.tag, r.package)).Nodup) ∧
      reply.state.tables.Lived reply.state.tables.packages ∧
      ∀ r ∈ reply.state.tables.taggings.active none, ¬ (r.tag = 1 ∧ r.build = 1) := by
  intro reply
  have checked : versioned.check .empty = .ok () := rfl
  have hr : versionedHub.Reachable := .importSeed checked (.start "u" _)
  obtain ⟨hcount, ⟨hlived, -⟩, -⟩ := versions_of_reachable (.request
    (.multicall 1 (revisions ++ [.untagBuild "a-1-1"]) {}) hr)
  obtain ⟨-, -, huntag⟩ := versions_of_reachable hr
  have found : versionedHub.tables.getTag (.byId 1) none = some ⟨1, "s", {}⟩ := by decide +kernel
  have accepted : (versionedHub.answers ⟨1, "s", {}⟩ {} (revisions ++ [.untagBuild "a-1-1"])).1 =
      revisions.map (fun _ => .ok ()) ++ [.ok ()] := by decide +kernel
  obtain ⟨n, b, hparsed, hfound, hgone⟩ := huntag 1 revisions "a-1-1" {} _
    ((multicall_eq found _ {}).1.trans (congrArg Except.ok accepted))
  have hbuild : (versionedHub.tables.buildNamed? n).map BuildRow.id = some 1 := by
    have hn : Nvr.parse? "a-1-1" = some ⟨"a", "1", "1"⟩ := by decide +kernel
    rw [hn] at hparsed
    cases hparsed
    decide +kernel
  rw [hfound, Option.map_some] at hbuild
  rw [Option.some.inj hbuild] at hgone
  exact ⟨by decide +kernel, fun event => (hcount event).1, hlived, hgone⟩

end Hub

end TagSync
