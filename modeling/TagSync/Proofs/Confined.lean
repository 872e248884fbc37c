import TagSync.Hub.Call
import TagSync.Proofs.Sound

/-!
Changes that are confined to one tag.

All that is stored on other tags stays as it is, rows that were revoked included; of the tag
itself number, name and age stay. Events are only added.
-/

namespace TagSync

/-! ### One history -/

/-- The rows of records that are not one's own are left alone, and no stamp lies after `n`. -/
structure History.Edited {α : Type} (own : α → Bool) (n : EventId) (h h' : History α) : Prop where
  others : (h'.rowsOf fun a => !own a) = h.rowsOf fun a => !own a
  stamped : ∀ m, n ≤ m → h.StampedTo m → h'.StampedTo m

namespace History.Edited

variable {α : Type} {own : α → Bool} {n n' : EventId} {h h' h'' : History α}

lemma refl (own : α → Bool) (n : EventId) (h : History α) : h.Edited own n h :=
  ⟨rfl, fun _ _ hs => hs⟩

lemma trans (hn : n ≤ n') (e : h.Edited own n h') (e' : h'.Edited own n' h'') :
    h.Edited own n' h'' :=
  ⟨e'.others.trans e.others,
    fun m hm hs => e'.stamped m hm (e.stamped m (Int.le_trans hn hm) hs)⟩

lemma add {event : EventId} (he : event ≤ n) {a : α} (ha : own a) :
    h.Edited own n (h.add event a) :=
  ⟨rowsOf_add (by simp [ha]), fun _ hm hs => hs.add (Int.le_trans he hm) a⟩

lemma revoke {event : EventId} (he : event ≤ n) {p : α → Bool} (hp : ∀ a, p a → own a) :
    h.Edited own n (h.revoke event p) := by
  refine ⟨rowsOf_revoke fun a ha => ?_, fun _ hm hs => hs.revoke (Int.le_trans he hm) p⟩
  by_contra hpa
  rw [hp a (by simpa using hpa)] at ha
  cases ha

lemma replace {event : EventId} (he : event ≤ n) {p : α → Bool} (hp : ∀ a, p a → own a) {a : α}
    (ha : own a) : h.Edited own n (h.replace event p a) :=
  (revoke he hp).trans (Int.le_refl n) (add he ha)

/-- Rows of any kind that has no record of one's own. -/
lemma rowsOf_eq (e : h.Edited own n h') {q : α → Bool} (hq : ∀ a, q a → own a = false) :
    h'.rowsOf q = h.rowsOf q := by
  have key : ∀ l : History α, l.rowsOf q = (l.rowsOf fun a => !own a).rowsOf q := by
    intro l
    simp only [rowsOf, List.filter_filter]
    refine List.filter_congr fun r _ => ?_
    by_cases hr : q r.record = true
    · simp [hr, hq _ hr]
    · simp [hr]
  rw [key h', e.others, ← key h]

end History.Edited

namespace Tables

/-! ### All tables -/

/-- **Nothing but the content and the settings of one tag is changed**, at new events. -/
structure Confined (c : Clock) (d : TagId) (t t' : Tables) : Prop where
  users : t'.users = t.users
  perms : t'.perms = t.perms
  inheritance : t'.inheritance = t.inheritance
  builds : t'.builds = t.builds
  repos : t'.repos = t.repos
  settings : ∃ f : TagConfig → TagConfig,
    t'.tags = t.tags.map fun r => if r.id = d then { r with config := f r.config } else r
  events : ∃ new, t'.events = t.events ++ new
  eventIds : Numbered (t.events.map EventInfo.id) → Numbered (t'.events.map EventInfo.id)
  timed : c.Forward → t.Timed c → t'.Timed c
  packages : t.packages.Edited (fun r => r.tag = d) t'.events.length t'.packages
  taggings : t.taggings.Edited (fun r => r.tag = d) t'.events.length t'.taggings
  groups : t.groups.Edited (fun r => r.tag = d) t'.events.length t'.groups
  members : t.members.Edited (fun r => r.tag = d) t'.events.length t'.members

variable {c : Clock} {d : TagId} {t t' t'' : Tables}

lemma map_settings_id (d : TagId) (l : List TagRow) :
    (l.map fun r => if r.id = d then { r with config := id r.config } else r) = l := by
  refine (List.map_congr_left fun r _ => ?_).trans l.map_id
  split <;> rfl

namespace Confined

lemma refl (c : Clock) (d : TagId) (t : Tables) : Confined c d t t where
  users := rfl
  perms := rfl
  inheritance := rfl
  builds := rfl
  repos := rfl
  settings := ⟨id, (map_settings_id d t.tags).symm⟩
  events := ⟨[], (List.append_nil _).symm⟩
  eventIds := id
  timed := fun _ ht => ht
  packages := .refl ..
  taggings := .refl ..
  groups := .refl ..
  members := .refl ..

lemma length_le (e : Confined c d t t') : (t.events.length : Int) ≤ t'.events.length := by
  obtain ⟨new, h⟩ := e.events
  rw [h, List.length_append]
  omega

lemma trans (e : Confined c d t t') (e' : Confined c d t' t'') : Confined c d t t'' where
  users := e'.users.trans e.users
  perms := e'.perms.trans e.perms
  inheritance := e'.inheritance.trans e.inheritance
  builds := e'.builds.trans e.builds
  repos := e'.repos.trans e.repos
  settings := by
    obtain ⟨f, hf⟩ := e.settings
    obtain ⟨f', hf'⟩ := e'.settings
    refine ⟨f' ∘ f, ?_⟩
    rw [hf', hf, List.map_map]
    refine List.map_congr_left fun r _ => ?_
    by_cases hr : r.id = d <;> simp [hr]
  events := by
    obtain ⟨new, h⟩ := e.events
    obtain ⟨new', h'⟩ := e'.events
    exact ⟨new ++ new', by rw [h', h, List.append_assoc]⟩
  eventIds := e'.eventIds ∘ e.eventIds
  timed := fun hc ht => e'.timed hc (e.timed hc ht)
  packages := e.packages.trans e'.length_le e'.packages
  taggings := e.taggings.trans e'.length_le e'.taggings
  groups := e.groups.trans e'.length_le e'.groups
  members := e.members.trans e'.length_le e'.members

/-! ### Single writes -/

lemma newEvent (c : Clock) (d : TagId) (t : Tables) : Confined c d t (t.newEvent c).1 :=
  { refl c d t with
    events := ⟨_, rfl⟩
    eventIds := fun h => by
      have := h.append
      simpa [Tables.newEvent] using this
    timed := timed_newEvent
    packages := .refl ..
    taggings := .refl ..
    groups := .refl ..
    members := .refl .. }

lemma setConfig (c : Clock) (d : TagId) (t : Tables) (config : TagConfig) :
    Confined c d t (t.setConfig d config) :=
  { refl c d t with settings := ⟨fun _ => config, rfl⟩, timed := fun _ => .congr rfl }

lemma ofPackages {l : History PackageRow}
    (h : t.packages.Edited (fun r => r.tag = d) t.events.length l) :
    Confined c d t { t with packages := l } :=
  { refl c d t with packages := h, timed := fun _ => .congr rfl }

lemma ofTaggings {l : History TaggingRow}
    (h : t.taggings.Edited (fun r => r.tag = d) t.events.length l) :
    Confined c d t { t with taggings := l } :=
  { refl c d t with taggings := h, timed := fun _ => .congr rfl }

lemma ofGroups {l : History GroupRow}
    (h : t.groups.Edited (fun r => r.tag = d) t.events.length l) :
    Confined c d t { t with groups := l } :=
  { refl c d t with groups := h, timed := fun _ => .congr rfl }

lemma ofMembers {l : History MemberRow}
    (h : t.members.Edited (fun r => r.tag = d) t.events.length l) :
    Confined c d t { t with members := l } :=
  { refl c d t with members := h, timed := fun _ => .congr rfl }

lemma notifyIf (c : Clock) (d : TagId) (t : Tables) (flags : CallFlags) (n : Notice) :
    Confined c d t (t.notifyIf flags n) := by
  unfold Tables.notifyIf
  split
  · exact { refl c d t with timed := fun _ => .congr rfl }
  · exact refl c d t

/-! ### What stays -/

lemma tag? (e : Confined c d t t') {x : TagId} (hx : x ≠ d) : t'.tag? x = t.tag? x := by
  obtain ⟨f, hf⟩ := e.settings
  rw [Tables.tag?, Tables.tag?, hf, List.find?_map]
  have hid : ((fun r : TagRow => decide (r.id = x)) ∘ fun r =>
      if r.id = d then { r with config := f r.config } else r) = fun r => decide (r.id = x) := by
    funext r
    by_cases hr : r.id = d <;> simp [hr]
  rw [hid]
  rcases hrow : t.tags.find? (fun r => decide (r.id = x)) with _ | row
  · rw [hrow, Option.map_none]
  · have : row.id = x := by simpa using List.find?_some hrow
    simp [hrow, this, hx]

lemma length_tags (e : Confined c d t t') : t'.tags.length = t.tags.length := by
  obtain ⟨f, hf⟩ := e.settings
  rw [hf, List.length_map]

lemma map_id_tags (e : Confined c d t t') : t'.tags.map TagRow.id = t.tags.map TagRow.id := by
  obtain ⟨f, hf⟩ := e.settings
  rw [hf, List.map_map]
  refine List.map_congr_left fun r _ => ?_
  by_cases hr : r.id = d <;> simp [hr]

/-- What holds of all tables of a hub goes on to hold. -/
theorem sound (e : Confined c d t t') (ht : t.Sound) : t'.Sound where
  eventIds := e.eventIds ht.eventIds
  tagIds := by rw [e.map_id_tags]; exact ht.tagIds
  buildIds := by rw [e.builds]; exact ht.buildIds
  heirs := by rw [e.inheritance, e.length_tags]; exact ht.heirs
  nvrs := by rw [e.builds]; exact ht.nvrs
  readable := by rw [e.builds]; exact ht.readable
  states := by rw [e.builds]; exact ht.states
  packages := e.packages.stamped _ (Int.le_refl _) (ht.packages.mono e.length_le)
  taggings := e.taggings.stamped _ (Int.le_refl _) (ht.taggings.mono e.length_le)
  groups := e.groups.stamped _ (Int.le_refl _) (ht.groups.mono e.length_le)
  members := e.members.stamped _ (Int.le_refl _) (ht.members.mono e.length_le)

end Confined

end Tables

end TagSync
