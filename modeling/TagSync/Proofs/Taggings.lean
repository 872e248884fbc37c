import Mathlib.Data.List.Pairwise
import TagSync.Proofs.Shadowing
import TagSync.Proofs.Sown
import TagSync.Proofs.Versions

/-!
How often a build is tagged.

A call tags a build only where it is not tagged, so all that can tag one twice is the import that
makes the tag: it makes a row for every name in the list of builds, and nothing keeps a name from
standing there twice. The rows that a tag was made with are therefore known for good, all others
come one after another, and rows that count together share their whole life.
-/

namespace TagSync

variable {α : Type}

/-! ### Histories with a beginning -/

namespace History

variable {h : History α} {made event : EventId} {first l : List α} {a : α} {p q : α → Bool}

lemma created_ite_revoke (event : EventId) (p : α → Bool) (r : Versioned α) :
    (if p r.record then r.revoke event else r).created = r.created := by
  split
  · exact r.created_revoke event
  · rfl

lemma rowsOf_add_of_pos (ha : q a = true) :
    (h.add event a).rowsOf q = (h.rowsOf q).add event a := by
  simp [rowsOf, add, ha]

lemma rowsOf_addAll (h : History α) (event : EventId) (l : List α) (q : α → Bool) :
    (h.addAll event l).rowsOf q = (h.rowsOf q).addAll event (l.filter q) := by
  simp [rowsOf, addAll, List.filter_map, Function.comp_def]

/-- Whatever is revoked, the rows of a kind are those of the kind. -/
lemma rowsOf_revoke_comm (h : History α) (event : EventId) (p q : α → Bool) :
    (h.revoke event p).rowsOf q = (h.rowsOf q).revoke event p := by
  simp [rowsOf, revoke, List.filter_map, Function.comp_def, record_ite_revoke]

/-- The rows that were made at one event are known. Of two rows of one record the first has ended
by the time the second one begins, unless both were made at that event and are alike in all. -/
structure Founded (made : EventId) (first : List α) (h : History α) : Prop where
  first : (h.filter fun r => r.created = made).map Versioned.record = first
  apart : h.Pairwise fun r s => r.record = s.record →
    (∃ x, r.revoked = some x ∧ x ≤ s.created) ∨ (s = r ∧ r.created = made)

namespace Founded

lemma nil (made : EventId) : Founded made [] ([] : History α) := ⟨rfl, .nil⟩

/-- A history that begins with some records. -/
lemma begin (made : EventId) (l : List α) : Founded made l (History.addAll [] made l) where
  first := by simp [History.addAll, List.filter_map, Function.comp_def]
  apart := by
    refine List.pairwise_map.mpr (List.pairwise_of_forall fun a b heq => .inr ⟨?_, rfl⟩)
    exact congrArg (fun record => (⟨record, made, none⟩ : Versioned α)) heq.symm

/-- A record can be added later on once all its rows have ended. -/
lemma add (hf : h.Founded made first) (hlater : made < event)
    (hended : ∀ r ∈ h, r.record = a → ∃ x, r.revoked = some x ∧ x ≤ event) :
    (h.add event a).Founded made first where
  first := by
    have hne : event ≠ made := (Int.ne_of_lt hlater).symm
    simpa [History.add, List.filter_append, hne] using hf.first
  apart := by
    refine List.pairwise_append.mpr
      ⟨hf.apart, List.pairwise_singleton _ _, fun r hr s hs heq => ?_⟩
    obtain rfl := List.mem_singleton.mp hs
    exact .inl (hended r hr heq)

/-- Rows that are alike are revoked together. -/
lemma revoke (hf : h.Founded made first) (event : EventId) (p : α → Bool) :
    (h.revoke event p).Founded made first where
  first := by
    simpa [History.revoke, List.filter_map, Function.comp_def, record_ite_revoke,
      created_ite_revoke] using hf.first
  apart := by
    refine List.pairwise_map.mpr (hf.apart.imp fun {r s} hrs heq => ?_)
    rw [record_ite_revoke, record_ite_revoke] at heq
    rcases hrs heq with ⟨x, hx, hle⟩ | ⟨rfl, hmade⟩
    · refine .inl ⟨x, ?_, by rwa [created_ite_revoke]⟩
      split
      · exact Versioned.revoked_revoke_of_some hx
      · exact hx
    · exact .inr ⟨rfl, by rwa [created_ite_revoke]⟩

/-- Of two rows that are alike only a row made at the first event can be. -/
lemma alike (hf : h.Founded made first) (event : Option EventId) :
    h.Pairwise fun r s => r.isActive event → s.isActive event → r.record = s.record →
      s = r ∧ r.created = made := by
  refine hf.apart.imp fun {r s} hrs hr hs heq => (hrs heq).resolve_left ?_
  rintro ⟨x, hx, hle⟩
  rcases event with _ | e
  · simp [hx] at hr
  · simp only [Versioned.isActive, hx, Option.all_some, Bool.and_eq_true, decide_eq_true_eq] at hr
    simp only [Versioned.isActive, Bool.and_eq_true, decide_eq_true_eq] at hs
    exact absurd hr.2 (Int.not_lt.mpr (Int.le_trans hle hs.1))

/-- **Rows that count together are alike.** -/
theorem eq_of_active (hf : h.Founded made first) {event : Option EventId} {r s : Versioned α}
    (hr : r ∈ h) (hs : s ∈ h) (hractive : r.isActive event) (hsactive : s.isActive event)
    (heq : r.record = s.record) : s = r := by
  have halike := hf.alike event
  refine List.Pairwise.forall_of_forall_of_flip (R := fun r s => r.isActive event →
    s.isActive event → r.record = s.record → s = r) (fun _ _ _ _ _ => rfl) ?_ ?_ hr hs hractive
    hsactive heq
  · exact halike.imp fun hrs hr hs heq => (hrs hr hs heq).1
  · exact halike.imp fun hrs hs hr heq => (hrs hr hs heq.symm).1.symm

/-- **No record counts twice, at any event, if and only if none was there twice at first.** -/
theorem nodup_active_iff (hf : h.Founded made first) (hd : h.Dated) :
    (∀ event, (h.active event).Nodup) ↔ first.Nodup := by
  have hfirst : first.Nodup ↔ h.Pairwise fun r s => (r.created = made : Bool) →
      (s.created = made : Bool) → r.record ≠ s.record := by
    rw [← hf.first, List.Nodup, List.pairwise_map, List.pairwise_filter]
  have hactive : ∀ event, (h.active event).Nodup ↔ h.Pairwise fun r s => r.isActive event →
      s.isActive event → r.record ≠ s.record := by
    intro event
    rw [List.Nodup, active, List.pairwise_map, List.pairwise_filter]
  simp only [hactive, hfirst]
  constructor
  · intro hnodup
    -- at the event they were made at, all of the first rows count
    have hbegun : ∀ r ∈ h, r.created = made → r.isActive (some made) = true := by
      rintro r hr rfl
      have hends := (hd r hr).2
      rcases hx : r.revoked with _ | x
      · simp [Versioned.isActive, hx]
      · simp [Versioned.isActive, hx, hends x hx]
    refine (hnodup (some made)).imp_of_mem fun {r s} hr hs hne hrmade hsmade => ?_
    exact hne (hbegun r hr (by simpa using hrmade)) (hbegun s hs (by simpa using hsmade))
  · intro hne event
    refine ((hf.alike event).and hne).imp fun {r s} hboth hr hs heq => ?_
    obtain ⟨rfl, hmade⟩ := hboth.1 hr hs heq
    exact hboth.2 (by simpa using hmade) (by simpa using hmade) rfl

end Founded

end History

namespace Tables

variable {c : Clock} {t t' : Tables} {event : EventId} {seeds : List Seed}

/-! ### The builds that a tag of a seed lists -/

/-- The number of the build of a name. -/
def buildId? (t : Tables) (nvr : String) : Option Int :=
  ((Nvr.parse? nvr).bind t.buildNamed?).map BuildRow.id

lemma buildId?_inj (ht : t.Sound) {nvr nvr' : String} {id : Int} (h : t.buildId? nvr = some id)
    (h' : t.buildId? nvr' = some id) : nvr = nvr' := by
  have hname : ∀ {nvr}, t.buildId? nvr = some id →
      ∃ b, t.build? id = some b ∧ b.nvr.display = nvr := by
    intro nvr h
    obtain ⟨b, hb, rfl⟩ := Option.map_eq_some_iff.mp h
    obtain ⟨n, hn, hfound⟩ := Option.bind_eq_some_iff.mp hb
    refine ⟨b, ht.build?_self (List.mem_of_find?_eq_some hfound), ?_⟩
    rw [show b.nvr = n by simpa using List.find?_some hfound, Nvr.display_of_parse? hn]
  obtain ⟨b, hb, rfl⟩ := hname h
  obtain ⟨b', hb', rfl⟩ := hname h'
  rw [Option.some.inj (hb.symm.trans hb')]

/-- Different names mean different builds. -/
lemma nodup_ids_iff (ht : t.Sound) {builds : List String} {ids : List Int}
    (h : builds.map t.buildId? = ids.map some) : ids.Nodup ↔ builds.Nodup := by
  have hids : ids.Nodup ↔ (builds.map t.buildId?).Nodup := by
    rw [h, List.nodup_map_iff (Option.some_injective Int)]
  rw [hids]
  refine ⟨List.Nodup.of_map _, fun hnodup => hnodup.map_on fun x hx y hy heq => ?_⟩
  have hmem : t.buildId? x ∈ ids.map some := h ▸ List.mem_map_of_mem hx
  obtain ⟨id, -, hid⟩ := List.mem_map.mp hmem
  exact buildId?_inj ht hid.symm (heq.symm.trans hid.symm)

lemma buildId?_of_importTagging {tag : TagId} {nvr : String}
    (h : t.importTagging event tag nvr = .ok t') :
    ∃ id, t.buildId? nvr = some id ∧
      t' = { t with taggings := t.taggings.add event ⟨tag, id⟩ } := by
  unfold importTagging Nvr.parse at h
  rcases hparsed : Nvr.parse? nvr with _ | n
  · simp [hparsed, bind, Except.bind] at h
  rcases hb : t.buildNamed? n with _ | b
  · simp [hparsed, hb, refuseSeed, bind, Except.bind] at h
  · simp only [hparsed, hb, bind, Except.bind, pure, Except.pure] at h
    cases h
    exact ⟨b.id, by simp [buildId?, hparsed, hb], rfl⟩

/-- The builds of a tag are tagged in the order of their list, as often as they stand there. -/
lemma taggings_of_importTaggings {tag : TagId} {builds : List String}
    (h : builds.foldlM (importTagging event tag) t = .ok t') :
    ∃ ids : List Int, builds.map t.buildId? = ids.map some ∧
      t' = { t with taggings := t.taggings.addAll event (ids.map fun id => ⟨tag, id⟩) } := by
  induction builds generalizing t with
  | nil =>
    cases h
    exact ⟨[], rfl, by simp⟩
  | cons nvr rest ih =>
    simp only [List.foldlM_cons, bind, Except.bind] at h
    rcases hnvr : t.importTagging event tag nvr with e | t₁
    · rw [hnvr] at h
      cases h
    rw [hnvr] at h
    obtain ⟨id, hid, rfl⟩ := buildId?_of_importTagging hnvr
    obtain ⟨ids, hids, rfl⟩ := ih h
    refine ⟨id :: ids, by rw [List.map_cons, List.map_cons, ← hids, hid]; rfl, ?_⟩
    show _ = { t with taggings := t.taggings.addAll event _ }
    rw [List.map_cons, ← List.singleton_append, ← History.addAll_addAll]
    rfl

/-- The rows of a tag in a table of taggings, whether they count or not. -/
abbrev taggingRows (t : Tables) (tag : TagId) : History TaggingRow :=
  t.taggings.rowsOf fun r => r.tag = tag

/-- **What a tag of a seed tags**: the builds of its list, into the tag of its name. -/
lemma taggings_of_importContent {s : SeedTag} (h : t.importContent event s = .ok t') :
    ∃ row, t.tagNamed? s.name = some row ∧ t'.tags = t.tags ∧ t'.builds = t.builds ∧
      ∃ ids : List Int, s.builds.map t.buildId? = ids.map some ∧
        t'.taggings = t.taggings.addAll event (ids.map fun id => ⟨row.id, id⟩) := by
  obtain ⟨row, t₁, t₂, hrow, hparents, htaggings, rfl⟩ := importContent_eq_ok h
  have h₁ : ∃ inheritance, t₁ = { t with inheritance } :=
    foldlM_keeps (P := fun t₁ => ∃ inheritance, t₁ = { t with inheritance }) hparents
      ⟨_, rfl⟩ fun p _ t₀ t₁ ht₀ hp => by
      obtain ⟨inheritance, rfl⟩ := ht₀
      obtain ⟨parent, -, rfl⟩ := importParent_eq_ok hp
      exact ⟨_, rfl⟩
  obtain ⟨inheritance, rfl⟩ := h₁
  rw [foldl_importPackage] at htaggings
  obtain ⟨ids, hids, rfl⟩ := taggings_of_importTaggings htaggings
  rw [foldl_importGroup]
  exact ⟨row, hrow, rfl, rfl, ids, hids, rfl⟩

/-! ### The rows that the tags were made with -/

/-- All tags have names of their own, those of the seeds among them; and every tag was made with
rows that are known, none of them twice exactly if no seed lists a build twice for it. -/
structure Planted (seeds : List Seed) (t : Tables) : Prop where
  names : (t.tags.map TagRow.name).Nodup
  known : ∀ s ∈ seeds, ∀ tag ∈ s.tags, tag.name ∈ t.tags.map TagRow.name
  founded : ∀ row ∈ t.tags, ∃ first, (t.taggingRows row.id).Founded row.created first ∧
    (first.Nodup ↔ ∀ s ∈ seeds, ∀ tag ∈ s.tags, tag.name = row.name → tag.builds.Nodup)

lemma Planted.empty : Planted [] .empty := ⟨.nil, nofun, nofun⟩

/-- Changes of settings do not matter, nor does what is stored beside tags and taggings. -/
lemma Planted.congr (hp : t.Planted seeds)
    (htags : t'.tags.map (fun row => (row.id, row.name, row.created)) =
      t.tags.map fun row => (row.id, row.name, row.created))
    (htaggings : t'.taggings = t.taggings) : t'.Planted seeds := by
  have hnames : t'.tags.map TagRow.name = t.tags.map TagRow.name := by
    simpa [List.map_map, Function.comp_def] using congrArg (List.map fun x => x.2.1) htags
  refine ⟨by rw [hnames]; exact hp.names, by rw [hnames]; exact hp.known, fun row hrow => ?_⟩
  have hmem : (row.id, row.name, row.created) ∈
      t.tags.map fun row => (row.id, row.name, row.created) := htags ▸ List.mem_map_of_mem hrow
  obtain ⟨row₀, hrow₀, heq⟩ := List.mem_map.mp hmem
  simp only [Prod.mk.injEq] at heq
  obtain ⟨hid, hname, hcreated⟩ := heq
  rw [taggingRows, htaggings, ← hid, ← hname, ← hcreated]
  exact hp.founded row₀ hrow₀

lemma not_mem_names_iff {name : String} :
    name ∉ t.tags.map TagRow.name ↔ t.tagNamed? name = none := by
  simp [tagNamed?]

section

variable {tag : TagInfo} {flags : CallFlags} {o : Operation}

/-- **A call keeps what the tags were made with**: it tags nothing that is tagged. -/
lemma CarriedOut.founded (ho : CarriedOut t tag flags event o t')
    (hstamped : t.taggings.StampedTo event) {row : TagRow} (hlater : row.created < event)
    {first : List TaggingRow} (hf : (t.taggingRows row.id).Founded row.created first) :
    (t'.taggingRows row.id).Founded row.created first := by
  cases ho with
  | @tagBuild nvr n b parsed found listed free =>
    rw [taggingRows, taggings_notifyIf]
    by_cases hown : tag.id = row.id
    · rw [History.rowsOf_add_of_pos (by simpa using hown)]
      refine hf.add hlater fun r hr heq => ?_
      have hmem := (List.mem_filter.mp hr).1
      rcases hx : r.revoked with _ | x
      · -- a row that counts would forbid the call
        have hcounts : r.record ∈ t.taggings.active none :=
          List.mem_map.mpr ⟨r, List.mem_filter.mpr ⟨hmem, by simp [hx]⟩, rfl⟩
        simp only [isTagged, History.hasActive, List.any_eq_false] at free
        exact absurd (by simp [heq]) (free _ hcounts)
      · exact ⟨x, rfl, (hstamped r hmem).2 x hx⟩
    · rwa [History.rowsOf_add (by simpa using hown)]
  | untagBuild =>
    rw [taggingRows, taggings_notifyIf, History.rowsOf_revoke_comm]
    exact hf.revoke event _
  | _ => exact hf

end

/-- What was written up to now may be revoked at the next event. -/
lemma Sound.taggings_newEvent (hs : t.Sound) (c : Clock) :
    (t.newEvent c).1.taggings.StampedTo (t.newEvent c).2 :=
  hs.taggings.mono (Int.le_of_lt (Int.lt_add_one_of_le (Int.le_refl _)))

lemma Planted.edit (hp : t.Planted seeds) (hs : t.Sound) (hg : t.Grounded)
    (hedit : Edit c t t') : t'.Planted seeds := by
  cases hedit with
  | @call tag flags o t' found accepted =>
    have htags := tags_of_call accepted
    refine ⟨by rw [htags]; exact hp.names, by rw [htags]; exact hp.known, fun row hrow => ?_⟩
    rw [htags] at hrow
    obtain ⟨first, hf, hfirst⟩ := hp.founded row hrow
    have hlater : row.created < (t.newEvent c).2 := Int.lt_add_one_of_le (hg.tags row hrow)
    exact ⟨first, (call_eq_ok accepted).founded (hs.taggings_newEvent c) hlater hf, hfirst⟩
  | @createTag name config new =>
    have hnew := not_mem_names_iff.mpr new
    have hnames : ((t.newEvent c).1.addTag name config (t.newEvent c).2).1.tags.map TagRow.name =
        t.tags.map TagRow.name ++ [name] := by simp [addTag, newEvent]
    refine ⟨?_, fun s hs tag htag => ?_, fun row hrow => ?_⟩
    · rw [hnames]
      exact hp.names.append (List.nodup_singleton _) (List.disjoint_singleton.mpr hnew)
    · rw [hnames]
      exact List.mem_append_left _ (hp.known s hs tag htag)
    · rcases List.mem_append.mp hrow with hrow | hrow
      · exact hp.founded row hrow
      · obtain rfl := List.mem_singleton.mp hrow
        have hbare : t.taggingRows (t.tags.length + 1) = [] := by
          refine List.filter_eq_nil_iff.mpr fun r hr => ?_
          have hle := (hg.taggings r hr).1
          simpa using Int.ne_of_lt (Int.lt_add_one_of_le hle)
        refine ⟨[], ?_, iff_of_true List.nodup_nil fun s hs tag htag hname => ?_⟩
        · show (t.taggingRows (t.tags.length + 1)).Founded _ _
          rw [hbare]
          exact .nil _
        · exact absurd ((show tag.name = name from hname) ▸ hp.known s hs tag htag) hnew
  | editTag config found =>
    refine hp.congr ?_ rfl
    simp only [newEvent, setConfig, List.map_map, Function.comp_def]
    refine List.map_congr_left fun row _ => ?_
    split <;> rfl
  | newRepo found => exact hp.congr rfl rfl

/-! ### Imports -/

/-- New tags bear the stamp of the import, and have the names that the seed gives them. -/
lemma tags_of_importTags {l : List SeedTag} (h : l.foldlM (importTag event) t = .ok t') :
    t'.taggings = t.taggings ∧ ∃ new, t'.tags = t.tags ++ new ∧
      new.map TagRow.name = l.map SeedTag.name ∧ ∀ row ∈ new, row.created = event := by
  induction l generalizing t with
  | nil =>
    cases h
    exact ⟨rfl, [], (List.append_nil _).symm, rfl, nofun⟩
  | cons s rest ih =>
    simp only [List.foldlM_cons, bind, Except.bind] at h
    rcases hs : t.importTag event s with e | t₁
    · rw [hs] at h
      cases h
    rw [hs] at h
    obtain ⟨-, rfl⟩ := importTag_eq_ok hs
    obtain ⟨htaggings, new, hnew, hnames, hcreated⟩ := ih h
    refine ⟨htaggings, _ :: new, hnew.trans (List.append_assoc ..), ?_, ?_⟩
    · rw [List.map_cons, List.map_cons, hnames]
    · exact List.forall_mem_cons.mpr ⟨rfl, hcreated⟩

lemma tags_of_importContents {l : List SeedTag}
    (h : l.foldlM (importContent event) t = .ok t') : t'.tags = t.tags :=
  foldlM_keeps (P := fun t' => t'.tags = t.tags) h rfl fun _ _ _ _ ht₀ hs => by
    obtain ⟨-, -, htags, -⟩ := taggings_of_importContent hs
    exact htags.trans ht₀

/-- **Every tag of a seed gets its rows**, and no other tag gets any. -/
lemma taggingRows_of_importContents {t₀ : Tables} (hs : t₀.Sound)
    (hnames : (t₀.tags.map TagRow.name).Nodup) {l : List SeedTag}
    (hl : (l.map SeedTag.name).Nodup) (htags : t.tags = t₀.tags) (hbuilds : t.builds = t₀.builds)
    (h : l.foldlM (importContent event) t = .ok t') {row : TagRow} (hrow : row ∈ t₀.tags) :
    (row.name ∉ l.map SeedTag.name → t'.taggingRows row.id = t.taggingRows row.id) ∧
      ∀ s ∈ l, s.name = row.name → ∃ first,
        t'.taggingRows row.id = (t.taggingRows row.id).addAll event first ∧
          (first.Nodup ↔ s.builds.Nodup) := by
  induction l generalizing t with
  | nil =>
    cases h
    exact ⟨fun _ => rfl, nofun⟩
  | cons s rest ih =>
    simp only [List.foldlM_cons, bind, Except.bind] at h
    rcases hcontent : t.importContent event s with e | t₁
    · rw [hcontent] at h
      cases h
    rw [hcontent] at h
    obtain ⟨row₁, hrow₁, htags₁, hbuilds₁, ids, hids, htaggings⟩ :=
      taggings_of_importContent hcontent
    obtain ⟨hnew, hrest⟩ := List.nodup_cons.mp hl
    obtain ⟨hothers, hlisted⟩ := ih hrest (htags₁.trans htags) (hbuilds₁.trans hbuilds) h
    rw [tagNamed?, htags] at hrow₁
    have hmem₁ : row₁ ∈ t₀.tags := List.mem_of_find?_eq_some hrow₁
    have hname₁ : row₁.name = s.name := by simpa using List.find?_some hrow₁
    have hrows : t₁.taggingRows row.id = (t.taggingRows row.id).addAll event
        ((ids.map fun id => (⟨row₁.id, id⟩ : TaggingRow)).filter fun r => r.tag = row.id) := by
      rw [taggingRows, htaggings, History.rowsOf_addAll]
    by_cases hname : row.name = s.name
    · -- the tag of this name is filled now, and not again
      obtain rfl : row₁ = row := by
        have hself := find?_key hnames hrow
        rw [hname, hrow₁] at hself
        exact Option.some.inj hself
      have hall : (ids.map fun id => (⟨row₁.id, id⟩ : TaggingRow)).filter
          (fun r => r.tag = row₁.id) = ids.map fun id => ⟨row₁.id, id⟩ :=
        List.filter_eq_self.mpr fun r hr => by
          obtain ⟨id, -, rfl⟩ := List.mem_map.mp hr
          simp
      rw [hall] at hrows
      rw [hname] at hothers
      refine ⟨fun hout => absurd (by simp [hname]) hout, fun s' hs' hsame => ?_⟩
      obtain rfl : s' = s := by
        rcases List.mem_cons.mp hs' with rfl | hs'
        · rfl
        · exact absurd (List.mem_map.mpr ⟨s', hs', hsame.trans hname⟩) hnew
      have hbuildId : t.buildId? = t₀.buildId? := by
        funext nvr
        rw [buildId?, buildId?, show t.buildNamed? = t₀.buildNamed? by
          funext n
          rw [buildNamed?, buildNamed?, hbuilds]]
      rw [hbuildId] at hids
      refine ⟨_, (hothers hnew).trans hrows, ?_⟩
      rw [List.nodup_map_iff fun a b hab => (TaggingRow.mk.inj hab).2]
      exact nodup_ids_iff hs hids
    · have hne : row₁.id ≠ row.id := by
        intro hid
        have hself := hs.tag?_self hrow
        rw [← hid, hs.tag?_self hmem₁] at hself
        exact hname (by rw [← hname₁, Option.some.inj hself])
      have hnone : (ids.map fun id => (⟨row₁.id, id⟩ : TaggingRow)).filter
          (fun r => r.tag = row.id) = [] :=
        List.filter_eq_nil_iff.mpr fun r hr => by
          obtain ⟨id, -, rfl⟩ := List.mem_map.mp hr
          simpa using hne
      rw [hnone, History.addAll_nil] at hrows
      rw [hrows] at hothers hlisted
      refine ⟨fun hout => hothers fun hmem => hout (.tail _ hmem), fun s' hs' hsame => ?_⟩
      rcases List.mem_cons.mp hs' with rfl | hs'
      · exact absurd hsame.symm hname
      · exact hlisted s' hs' hsame

/-- Users and builds make no difference to tags and taggings. -/
lemma same_of_importBuilds {s : Seed}
    (h : s.builds.foldlM importBuild (s.users.foldl importUser t) = .ok t') :
    t'.tags = t.tags ∧ t'.taggings = t.taggings := by
  have hgrant : ∀ (t : Tables) (user : Int) (perm : String),
      (t.grant user perm).tags = t.tags ∧ (t.grant user perm).taggings = t.taggings := by
    intro t user perm
    unfold grant
    split <;> exact ⟨rfl, rfl⟩
  have huser : ∀ (t : Tables) (u : SeedUser),
      (t.importUser u).tags = t.tags ∧ (t.importUser u).taggings = t.taggings := by
    intro t u
    unfold importUser ensureUser
    refine foldl_keeps (P := fun t' => t'.tags = t.tags ∧ t'.taggings = t.taggings) ?_
      fun t₀ perm ht₀ => ⟨(hgrant t₀ _ perm).1.trans ht₀.1, (hgrant t₀ _ perm).2.trans ht₀.2⟩
    split <;> exact ⟨rfl, rfl⟩
  refine foldlM_keeps (P := fun t' => t'.tags = t.tags ∧ t'.taggings = t.taggings) h
    (foldl_keeps (P := fun t' => t'.tags = t.tags ∧ t'.taggings = t.taggings) ⟨rfl, rfl⟩
      fun t₀ u ht₀ => ⟨(huser t₀ u).1.trans ht₀.1, (huser t₀ u).2.trans ht₀.2⟩)
    fun b _ t₀ t₁ ht₀ hb => ?_
  obtain ⟨-, state, -, rfl⟩ := importBuild_eq_ok hb
  exact ht₀

/-- **An import adds a seed**: its tags are made with the builds that they list. -/
theorem Planted.importSeed (hp : t.Planted seeds) (hs : t.Sound) (hg : t.Grounded) {s : Seed}
    {context : SeedContext} {summary : ImportSummary} (checked : s.check context = .ok ())
    (h : t.importSeed c s = .ok (t', summary)) : t'.Planted (seeds ++ [s]) := by
  obtain ⟨t₁, t₂, hbuilds, htags, hcontent⟩ := importSeed_eq_ok h
  obtain ⟨hold, hsame⟩ := same_of_importBuilds hbuilds
  obtain ⟨hsame₂, new, hnew, hnames, hcreated⟩ := tags_of_importTags htags
  obtain ⟨-, -, hfresh⟩ := writes_importTags (n := t.tags.length) htags
  rw [hold] at hnew
  have hs₂ := (importing_tags ((Confined.newEvent c 0 t).sound hs) checked hbuilds htags).sound
  have hunique := (Seed.distinct_of_check checked).1
  have hapart : ∀ st ∈ s.tags, st.name ∉ t.tags.map TagRow.name := by
    intro st hst
    have hnone := hfresh st hst
    rwa [tagNamed?, hold, ← tagNamed?, ← not_mem_names_iff] at hnone
  have hnames₂ : t₂.tags.map TagRow.name =
      t.tags.map TagRow.name ++ s.tags.map SeedTag.name := by
    rw [hnew, List.map_append, hnames]
    rfl
  have hnodup₂ : (t₂.tags.map TagRow.name).Nodup := by
    rw [hnames₂]
    refine hp.names.append hunique fun name hname hname' => ?_
    obtain ⟨st, hst, rfl⟩ := List.mem_map.mp hname'
    exact hapart st hst hname
  have hrows : ∀ tag, t₂.taggingRows tag = t.taggingRows tag := by
    intro tag
    rw [taggingRows, hsame₂, hsame]
    rfl
  have hfilled := fun (row : TagRow) (hrow : row ∈ t₂.tags) =>
    taggingRows_of_importContents hs₂ hnodup₂ hunique rfl rfl hcontent hrow
  have hend : t'.tags = t₂.tags := tags_of_importContents hcontent
  refine ⟨by rw [hend]; exact hnodup₂, fun s' hs' tag htag => ?_, fun row hrow => ?_⟩
  · rw [hend, hnames₂]
    rcases List.mem_append.mp hs' with hs' | hs'
    · exact List.mem_append_left _ (hp.known s' hs' tag htag)
    · obtain rfl := List.mem_singleton.mp hs'
      exact List.mem_append_right _ (List.mem_map_of_mem htag)
  · rw [hend] at hrow
    obtain ⟨hothers, hlisted⟩ := hfilled row hrow
    rw [hrows] at hothers hlisted
    rw [hnew] at hrow
    rcases List.mem_append.mp hrow with hrow | hrow
    · -- a tag that was there before
      have hout : row.name ∉ s.tags.map SeedTag.name := fun hmem => by
        obtain ⟨st, hst, hname⟩ := List.mem_map.mp hmem
        exact hapart st hst (hname ▸ List.mem_map_of_mem hrow)
      obtain ⟨first, hf, hfirst⟩ := hp.founded row hrow
      refine ⟨first, by rw [hothers hout]; exact hf, hfirst.trans ?_⟩
      refine ⟨fun hall s' hs' tag htag hname => ?_, fun hall s' hs' => hall s' (by simp [hs'])⟩
      rcases List.mem_append.mp hs' with hs' | hs'
      · exact hall s' hs' tag htag hname
      · obtain rfl := List.mem_singleton.mp hs'
        exact absurd (hname ▸ List.mem_map_of_mem htag) hout
    · -- a tag that the import has made
      obtain ⟨st, hst, hname⟩ : ∃ st ∈ s.tags, st.name = row.name :=
        List.mem_map.mp (hnames ▸ List.mem_map_of_mem hrow)
      obtain ⟨first, hfirst, hnodup⟩ := hlisted st hst hname
      have hbare : t.taggingRows row.id = [] := by
        have hids := hs₂.tagIds
        rw [hnew, List.map_append] at hids
        have hlt := hids.lt_of_mem_append (List.mem_map_of_mem hrow)
        rw [List.length_map] at hlt
        refine List.filter_eq_nil_iff.mpr fun r hr => ?_
        have hle := (hg.taggings r hr).1
        simpa using Int.ne_of_lt (Int.lt_of_le_of_lt hle hlt)
      refine ⟨first, ?_, hnodup.trans ⟨fun hst' s' hs' tag htag hsame => ?_, fun hall => ?_⟩⟩
      · rw [hfirst, hbare, hcreated row hrow]
        exact .begin _ first
      · rcases List.mem_append.mp hs' with hs' | hs'
        · exact absurd (hname.trans hsame.symm ▸ hp.known s' hs' tag htag) (hapart st hst)
        · obtain rfl := List.mem_singleton.mp hs'
          rwa [List.inj_on_of_nodup_map hunique htag hst (hsame.trans hname.symm)]
      · exact hall s (by simp) st hst hname

end Tables

namespace Hub

variable {h : Hub} {seeds : List Seed}

lemma Sown.planted (hs : Sown seeds h) : h.tables.Planted seeds := by
  have hall := hs.holds (P := fun seeds t => (t.Sound ∧ t.Grounded) ∧ t.Planted seeds)
    ⟨⟨.empty, .empty⟩, .empty⟩
    (fun _ _ _ ht hedit => ⟨⟨hedit.step.sound ht.1.1, hedit.step.grounded ht.1.1 ht.1.2⟩,
      ht.2.edit ht.1.1 ht.1.2 hedit⟩)
    fun _ _ _ _ _ _ ht checked imported =>
      ⟨⟨Tables.Step.sound (.importSeed checked imported) ht.1.1,
        Tables.Step.grounded (.importSeed checked imported) ht.1.1 ht.1.2⟩,
        ht.2.importSeed ht.1.1 ht.1.2 checked imported⟩
  exact hall.1.2

/-- **No build counts twice in a tag, at any event, if and only if no seed lists one twice for the
tag.** Whatever else a hub has been through does not matter; and rows of one build that count
together were made, and are revoked, together. -/
theorem nodup_taggings_iff (hs : Sown seeds h) {row : TagRow} (hrow : row ∈ h.tables.tags) :
    ((∀ event, ((h.tables.taggings.active event).filter fun r => r.tag = row.id).Nodup) ↔
      ∀ s ∈ seeds, ∀ tag ∈ s.tags, tag.name = row.name → tag.builds.Nodup) ∧
    ∀ event, ∀ r ∈ h.tables.taggings, ∀ r' ∈ h.tables.taggings, r.record.tag = row.id →
      r.isActive event → r'.isActive event → r.record = r'.record → r' = r := by
  obtain ⟨first, hf, hfirst⟩ := hs.planted.founded row hrow
  have hdated : (h.tables.taggingRows row.id).Dated := fun r hr =>
    hs.reachable.dated.taggings r (List.mem_filter.mp hr).1
  refine ⟨?_, fun event r hr r' hr' htag hractive hractive' heq => ?_⟩
  · rw [← hfirst, ← hf.nodup_active_iff hdated]
    exact forall_congr' fun event => by rw [History.filter_active]
  · have hmem : ∀ r ∈ h.tables.taggings, r.record.tag = row.id →
        r ∈ h.tables.taggingRows row.id :=
      fun r hr htag => List.mem_filter.mpr ⟨hr, by simpa using htag⟩
    exact hf.eq_of_active (hmem r hr htag) (hmem r' hr' (heq ▸ htag)) hractive hractive' heq

/-! ### A build that is listed twice -/

/-- The tag `s` lists a build twice, the tag `d` once. -/
def repeating : Seed :=
  { schemaVersion := 0, users := [⟨"u", ["admin"]⟩]
    builds := [{ package := "a", version := "1", release := "1", owner := "u" }]
    tags := [
      { name := "s", packages := [{ name := "a", owner := "u" }], builds := ["a-1-1", "a-1-1"] },
      { name := "d", packages := [{ name := "a", owner := "u" }], builds := ["a-1-1"] }] }

/-- The build is taken out of the tag `d`, and tagged into it again. -/
def repeatingHub : Hub :=
  ((({ user := "u" } : Hub).importSeed repeating).2.session
    (.multicall 2 [.untagBuild "a-1-1", .tagBuild "a-1-1"] {})).state

/-- The build counts twice in the tag `s`; in the tag `d` it has two rows, of which one counts at a
time. -/
theorem nodup_taggings_iff_repeating :
    ((repeatingHub.tables.taggings.active none).filter fun r => r.tag = 1) = [⟨1, 1⟩, ⟨1, 1⟩] ∧
      (repeatingHub.tables.taggingRows 2).length = 2 ∧
      ∀ event, ((repeatingHub.tables.taggings.active event).filter fun r => r.tag = 2).Nodup := by
  have checked : repeating.check .empty = .ok () := rfl
  have hs : Sown [repeating] repeatingHub :=
    .move (.request _) (.importSeed checked rfl (.start "u" _))
  have hrow : (⟨2, "d", 1, {}⟩ : TagRow) ∈ repeatingHub.tables.tags := by decide +kernel
  refine ⟨by decide +kernel, by decide +kernel, (nodup_taggings_iff hs hrow).1.mpr ?_⟩
  decide +kernel

end Hub

end TagSync
