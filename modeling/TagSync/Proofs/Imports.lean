import TagSync.Hub.Import
import TagSync.Proofs.Sound

/-!
What a seed that passed its checks makes of sound tables.
-/

namespace TagSync

/-- A computation in two parts succeeds when both do. -/
lemma bind_eq_ok {α β ε : Type} {x : Except ε α} {f : α → Except ε β} {b : β} :
    (x >>= f) = .ok b ↔ ∃ a, x = .ok a ∧ f a = .ok b := by
  rcases x with e | a <;> simp [bind, Except.bind]

/-! ### Checks -/

namespace Seed

lemma mem_of_checkEach {α : Type} {check : List α → α → Except SeedError Unit} {l before : List α}
    (h : checkEach check before l = .ok ()) {a : α} (ha : a ∈ l) :
    ∃ earlier, check earlier a = .ok () := by
  induction l generalizing before with
  | nil => cases ha
  | cons b rest ih =>
    simp only [checkEach, bind, Except.bind] at h
    rcases hb : check before b with e | u
    · rw [hb] at h
      cases h
    · rw [hb] at h
      rcases List.mem_cons.mp ha with rfl | ha
      · exact ⟨before, hb⟩
      · exact ih h ha

/-- A build that passed its check has a name that can be read back. -/
lemma parse?_of_checkBuild {before : List SeedBuild} {b : SeedBuild}
    (h : checkBuild before b = .ok ()) : Nvr.parse? b.nvr.display = some b.nvr := by
  simp only [checkBuild, Nvr.parse, partOf, bind, Except.bind] at h
  rcases hstate : BuildState.parse b.state with f | s
  · rw [hstate] at h
    cases h
  rcases hnvr : Nvr.parse? b.nvr.display with _ | n
  · rw [hstate, hnvr] at h
    cases h
  · by_cases hn : n = b.nvr
    · rw [hn]
    · rw [hstate, hnvr] at h
      simp [Except.mapError, hn, throw, throwThe, MonadExceptOf.throw] at h

/-- The checks that a seed has passed. -/
lemma check_eq_ok {s : Seed} {c : SeedContext} (h : s.check c = .ok ()) :
    checkEach checkBuild [] s.builds = .ok () ∧
      checkEach (unique SeedTag.name .duplicateTag) [] s.tags = .ok () ∧
      s.tags.forM (checkTag s c) = .ok () := by
  simp only [check, bind, Except.bind] at h
  by_cases hversion : s.schemaVersion ≠ 0
  · simp [hversion, throw, throwThe, MonadExceptOf.throw] at h
  rcases husers : checkEach (unique SeedUser.name .duplicateUser) [] s.users with e | u
  · simp [hversion, husers] at h
  rcases hbuilds : checkEach checkBuild [] s.builds with e | u
  · simp [hversion, husers, hbuilds] at h
  rcases htags : checkEach (unique SeedTag.name .duplicateTag) [] s.tags with e | u
  · simp [hversion, husers, hbuilds, htags] at h
  simp only [hversion, if_false, husers, hbuilds, htags] at h
  exact ⟨rfl, rfl, h⟩

lemma readable_of_check {s : Seed} {c : SeedContext} (h : s.check c = .ok ()) {b : SeedBuild}
    (hb : b ∈ s.builds) : Nvr.parse? b.nvr.display = some b.nvr := by
  obtain ⟨earlier, hcheck⟩ := mem_of_checkEach (check_eq_ok h).1 hb
  exact parse?_of_checkBuild hcheck

end Seed

namespace Tables

variable {t t' : Tables}

/-- What every step of a loop that may fail keeps is kept by the loop. -/
lemma foldlM_keeps {α β ε : Type} {P : β → Prop} {f : β → α → Except ε β} {l : List α} {b b' : β}
    (h : l.foldlM f b = .ok b') (hb : P b)
    (step : ∀ a ∈ l, ∀ b b', P b → f b a = .ok b' → P b') : P b' := by
  induction l generalizing b with
  | nil =>
    cases h
    exact hb
  | cons a rest ih =>
    simp only [List.foldlM_cons, bind, Except.bind] at h
    rcases ha : f b a with e | b₁
    · rw [ha] at h
      cases h
    · rw [ha] at h
      exact ih h (step a (.head _) b b₁ hb ha) fun x hx => step x (.tail _ hx)

lemma foldl_keeps {α β : Type} {P : β → Prop} {f : β → α → β} {l : List α} {b : β} (hb : P b)
    (step : ∀ b a, P b → P (f b a)) : P (l.foldl f b) := by
  induction l generalizing b with
  | nil => exact hb
  | cons a rest ih => exact ih (step b a hb)

/-! ### What each part of an import does -/

section

variable {event : EventId} {tag : TagId}

lemma importBuild_eq_ok {b : SeedBuild} (h : t.importBuild b = .ok t') :
    t.buildNamed? b.nvr = none ∧
      ∃ s, BuildState.parse b.state = .ok s ∧ t' = t.addBuild b.nvr s.text b.owner := by
  unfold importBuild at h
  by_cases hnew : (t.buildNamed? b.nvr).isSome = true
  · simp [hnew, refuseSeed, bind, Except.bind] at h
  rcases hstate : BuildState.parse b.state with f | s
  · simp [hnew, hstate, bind, Except.bind] at h
  · simp only [hnew, hstate, bind, Except.bind, pure, Except.pure] at h
    cases h
    exact ⟨by simpa using hnew, s, rfl, rfl⟩

lemma importTag_eq_ok {s : SeedTag} (h : t.importTag event s = .ok t') :
    t.tagNamed? s.name = none ∧ t' = (t.addTag s.name s.config event).1 := by
  unfold importTag at h
  split at h
  · cases h
  · rename_i hnew
    cases h
    exact ⟨by simpa using hnew, rfl⟩

lemma importParent_eq_ok {p : SeedParent} (h : t.importParent tag p = .ok t') :
    ∃ parent, t.tagNamed? p.name = some parent ∧
      t' = { t with inheritance := t.inheritance ++ [⟨tag, parent.id, p.priority⟩] } := by
  unfold importParent at h
  split at h
  · cases h
  · rename_i parent hparent
    split at h
    · cases h
    · cases h
      exact ⟨parent, hparent, rfl⟩

lemma importTagging_eq_ok {nvr : String} (h : t.importTagging event tag nvr = .ok t') :
    ∃ n b, t.buildNamed? n = some b ∧
      t' = { t with taggings := t.taggings.add event ⟨tag, b.id⟩ } := by
  unfold importTagging at h
  rcases hparsed : Nvr.parse nvr with f | n
  · simp [hparsed, bind, Except.bind] at h
  rcases hb : t.buildNamed? n with _ | b
  · simp [hparsed, hb, refuseSeed, bind, Except.bind] at h
  · simp only [hparsed, hb, bind, Except.bind, pure, Except.pure] at h
    cases h
    exact ⟨n, b, hb, rfl⟩

/-- The stages of the content of a tag: parents and packages, builds, and groups. -/
lemma importContent_eq_ok {s : SeedTag} (h : t.importContent event s = .ok t') :
    ∃ row t₁ t₂, t.tagNamed? s.name = some row ∧
      s.parents.foldlM (importParent row.id) t = .ok t₁ ∧
      s.builds.foldlM (importTagging event row.id)
        (s.packages.foldl (importPackage event row.id) t₁) = .ok t₂ ∧
      t' = s.groups.foldl (importGroup event row.id) t₂ := by
  unfold importContent at h
  rcases hrow : t.tagNamed? s.name with _ | row
  · simp [hrow, refuseSeed] at h
  simp only [hrow, bind, Except.bind, pure, Except.pure] at h
  rcases hparents : s.parents.foldlM (importParent row.id) t with f | t₁
  · simp [hparents] at h
  simp only [hparents] at h
  rcases htaggings : s.builds.foldlM (importTagging event row.id)
    (s.packages.foldl (importPackage event row.id) t₁) with f | t₂
  · simp [htaggings] at h
  simp only [htaggings] at h
  cases h
  exact ⟨row, t₁, t₂, rfl, hparents, htaggings, rfl⟩

end

/-! ### The parts of an import -/

/-- Sound tables whose last event is the one of the import. -/
structure Importing (events : List EventInfo) (t : Tables) : Prop where
  sound : t.Sound
  events : t.events = events

variable {events : List EventInfo}

namespace Importing

lemma grant (h : Importing events t) (user : Int) (perm : String) :
    Importing events (t.grant user perm) := by
  unfold Tables.grant
  split
  · exact h
  · exact ⟨{ h.sound with }, h.events⟩

lemma user (h : Importing events t) (u : SeedUser) : Importing events (t.importUser u) := by
  unfold importUser ensureUser
  refine foldl_keeps ?_ fun t perm ht => ht.grant _ perm
  split <;> exact ⟨{ h.sound with }, h.events⟩

lemma build (h : Importing events t) {b : SeedBuild}
    (hread : Nvr.parse? b.nvr.display = some b.nvr) (hb : t.importBuild b = .ok t') :
    Importing events t' := by
  obtain ⟨hnew, s, -, rfl⟩ := importBuild_eq_ok hb
  refine ⟨{ h.sound with buildIds := ?_, nvrs := ?_, readable := ?_, states := ?_ }, h.events⟩
  · have := h.sound.buildIds.append
    simpa [addBuild] using this
  · have hfresh : b.nvr ∉ t.builds.map BuildRow.nvr := by
      intro hmem
      obtain ⟨row, hrow, heq⟩ := List.mem_map.mp hmem
      rw [← heq, h.sound.buildNamed?_self hrow] at hnew
      cases hnew
    simp only [addBuild, List.map_append, List.map_cons, List.map_nil]
    exact List.nodup_append.mpr ⟨h.sound.nvrs, by simp, fun a ha b' hb' => by
      rw [List.mem_singleton.mp hb']
      rintro rfl
      exact hfresh ha⟩
  · intro row hrow
    rcases List.mem_append.mp hrow with hrow | hrow
    · exact h.sound.readable row hrow
    · rw [List.mem_singleton.mp hrow]
      exact hread
  · intro row hrow
    rcases List.mem_append.mp hrow with hrow | hrow
    · exact h.sound.states row hrow
    · rw [List.mem_singleton.mp hrow]
      exact ⟨s, by cases s <;> rfl⟩

end Importing

lemma Sound.addTag (h : t.Sound) (name : String) (config : TagConfig) (event : EventId) :
    (t.addTag name config event).1.Sound := by
  refine { h with tagIds := ?_, heirs := ?_ }
  · have := h.tagIds.append
    simpa [Tables.addTag] using this
  · intro r hr
    obtain ⟨h1, h2⟩ := h.heirs r hr
    have hlen : (t.tags.length : Int) ≤ (t.addTag name config event).1.tags.length :=
      Int.ofNat_le.mpr (by simp [Tables.addTag])
    exact ⟨Int.le_trans h1 hlen, Int.le_trans h2 hlen⟩

namespace Importing

lemma tag (h : Importing events t) {event : EventId} {s : SeedTag}
    (hs : t.importTag event s = .ok t') : Importing events t' := by
  obtain ⟨-, rfl⟩ := importTag_eq_ok hs
  exact ⟨h.sound.addTag .., h.events⟩

lemma parent (h : Importing events t) {row : TagRow} (hrow : row.id ≤ t.tags.length)
    {p : SeedParent} (hp : t.importParent row.id p = .ok t') :
    Importing events t' ∧ t'.tags = t.tags := by
  obtain ⟨parent, hparent, rfl⟩ := importParent_eq_ok hp
  refine ⟨⟨{ h.sound with heirs := fun r hr => ?_ }, h.events⟩, rfl⟩
  rcases List.mem_append.mp hr with hr | hr
  · exact h.sound.heirs r hr
  · rw [List.mem_singleton.mp hr]
    exact ⟨hrow, h.sound.tag_le (List.mem_of_find?_eq_some hparent)⟩

lemma package (h : Importing events t) {event : EventId} (he : event ≤ events.length) (tag : TagId)
    (p : SeedPackage) : Importing events (t.importPackage event tag p) :=
  ⟨{ h.sound with packages := h.sound.packages.add (by rwa [h.events]) _ }, h.events⟩

lemma tagging (h : Importing events t) {event : EventId} (he : event ≤ events.length) {tag : TagId}
    {nvr : String} (hn : t.importTagging event tag nvr = .ok t') : Importing events t' := by
  obtain ⟨n, b, -, rfl⟩ := importTagging_eq_ok hn
  exact ⟨{ h.sound with taggings := h.sound.taggings.add (by rwa [h.events]) _ }, h.events⟩

lemma group (h : Importing events t) {event : EventId} (he : event ≤ events.length) (tag : TagId)
    (g : SeedGroup) : Importing events (t.importGroup event tag g) := by
  have hmembers : (g.members.foldl (fun l m => l.add event ⟨tag, g.name, m.name, m.blocked⟩)
      t.members).StampedTo t.events.length :=
    foldl_keeps h.sound.members fun l m hl => hl.add (by rwa [h.events]) _
  exact ⟨{ h.sound with
    groups := h.sound.groups.add (by rwa [h.events]) _
    members := hmembers }, h.events⟩

lemma content (h : Importing events t) {event : EventId} (he : event ≤ events.length) {s : SeedTag}
    (hs : t.importContent event s = .ok t') : Importing events t' := by
  obtain ⟨row, t₁, t₂, hrow, hparents, htaggings, rfl⟩ := importContent_eq_ok hs
  have h₁ : Importing events t₁ ∧ row.id ≤ t₁.tags.length :=
    foldlM_keeps (P := fun t => Importing events t ∧ row.id ≤ t.tags.length) hparents
      ⟨h, h.sound.tag_le (List.mem_of_find?_eq_some hrow)⟩ fun p _ t₀ t₁ ht₀ hp => by
        obtain ⟨hnext, htags⟩ := ht₀.1.parent ht₀.2 hp
        exact ⟨hnext, by rw [htags]; exact ht₀.2⟩
  have hpackages : Importing events (s.packages.foldl (importPackage event row.id) t₁) :=
    foldl_keeps h₁.1 fun t p ht => ht.package he row.id p
  have h₂ : Importing events t₂ :=
    foldlM_keeps htaggings hpackages fun n _ t₀ t₁ ht₀ hn => ht₀.tagging he hn
  exact foldl_keeps h₂ fun t g ht => ht.group he row.id g

end Importing

/-! ### Whole imports -/

section

variable {c : Clock} {s : Seed} {summary : ImportSummary}

/-- The stages of an import: users and builds, tags, and their content. -/
lemma importSeed_eq_ok (h : t.importSeed c s = .ok (t', summary)) :
    ∃ t₁ t₂, s.builds.foldlM importBuild (s.users.foldl importUser (t.newEvent c).1) = .ok t₁ ∧
      s.tags.foldlM (importTag (t.newEvent c).2) t₁ = .ok t₂ ∧
      s.tags.foldlM (importContent (t.newEvent c).2) t₂ = .ok t' := by
  simp only [importSeed, bind, Except.bind, pure, Except.pure] at h
  rcases hbuilds : s.builds.foldlM importBuild (s.users.foldl importUser (t.newEvent c).1) with
    f | t₁
  · simp [hbuilds] at h
  rcases htags : s.tags.foldlM (importTag (t.newEvent c).2) t₁ with f | t₂
  · simp [hbuilds, htags] at h
  rcases hcontent : s.tags.foldlM (importContent (t.newEvent c).2) t₂ with f | t₃
  · simp [hbuilds, htags, hcontent] at h
  simp only [hbuilds, htags, hcontent] at h
  cases h
  exact ⟨t₁, t₂, rfl, htags, hcontent⟩

variable {context : SeedContext} (ht : (t.newEvent c).1.Sound) (checked : s.check context = .ok ())

include ht checked

lemma importing_tags {t₁ t₂ : Tables}
    (hbuilds : s.builds.foldlM importBuild (s.users.foldl importUser (t.newEvent c).1) = .ok t₁)
    (htags : s.tags.foldlM (importTag (t.newEvent c).2) t₁ = .ok t₂) :
    Importing (t.newEvent c).1.events t₂ := by
  have husers : Importing (t.newEvent c).1.events (s.users.foldl importUser (t.newEvent c).1) :=
    foldl_keeps ⟨ht, rfl⟩ fun t u ht => ht.user u
  have h₁ : Importing (t.newEvent c).1.events t₁ :=
    foldlM_keeps hbuilds husers fun b hb t₀ t₁ ht₀ =>
      ht₀.build (Seed.readable_of_check checked hb)
  exact foldlM_keeps htags h₁ fun s _ t₀ t₁ ht₀ => ht₀.tag

/-- **An import of a checked seed** keeps tables sound, and brings one event. -/
theorem sound_importSeed (h : t.importSeed c s = .ok (t', summary)) :
    t'.Sound ∧ t'.events = (t.newEvent c).1.events := by
  obtain ⟨t₁, t₂, hbuilds, htags, hcontent⟩ := importSeed_eq_ok h
  have h' : Importing (t.newEvent c).1.events t' :=
    foldlM_keeps hcontent (importing_tags ht checked hbuilds htags) fun s _ t₀ t₁ ht₀ =>
      ht₀.content (by simp [newEvent])
  exact ⟨h'.sound, h'.events⟩

end

end Tables

end TagSync
