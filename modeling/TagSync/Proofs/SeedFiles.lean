import TagSync.CommandLine
import TagSync.Proofs.Imports
import TagSync.Proofs.Sown

/-!
Importing seed files one after another.

Every file is imported as a whole or not at all, on its own. The first one that fails ends the
command, and those before it stay imported.
-/

namespace TagSync

/-! ### Events -/

namespace Tables

variable {t t' : Tables} {event : EventId} {tag : TagId}

lemma events_grant (t : Tables) (user : Int) (perm : String) :
    (t.grant user perm).events = t.events := by
  unfold grant
  split <;> rfl

lemma events_importUser (t : Tables) (u : SeedUser) : (t.importUser u).events = t.events := by
  have hensure : (t.ensureUser u.name).1.events = t.events := by
    unfold ensureUser
    dsimp only
    split <;> rfl
  unfold importUser
  exact foldl_keeps (P := fun t' : Tables => t'.events = t.events) hensure fun t' perm ht' =>
    (events_grant t' _ perm).trans ht'

lemma events_importContent {s : SeedTag} (h : t.importContent event s = .ok t') :
    t'.events = t.events := by
  obtain ⟨row, t₁, t₂, -, hparents, htaggings, rfl⟩ := importContent_eq_ok h
  have h₁ : t₁.events = t.events := by
    refine foldlM_keeps (P := fun t' : Tables => t'.events = t.events) hparents rfl
      fun p _ t₀ t₁ ht₀ hp => ?_
    obtain ⟨parent, -, rfl⟩ := importParent_eq_ok hp
    exact ht₀
  have hpackages : (s.packages.foldl (importPackage event row.id) t₁).events = t.events :=
    foldl_keeps (P := fun t' : Tables => t'.events = t.events) h₁ fun _ _ ht => ht
  have h₂ : t₂.events = t.events := by
    refine foldlM_keeps (P := fun t' : Tables => t'.events = t.events) htaggings hpackages
      fun nvr _ t₀ t₁ ht₀ hb => ?_
    obtain ⟨n, b, -, rfl⟩ := importTagging_eq_ok hb
    exact ht₀
  exact foldl_keeps (P := fun t' : Tables => t'.events = t.events) h₂ fun _ _ ht => ht

/-- An import brings one event. -/
lemma events_importSeed {c : Clock} {s : Seed} {summary : ImportSummary}
    (h : t.importSeed c s = .ok (t', summary)) : t'.events = (t.newEvent c).1.events := by
  obtain ⟨t₁, t₂, hbuilds, htags, hcontent⟩ := importSeed_eq_ok h
  have husers : (s.users.foldl importUser (t.newEvent c).1).events = (t.newEvent c).1.events :=
    foldl_keeps (P := fun t' : Tables => t'.events = (t.newEvent c).1.events) rfl
      fun t u ht => (events_importUser t u).trans ht
  have h₁ : t₁.events = (t.newEvent c).1.events := by
    refine foldlM_keeps (P := fun t' : Tables => t'.events = _) hbuilds husers
      fun b _ t₀ t₁ ht₀ hb => ?_
    obtain ⟨-, state, -, rfl⟩ := importBuild_eq_ok hb
    exact ht₀
  have h₂ : t₂.events = (t.newEvent c).1.events := by
    refine foldlM_keeps (P := fun t' : Tables => t'.events = _) htags h₁ fun s _ t₀ t₁ ht₀ hs => ?_
    obtain ⟨-, rfl⟩ := importTag_eq_ok hs
    exact ht₀
  exact foldlM_keeps (P := fun t' : Tables => t'.events = _) hcontent h₂ fun s _ t₀ t₁ ht₀ hs =>
    (events_importContent hs).trans ht₀

end Tables

namespace CommandLine

variable {o : OpenHub} {files : FileTree} {h : Hub} {path : String}

/-! ### One file -/

lemma importFile_of_error (writable : o.readOnly = false) {f : Failure}
    (failed : (importFile o h files path).1 = .error f) : (importFile o h files path).2 = h := by
  unfold importFile OpenHub.importYaml at failed ⊢
  rw [writable] at failed ⊢
  split
  · rename_i yaml hread
    rw [hread] at failed
    simp only [Bool.false_eq_true, if_false, Hub.importYaml] at failed ⊢
    split
    · rename_i s hparsed
      rw [hparsed] at failed
      exact Hub.transact_of_error failed
    · rfl
  · rfl

/-- A file that is imported brings an event. -/
lemma importFile_of_ok (writable : o.readOnly = false) {summary : ImportSummary}
    (done : (importFile o h files path).1 = .ok summary) :
    h.before = none ∧ (importFile o h files path).2.before = none ∧
      (importFile o h files path).2.tables.events.length = h.tables.events.length + 1 := by
  unfold importFile OpenHub.importYaml at done ⊢
  rw [writable] at done ⊢
  split
  · rename_i yaml hread
    rw [hread] at done
    simp only [Bool.false_eq_true, if_false, Hub.importYaml] at done ⊢
    split
    · rename_i s hparsed
      rw [hparsed] at done
      obtain ⟨hclosed, t, ht, hstate⟩ := Hub.transact_of_ok done
      rw [Hub.importSeed, hstate]
      refine ⟨hclosed, hclosed, ?_⟩
      rw [show _ = _ from congrArg List.length (Tables.events_importSeed ht)]
      simp [Tables.newEvent]
    · rename_i e hparsed
      rw [hparsed] at done
      cases done
  · rename_i e hread
    rw [hread] at done
    cases done

/-! ### Several files -/

/-- A failure never counts as success. -/
lemma ofFailure_ne_success (f : Failure) : Status.ofFailure f ≠ .success := by
  unfold Status.ofFailure
  split <;> nofun

/-- What is refused ends a command with the status of a refusal, and no other failure does. -/
lemma code_ofFailure {f : Failure} : (Status.ofFailure f).code = 2 ↔ f.isUsage = true := by
  unfold Status.ofFailure
  split <;> simp_all [Status.code]

lemma importAll_cons_of_ok (rest : List String) {summary : ImportSummary}
    (done : (importFile o h files path).1 = .ok summary) :
    (importAll o files (path :: rest) h).1.status =
        (importAll o files rest (importFile o h files path).2).1.status ∧
      (importAll o files (path :: rest) h).2 =
        (importAll o files rest (importFile o h files path).2).2 := by
  rw [importAll]
  rcases himport : importFile o h files path with ⟨e | summary', h'⟩ <;> rw [himport] at done
  · cases done
  · exact ⟨rfl, rfl⟩

lemma importAll_cons_of_error (rest : List String) {f : Failure}
    (failed : (importFile o h files path).1 = .error f) :
    importAll o files (path :: rest) h = (.ofFailure f, (importFile o h files path).2) := by
  rw [importAll]
  rcases himport : importFile o h files path with ⟨e | summary, h'⟩ <;> rw [himport] at failed <;>
    cases failed
  rfl

/-- After files that are all imported the command goes on with the others. -/
lemma importAll_append {earlier : List String} (rest : List String)
    (done : (importAll o files earlier h).1.status = .success) :
    (importAll o files (earlier ++ rest) h).1.status =
        (importAll o files rest (importAll o files earlier h).2).1.status ∧
      (importAll o files (earlier ++ rest) h).2 =
        (importAll o files rest (importAll o files earlier h).2).2 := by
  induction earlier generalizing h with
  | nil => exact ⟨rfl, rfl⟩
  | cons path more ih =>
    rcases himport : (importFile o h files path).1 with f | summary
    · rw [importAll_cons_of_error _ himport] at done
      exact absurd done (ofFailure_ne_success f)
    · obtain ⟨hstatus, hstate⟩ := importAll_cons_of_ok more himport
      obtain ⟨hstatus', hstate'⟩ := importAll_cons_of_ok (more ++ rest) himport
      rw [hstatus] at done
      rw [List.cons_append, hstatus', hstate', hstate]
      exact ih done

/-- Every file that is imported brings an event, and leaves no transaction open. -/
lemma importAll_of_success (writable : o.readOnly = false) {paths : List String}
    (done : (importAll o files paths h).1.status = .success) :
    (importAll o files paths h).2.before = h.before ∧
      (importAll o files paths h).2.tables.events.length =
        h.tables.events.length + paths.length := by
  induction paths generalizing h with
  | nil => exact ⟨rfl, rfl⟩
  | cons path rest ih =>
    rcases himport : (importFile o h files path).1 with f | summary
    · rw [importAll_cons_of_error _ himport] at done
      exact absurd done (ofFailure_ne_success f)
    · obtain ⟨hstatus, hstate⟩ := importAll_cons_of_ok rest himport
      obtain ⟨hclosed, hclosed', hevents⟩ := importFile_of_ok writable himport
      rw [hstatus] at done
      obtain ⟨hbefore, hlength⟩ := ih done
      rw [hstate]
      refine ⟨hbefore.trans (hclosed'.trans hclosed.symm), ?_⟩
      rw [hlength, hevents, List.length_cons]
      omega

/-- A command that does not import all files has failed at one of them, after those before it
were imported. -/
lemma exists_failed_file {paths : List String}
    (failed : (importAll o files paths h).1.status ≠ .success) :
    ∃ earlier path rest f, paths = earlier ++ path :: rest ∧
      (importAll o files earlier h).1.status = .success ∧
      (importFile o (importAll o files earlier h).2 files path).1 = .error f := by
  induction paths generalizing h with
  | nil => exact absurd rfl failed
  | cons path rest ih =>
    rcases himport : (importFile o h files path).1 with f | summary
    · exact ⟨[], path, rest, f, rfl, rfl, himport⟩
    · rw [(importAll_cons_of_ok _ himport).1] at failed
      obtain ⟨earlier, refused, rest', f, rfl, hdone, hrefused⟩ := ih failed
      obtain ⟨hstatus, hstate⟩ := importAll_cons_of_ok earlier himport
      rw [← hstate] at hrefused
      exact ⟨path :: earlier, refused, rest', f, rfl, hstatus.trans hdone, hrefused⟩

/-- Where a command stops: the files before the one that fails stay imported, and nothing else
is written. -/
lemma importAll_of_failed (writable : o.readOnly = false) {earlier : List String}
    (rest : List String) {f : Failure} (done : (importAll o files earlier h).1.status = .success)
    (failed : (importFile o (importAll o files earlier h).2 files path).1 = .error f) :
    (importAll o files (earlier ++ path :: rest) h).1.status = .ofFailure f ∧
      (importAll o files (earlier ++ path :: rest) h).2 = (importAll o files earlier h).2 := by
  obtain ⟨hstatus, hstate⟩ := importAll_append (path :: rest) done
  have hstop := importAll_cons_of_error rest failed
  rw [hstatus, hstate, hstop]
  exact ⟨rfl, importFile_of_error writable failed⟩

/-! ### Refused files -/

/-- Files were imported before the one that is refused. -/
inductive ImportedInPart (o : OpenHub) (files : FileTree) (h : Hub) : List String → Hub → Prop where
  | intro {earlier rest : List String} {refused : String} {f : Failure} (nonempty : earlier ≠ [])
    (done : (importAll o files earlier h).1.status = .success)
    (failed : (importFile o (importAll o files earlier h).2 files refused).1 = .error f)
    (usage : f.isUsage = true) :
    ImportedInPart o files h (earlier ++ refused :: rest) (importAll o files earlier h).2

/-- **What a refused import leaves**: nothing, or the files before the refused one. -/
theorem state_of_refused_import (writable : o.readOnly = false) {paths : List String}
    (refused : (importAll o files paths h).1.status.code = 2) :
    (importAll o files paths h).2 = h ∨
      ImportedInPart o files h paths (importAll o files paths h).2 := by
  have hfailed : (importAll o files paths h).1.status ≠ .success := by
    intro hsuccess
    rw [hsuccess] at refused
    cases refused
  obtain ⟨earlier, path, rest, f, rfl, hdone, hf⟩ := exists_failed_file hfailed
  obtain ⟨hstatus, hstate⟩ := importAll_of_failed writable rest hdone hf
  rw [hstatus, code_ofFailure] at refused
  rw [hstate]
  rcases earlier with _ | ⟨first, more⟩
  · exact .inl rfl
  · exact .inr (.intro (List.cons_ne_nil _ _) hdone hf refused)

namespace ImportedInPart

variable {paths : List String} {h' : Hub} (part : ImportedInPart o files h paths h')
  (writable : o.readOnly = false)

include part writable

lemma refused :
    (importAll o files paths h).1.status.code = 2 ∧ (importAll o files paths h).2 = h' := by
  obtain ⟨-, hdone, hf, husage⟩ := part
  obtain ⟨hstatus, hstate⟩ := importAll_of_failed writable _ hdone hf
  rw [hstatus, code_ofFailure]
  exact ⟨husage, hstate⟩

lemma before_eq : h'.before = h.before := by
  obtain ⟨-, hdone, -, -⟩ := part
  exact (importAll_of_success writable hdone).1

/-- The files that were imported have brought events. -/
lemma tables_ne : h'.tables ≠ h.tables := by
  obtain ⟨hsome, hdone, -, -⟩ := part
  intro heq
  have hevents := (importAll_of_success writable hdone).2
  rw [heq] at hevents
  exact hsome (List.eq_nil_of_length_eq_zero (by omega))

end ImportedInPart

end CommandLine

end TagSync
