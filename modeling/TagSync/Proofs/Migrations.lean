import Mathlib.Data.List.Nodup
import TagSync.Proofs.Faults
import TagSync.Schema.Migration

/-!
Databases that are brought up to date.

A step fails for a known reason: its record has another checksum or, where there is none, a name
that it needs is taken (`fault?`). Otherwise the database gets all that the step makes (`taking`).
Whatever is done to a database from outside, a step that is recorded has been taken; so a database
that has been brought up to date is complete and stays as it is, and one that cannot be is left
alone.
-/

namespace TagSync

/-- A hash has 64 digits. -/
lemma Sha256.length_hexDigest (message : ByteArray) : (hexDigest message).length = 64 := by
  simp [hexDigest, State.words]

/-- A step makes tables and indexes of different names, none of them the name of the record. -/
structure Migration.Distinct (m : Migration) : Prop where
  names : m.statements.Pairwise fun a b => Database.sameName b.name a.name = false
  record : ∀ s ∈ m.statements, Database.sameName Database.recordName s.name = false

namespace Database

variable {db db' : Database} {m : Migration} {s : SchemaStatement} {name : String}

/-! ### Statements -/

/-- The database with what a statement makes. -/
def including (db : Database) (s : SchemaStatement) : Database :=
  if s.isTable then { db with tables := db.tables ++ [s.name] }
  else { db with indexes := db.indexes ++ [s.name] }

/-- Why a statement fails by itself. -/
def clash? (db : Database) (s : SchemaStatement) : Option String :=
  match db.execute s with
  | .ok _ => none
  | .error reason => some reason

lemma execute_eq (db : Database) (s : SchemaStatement) :
    db.execute s = barring (db.clash? s) (db.including s) := by
  unfold clash? including
  rcases h : db.execute s with reason | db'
  · rfl
  · simp only [execute] at h
    split_ifs at h ⊢ <;> cases h <;> rfl

/-- A statement fails by itself just when its name is taken. -/
lemma clash?_eq_none_iff :
    db.clash? s = none ↔ db.hasTable s.name = false ∧ db.hasIndex s.name = false := by
  rcases htable : db.hasTable s.name <;> rcases hindex : db.hasIndex s.name <;>
    rcases hkind : s.isTable <;> simp [clash?, execute, htable, hindex, hkind]

lemma clash?_congr (htable : db'.hasTable s.name = db.hasTable s.name)
    (hindex : db'.hasIndex s.name = db.hasIndex s.name) : db'.clash? s = db.clash? s := by
  unfold clash? execute
  rw [htable, hindex]
  split_ifs <;> rfl

/-- A statement of another name makes no difference. -/
lemma clash?_including {a : SchemaStatement} (h : sameName s.name a.name = false) :
    (db.including a).clash? s = db.clash? s := by
  have htable : (db.including a).hasTable s.name = db.hasTable s.name := by
    unfold including
    split <;> simp [hasTable, h]
  have hindex : (db.including a).hasIndex s.name = db.hasIndex s.name := by
    unfold including
    split <;> simp [hasIndex, h]
  exact clash?_congr htable hindex

/-- Of statements with different names the first one that fails by itself counts. -/
lemma foldlM_execute {l : List SchemaStatement}
    (hl : l.Pairwise fun a b => sameName b.name a.name = false) (db : Database) :
    l.foldlM execute db = barring (l.findSome? db.clash?) (l.foldl including db) := by
  refine foldlM_eq_barring (I := fun rest db' =>
      (rest.Pairwise fun a b => sameName b.name a.name = false) ∧
        ∀ s ∈ rest, db'.clash? s = db.clash? s) (fun a rest db' h => ?_)
    (fun a rest db' h _ => ?_) ⟨hl, fun _ _ => rfl⟩
  · rw [execute_eq, h.2 a (.head _)]
  · obtain ⟨hfirst, hrest⟩ := List.pairwise_cons.mp h.1
    refine ⟨hrest, fun s hs => ?_⟩
    rw [clash?_including (hfirst s hs), h.2 s (.tail _ hs)]

lemma foldl_including (l : List SchemaStatement) (db : Database) :
    l.foldl including db =
      { db with
        tables := db.tables ++ (l.filter (·.isTable)).map SchemaStatement.name
        indexes := db.indexes ++ (l.filter (!·.isTable)).map SchemaStatement.name } := by
  induction l generalizing db with
  | nil => simp
  | cons s rest ih =>
    rw [List.foldl_cons, ih]
    rcases hkind : s.isTable <;> simp [including, hkind]

/-! ### What there is -/

/-- What a statement makes is there. -/
def Has (db : Database) : SchemaStatement → Prop
  | .table name _ => name ∈ db.tables
  | .index name _ _ => name ∈ db.indexes

/-- Nothing is lost. -/
structure Within (db db' : Database) : Prop where
  tables : db.tables ⊆ db'.tables
  indexes : db.indexes ⊆ db'.indexes

lemma Within.refl (db : Database) : Within db db := ⟨fun _ => id, fun _ => id⟩

lemma Within.has (h : Within db db') (hs : db.Has s) : db'.Has s := by
  cases s with
  | table name lines => exact h.tables hs
  | index name target columns => exact h.indexes hs

/-! ### Steps -/

/-- The record of a step. -/
def note? (db : Database) (m : Migration) : Option AppliedMigration :=
  db.record.find? (·.id == m.id)

/-- Why a step cannot be taken: it was recorded with another checksum or, if it was not recorded,
one of its statements fails. -/
def fault? (db : Database) (m : Migration) : Option Failure :=
  match db.note? m with
  | some note =>
    (note.checksum.filter (· ≠ m.checksum)).map (checksumMismatch m.id · m.checksum)
  | none => (m.statements.findSome? db.clash?).map (migrationFailure m.id)

/-- The database with all that a step makes, and its record. -/
def taking (db : Database) (m : Migration) : Database :=
  match db.note? m with
  | some _ => db
  | none =>
    { m.statements.foldl including db with
      applied := some (db.record ++ [⟨m.id, some m.checksum⟩]) }

/-- **A step is taken as a whole or not at all.** -/
theorem step_eq (hm : m.Distinct) (hrecord : db.applied.isSome) :
    db.step m = barring (db.fault? m) (db.taking m) := by
  obtain ⟨record, hrecord⟩ := Option.isSome_iff_exists.mp hrecord
  have hquery : db.query "checksum" "WHERE migration_id = ?" = .ok record := by
    simp only [query, hrecord]
  have hnote : db.note? m = record.find? (·.id == m.id) := by
    simp [note?, Database.record, hrecord]
  have hall : db.record = record := by simp [Database.record, hrecord]
  simp only [step, hquery, bind, Except.bind, fault?, taking, hnote, hall]
  rcases hfound : record.find? (·.id == m.id) with _ | ⟨id, _ | text⟩ <;> rw [hfound]
  · simp only [foldlM_execute hm.names]
    rcases m.statements.findSome? db.clash? with _ | reason <;> rfl
  · rfl
  · by_cases htext : text = m.checksum <;> simp [htext, Option.filter, barring]

lemma taking_of_note {note : AppliedMigration} (h : db.note? m = some note) :
    db.taking m = db := by
  unfold taking
  rw [h]

/-- Where a step is not recorded it is taken. -/
lemma taking_of_none (h : db.note? m = none) :
    db.taking m =
      { applied := some (db.record ++ [⟨m.id, some m.checksum⟩])
        tables := db.tables ++ (m.statements.filter (·.isTable)).map SchemaStatement.name
        indexes := db.indexes ++ (m.statements.filter (!·.isTable)).map SchemaStatement.name } := by
  unfold taking
  rw [h, foldl_including]

lemma within_taking (db : Database) (m : Migration) : Within db (db.taking m) := by
  rcases h : db.note? m with _ | note
  · rw [taking_of_none h]
    exact ⟨List.subset_append_left .., List.subset_append_left ..⟩
  · rw [taking_of_note h]
    exact .refl db

lemma has_taking (h : db.note? m = none) (hs : s ∈ m.statements) : (db.taking m).Has s := by
  rw [taking_of_none h]
  cases s with
  | table name lines =>
    exact List.mem_append_right _
      (List.mem_map_of_mem (f := SchemaStatement.name) (List.mem_filter.mpr ⟨hs, rfl⟩))
  | index name target columns =>
    exact List.mem_append_right _
      (List.mem_map_of_mem (f := SchemaStatement.name) (List.mem_filter.mpr ⟨hs, rfl⟩))

lemma note?_eq_none_iff : db.note? m = none ↔ m.id ∉ db.record.map AppliedMigration.id := by
  simp [note?]

/-- A step that is not recorded fails with the first of its statements that fails. -/
lemma fault?_of_none (h : db.note? m = none) {f : Failure} :
    db.fault? m = some f ↔ ∃ reason, m.statements.findSome? db.clash? = some reason ∧
      f = migrationFailure m.id reason := by
  unfold fault?
  rw [h, Option.map_eq_some_iff]
  simp only [eq_comm (b := f)]

/-- A step that is recorded fails if another checksum is. -/
lemma fault?_of_note {note : AppliedMigration} (h : db.note? m = some note) {f : Failure} :
    db.fault? m = some f ↔ ∃ text, note.checksum = some text ∧ text ≠ m.checksum ∧
      f = checksumMismatch m.id text m.checksum := by
  unfold fault?
  rw [h, Option.map_eq_some_iff]
  simp only [Option.filter_eq_some_iff, decide_eq_true_eq, and_assoc, eq_comm (b := f)]

/-! ### What holds of a database -/

/-- **What holds of a database** whatever was done to it: no table beside the record has its name,
and a step is recorded once, and only if all that it makes is there. -/
structure Sound (db : Database) : Prop where
  foreign : ∀ name ∈ db.tables, sameName recordName name = false
  once : (db.record.map AppliedMigration.id).Nodup
  known : db.record.map AppliedMigration.id ⊆ Schema.migrations.map Migration.id
  made : ∀ m ∈ Schema.migrations, m.id ∈ db.record.map AppliedMigration.id →
    ∀ s ∈ m.statements, db.Has s

lemma distinct_of_mem_migrations (h : m ∈ Schema.migrations) : m.Distinct := by
  have hall : ∀ m ∈ Schema.migrations,
      (m.statements.Pairwise fun a b => Database.sameName b.name a.name = false) ∧
        ∀ s ∈ m.statements, Database.sameName Database.recordName s.name = false := by
    decide +kernel
  exact ⟨(hall m h).1, (hall m h).2⟩

lemma nodup_migrations : (Schema.migrations.map Migration.id).Nodup := by decide

namespace Sound

lemma empty : Database.empty.Sound where
  foreign := nofun
  once := .nil
  known := nofun
  made := nofun

/-- Records may get lost, and tables may be added. -/
lemma of_sublist (h : db.Sound) (hids : (db'.record.map AppliedMigration.id).Sublist
    (db.record.map AppliedMigration.id)) (hwithin : Within db db')
    (hforeign : ∀ name ∈ db'.tables, sameName recordName name = false) : db'.Sound where
  foreign := hforeign
  once := h.once.sublist hids
  known := List.Subset.trans hids.subset h.known
  made m hm hid s hs := hwithin.has (h.made m hm (hids.subset hid) s hs)

/-- What is recorded anew has been made. -/
lemma taking (h : db.Sound) (hm : m ∈ Schema.migrations) : (db.taking m).Sound := by
  rcases hnote : db.note? m with _ | note
  · have hnew := note?_eq_none_iff.mp hnote
    have hids : (db.taking m).record.map AppliedMigration.id =
        db.record.map AppliedMigration.id ++ [m.id] := by
      rw [taking_of_none hnote]
      simp [Database.record]
    refine ⟨?_, ?_, ?_, ?_⟩
    · intro name hname
      rw [taking_of_none hnote] at hname
      rcases List.mem_append.mp hname with hname | hname
      · exact h.foreign name hname
      · obtain ⟨s, hs, rfl⟩ := List.mem_map.mp hname
        exact (distinct_of_mem_migrations hm).record s (List.mem_filter.mp hs).1
    · rw [hids]
      exact List.nodup_append.mpr ⟨h.once, List.nodup_singleton _, by simpa using hnew⟩
    · rw [hids]
      exact List.append_subset.mpr ⟨h.known, by simpa using ⟨m, hm, rfl⟩⟩
    · intro m' hm' hid s hs
      rw [hids] at hid
      rcases List.mem_append.mp hid with hid | hid
      · exact (within_taking db m).has (h.made m' hm' hid s hs)
      · have hsame : m' = m :=
          List.inj_on_of_nodup_map nodup_migrations hm' hm (List.mem_singleton.mp hid)
        rw [hsame] at hs
        exact has_taking hnote hs
  · rw [taking_of_note hnote]
    exact h

/-- The record, if there was none, is made without any note. -/
lemma withRecord_eq (h : db.Sound) : db.withRecord = { db with applied := some db.record } := by
  obtain ⟨applied, tables, indexes⟩ := db
  have hnone : tables.any (sameName recordName) = false := by
    simpa using h.foreign
  rcases applied with _ | record <;> simp [Database.withRecord, Database.record, hasTable, hnone,
    sameName]

lemma withRecord (h : db.Sound) : db.withRecord.Sound := by
  rw [h.withRecord_eq]
  exact h.of_sublist (.refl _) ⟨fun _ => id, fun _ => id⟩ h.foreign

end Sound

/-! ### Runs of steps -/

/-- A step is recorded, with its own checksum or none. -/
def Agrees (db : Database) (m : Migration) : Prop :=
  ∃ note, db.note? m = some note ∧ db.fault? m = none

lemma agrees_taking (h : db.fault? m = none) : (db.taking m).Agrees m := by
  rcases hnote : db.note? m with _ | note
  · have hnew : (db.taking m).note? m = some ⟨m.id, some m.checksum⟩ := by
      have hold : db.record.find? (·.id == m.id) = none := hnote
      rw [taking_of_none hnote]
      show (db.record ++ [_]).find? _ = _
      rw [List.find?_append, hold]
      simp
    refine ⟨_, hnew, ?_⟩
    unfold fault?
    rw [hnew]
    simp
  · rw [taking_of_note hnote]
    exact ⟨note, hnote, h⟩

/-- What taking steps keeps, from a database with a record on. -/
structure Advanced (db db' : Database) : Prop where
  sound : db'.Sound
  recorded : db'.applied.isSome
  record : db.record <+: db'.record

namespace Advanced

lemma refl (hs : db.Sound) (hrecord : db.applied.isSome) : Advanced db db :=
  ⟨hs, hrecord, List.prefix_rfl⟩

lemma trans {db'' : Database} (h : Advanced db db') (h' : Advanced db' db'') : Advanced db db'' :=
  ⟨h'.sound, h'.recorded, h.record.trans h'.record⟩

lemma taking (hs : db.Sound) (hrecord : db.applied.isSome) (hm : m ∈ Schema.migrations) :
    Advanced db (db.taking m) := by
  rcases hnote : db.note? m with _ | note
  · have htaken := hs.taking hm
    rw [taking_of_none hnote] at htaken ⊢
    exact ⟨htaken, rfl, List.prefix_append ..⟩
  · rw [taking_of_note hnote]
    exact .refl hs hrecord

/-- A step goes on to agree. -/
lemma agrees (h : Advanced db db') (hm : db.Agrees m) : db'.Agrees m := by
  obtain ⟨note, hnote, hfault⟩ := hm
  obtain ⟨new, hnew⟩ := h.record
  have hnote' : db'.note? m = some note := by
    unfold note? at hnote ⊢
    rw [← hnew, List.find?_append, hnote, Option.some_or]
  refine ⟨note, hnote', ?_⟩
  unfold fault? at hfault ⊢
  rw [hnote']
  rwa [hnote] at hfault

end Advanced

variable {l : List Migration}

lemma advanced_steps (hl : l ⊆ Schema.migrations) (hs : db.Sound) (hrecord : db.applied.isSome) :
    Advanced db (db.steps l).1 ∧ ((db.steps l).2 = .ok () → ∀ m ∈ l, (db.steps l).1.Agrees m) := by
  induction l generalizing db with
  | nil => exact ⟨.refl hs hrecord, fun _ => nofun⟩
  | cons m rest ih =>
    obtain ⟨hm, hrest⟩ := List.cons_subset.mp hl
    have hstep := step_eq (distinct_of_mem_migrations hm) hrecord
    unfold steps
    rcases hfault : db.fault? m with _ | f
    · rw [hstep, hfault, barring_none]
      have htaken := Advanced.taking hs hrecord hm
      obtain ⟨hadvanced, hagree⟩ := ih hrest htaken.sound htaken.recorded
      refine ⟨htaken.trans hadvanced, fun hok => ?_⟩
      exact List.forall_mem_cons.mpr ⟨hadvanced.agrees (agrees_taking hfault), hagree hok⟩
    · rw [hstep, hfault]
      exact ⟨.refl hs hrecord, nofun⟩

/-- Steps that all agree change nothing. -/
lemma steps_of_agrees (hl : l ⊆ Schema.migrations) (hrecord : db.applied.isSome)
    (h : ∀ m ∈ l, db.Agrees m) : db.steps l = (db, .ok ()) := by
  induction l with
  | nil => rfl
  | cons m rest ih =>
    obtain ⟨hm, hrest⟩ := List.cons_subset.mp hl
    obtain ⟨hagree, hothers⟩ := List.forall_mem_cons.mp h
    obtain ⟨note, hnote, hfault⟩ := hagree
    unfold steps
    rw [step_eq (distinct_of_mem_migrations hm) hrecord, hfault, taking_of_note hnote]
    exact ih hrest hothers

/-! ### Whole runs -/

namespace Sound

/-- Whether a step can be taken does not depend on there being an empty record. -/
lemma fault?_withRecord (h : db.Sound) (hm : m ∈ Schema.migrations) :
    db.withRecord.fault? m = db.fault? m := by
  have hnote : db.withRecord.note? m = db.note? m := by
    rw [h.withRecord_eq]
    rfl
  have hclash : ∀ s ∈ m.statements, db.withRecord.clash? s = db.clash? s := by
    intro s hs
    have hother := (distinct_of_mem_migrations hm).record s hs
    rw [h.withRecord_eq]
    refine clash?_congr ?_ rfl
    simp [hasTable, hother]
  unfold fault?
  rw [hnote, ← List.head?_filterMap, List.filterMap_congr hclash, List.head?_filterMap]

lemma withRecord_of_recorded (h : db.Sound) (hrecord : db.applied.isSome) :
    db.withRecord = db := by
  obtain ⟨record, hrecord⟩ := Option.isSome_iff_exists.mp hrecord
  obtain ⟨applied, tables, indexes⟩ := db
  cases hrecord
  exact h.withRecord_eq

lemma advanced_migrate (h : db.Sound) :
    Advanced db.withRecord db.migrate.1 ∧
      (db.migrate.2 = .ok () → ∀ m ∈ Schema.migrations, db.migrate.1.Agrees m) := by
  have hrecord : db.withRecord.applied.isSome := by
    rw [h.withRecord_eq]
    rfl
  exact advanced_steps (List.Subset.refl _) h.withRecord hrecord

lemma note?_eq_some (h : db.Sound) {note : AppliedMigration} (hnote : note ∈ db.record)
    (hid : note.id = m.id) : db.note? m = some note := by
  rcases hfound : db.note? m with _ | found
  · exact absurd (hid ▸ List.mem_map_of_mem hnote) (note?_eq_none_iff.mp hfound)
  · have hsame : found.id = m.id := by simpa using List.find?_some hfound
    rw [List.inj_on_of_nodup_map h.once (List.mem_of_find?_eq_some hfound) hnote
      (hsame.trans hid.symm)]

/-- There is one step so far; if it cannot be taken, nothing but an empty record is made. -/
lemma migrate_eq (h : db.Sound) :
    db.migrate = match db.fault? Schema.initial with
      | none => (db.withRecord.taking Schema.initial, .ok ())
      | some f => (db.withRecord, .error f) := by
  have hm : Schema.initial ∈ Schema.migrations := .head _
  have hrecord : db.withRecord.applied.isSome := by
    rw [h.withRecord_eq]
    rfl
  show db.withRecord.steps [Schema.initial] = _
  unfold steps
  rw [step_eq (distinct_of_mem_migrations hm) hrecord, h.fault?_withRecord hm]
  rcases db.fault? Schema.initial with _ | f <;> rfl

lemma migrate_eq_error_iff (h : db.Sound) (hm : m ∈ Schema.migrations) {f : Failure} :
    db.migrate.2 = .error f ↔ db.fault? m = some f := by
  obtain rfl : m = Schema.initial := List.mem_singleton.mp hm
  rw [h.migrate_eq]
  rcases db.fault? Schema.initial with _ | f' <;> simp

/-- A run that fails changes nothing, but where there was no record there is an empty one. -/
lemma migrate_of_error (h : db.Sound) {f : Failure} (hf : db.migrate.2 = .error f) :
    (db.applied.isSome → db.migrate.1 = db) ∧
      (db.applied = none → db.migrate.1 = { db with applied := some [] }) := by
  have hstay : db.migrate.1 = db.withRecord := by
    rw [h.migrate_eq, (h.migrate_eq_error_iff (.head _)).mp hf]
  rw [hstay]
  refine ⟨h.withRecord_of_recorded, fun hnone => ?_⟩
  rw [h.withRecord_eq, Database.record, hnone, Option.getD_none]

end Sound

/-- All that a hub needs is there. -/
structure Complete (db : Database) : Prop where
  record : recordName ∈ db.tableNames
  tables : ∀ m ∈ Schema.migrations, ∀ s ∈ m.statements, s.isTable = true → s.name ∈ db.tableNames
  indexes : ∀ m ∈ Schema.migrations, ∀ s ∈ m.statements, s.isTable = false → s.name ∈ db.indexes

lemma mem_tableNames :
    name ∈ db.tableNames ↔ (db.applied.isSome ∧ name = recordName) ∨ name ∈ db.tables := by
  simp [tableNames, sortBy]

section Agreement

variable (hs : db.Sound) (hrecord : db.applied.isSome) (h : ∀ m ∈ Schema.migrations, db.Agrees m)

include hs hrecord h

omit hs hrecord in
lemma mem_ids_of_agrees (hm : m ∈ Schema.migrations) :
    m.id ∈ db.record.map AppliedMigration.id := by
  obtain ⟨note, hnote, -⟩ := h m hm
  by_contra hnone
  rw [note?_eq_none_iff.mpr hnone] at hnote
  cases hnote

lemma complete_of_agrees : db.Complete where
  record := mem_tableNames.mpr (.inl ⟨hrecord, rfl⟩)
  tables m hm s hs' htable := by
    have hhas := hs.made m hm (mem_ids_of_agrees h hm) s hs'
    cases s with
    | table name lines => exact mem_tableNames.mpr (.inr hhas)
    | index name target columns => cases htable
  indexes m hm s hs' hindex := by
    have hhas := hs.made m hm (mem_ids_of_agrees h hm) s hs'
    cases s with
    | table name lines => cases hindex
    | index name target columns => exact hhas

/-- Every step is recorded once. -/
lemma appliedIds_of_agrees : db.appliedIds = .ok (Schema.migrations.map Migration.id) := by
  have hperm : (db.record.map AppliedMigration.id).Perm (Schema.migrations.map Migration.id) := by
    refine (List.perm_ext_iff_of_nodup hs.once nodup_migrations).mpr fun id => ?_
    refine ⟨fun hid => hs.known hid, fun hid => ?_⟩
    obtain ⟨m, hm, rfl⟩ := List.mem_map.mp hid
    exact mem_ids_of_agrees h hm
  have hids : db.record.map AppliedMigration.id = Schema.migrations.map Migration.id :=
    List.perm_singleton.mp hperm
  obtain ⟨record, hrecord⟩ := Option.isSome_iff_exists.mp hrecord
  rw [← hids]
  simp [appliedIds, query, Database.record, hrecord, Except.map]

lemma migrate_of_agrees : db.migrate = (db, .ok ()) := by
  unfold migrate
  rw [hs.withRecord_of_recorded hrecord]
  exact steps_of_agrees (List.Subset.refl _) hrecord h

end Agreement

/-! ### All histories -/

/-- **The databases that can come about** from an empty one: they are brought up to date, all
checksums are overwritten, the record is emptied, and tables that do not belong to a hub are made
under any name but that of the record. -/
inductive Reachable : Database → Prop where
  | empty : Reachable .empty
  | migrate {db : Database} (reached : Reachable db) : Reachable db.migrate.1
  | setChecksum {db : Database} (checksum : Option String) (reached : Reachable db) :
    Reachable (db.setChecksum checksum)
  | forget {db : Database} (reached : Reachable db) : Reachable db.forget
  | addForeignTable {db db' : Database} {name : String}
      (foreign : sameName recordName name = false) (made : db.addForeignTable name = .ok db')
      (reached : Reachable db) : Reachable db'

lemma record_setChecksum (db : Database) (checksum : Option String) :
    (db.setChecksum checksum).record = db.record.map fun note => { note with checksum } := by
  unfold setChecksum record
  rcases db.applied with _ | l <;> rfl

lemma record_forget (db : Database) : db.forget.record = [] := by
  unfold forget record
  rcases db.applied with _ | l <;> rfl

lemma eq_of_addForeignTable (h : db.addForeignTable name = .ok db') :
    db' = { db with tables := db.tables ++ [name] } := by
  unfold addForeignTable at h
  split at h
  · cases h
  · rw [execute_eq, barring_eq_ok] at h
    exact h.2.symm

/-- **Whatever is done to a database, it stays sound.** -/
theorem Reachable.sound (hr : db.Reachable) : db.Sound := by
  induction hr with
  | empty => exact .empty
  | migrate reached ih => exact ih.advanced_migrate.1.sound
  | @setChecksum db checksum reached ih =>
    refine ih.of_sublist ?_ ⟨fun _ => id, fun _ => id⟩ ih.foreign
    rw [record_setChecksum, List.map_map]
    exact .refl _
  | @forget db reached ih =>
    refine ih.of_sublist ?_ ⟨fun _ => id, fun _ => id⟩ ih.foreign
    rw [record_forget]
    exact List.nil_sublist _
  | addForeignTable foreign made reached ih =>
    rw [eq_of_addForeignTable made]
    refine ih.of_sublist (.refl _) ⟨List.subset_append_left .., fun _ => id⟩ fun name hname => ?_
    rcases List.mem_append.mp hname with hname | hname
    · exact ih.foreign name hname
    · rwa [List.mem_singleton.mp hname]

/-- **Bringing a database up to date is all or nothing**, after any history. If it succeeds, all
tables are there, every step is recorded once, and to do it again changes nothing. If it fails,
nothing is changed but for an empty record. It fails on a step that is recorded just when the
checksum there is a text and another one, and on a step that is not when one of its statements
does. -/
theorem migrate_all_or_nothing (hr : db.Reachable) :
    (db.migrate.2 = .ok () →
      db.migrate.1.Complete ∧
      db.migrate.1.appliedIds = .ok (Schema.migrations.map Migration.id) ∧
      (Schema.migrations.map Migration.id).Nodup ∧
      db.migrate.1.migrate = (db.migrate.1, .ok ())) ∧
    (∀ f, db.migrate.2 = .error f →
      (db.applied.isSome → db.migrate.1 = db) ∧
        (db.applied = none → db.migrate.1 = { db with applied := some [] })) ∧
    ∀ m ∈ Schema.migrations,
      (∀ note ∈ db.record, note.id = m.id → ∀ f, db.migrate.2 = .error f ↔
        ∃ text, note.checksum = some text ∧ text ≠ m.checksum ∧
          f = checksumMismatch m.id text m.checksum) ∧
      ((∀ note ∈ db.record, note.id ≠ m.id) → ∀ f, db.migrate.2 = .error f ↔
        ∃ reason, m.statements.findSome? db.clash? = some reason ∧
          f = migrationFailure m.id reason) := by
  have hs := hr.sound
  refine ⟨fun hok => ?_, fun f hf => ?_, fun m hm => ?_⟩
  · obtain ⟨hadvanced, hagree⟩ := hs.advanced_migrate
    exact ⟨complete_of_agrees hadvanced.sound hadvanced.recorded (hagree hok),
      appliedIds_of_agrees hadvanced.sound hadvanced.recorded (hagree hok), nodup_migrations,
      migrate_of_agrees hadvanced.sound hadvanced.recorded (hagree hok)⟩
  · exact hs.migrate_of_error hf
  · simp only [hs.migrate_eq_error_iff hm]
    refine ⟨fun note hnote hid f => fault?_of_note (hs.note?_eq_some hnote hid), fun hnone f => ?_⟩
    refine fault?_of_none (note?_eq_none_iff.mpr fun hid => ?_)
    obtain ⟨note, hnote, hsame⟩ := List.mem_map.mp hid
    exact hnone note hnote hsame

/-! ### A database that is meddled with -/

/-- A database that has been brought up to date. -/
def upToDate : Database := Database.empty.migrate.1

lemma fault?_empty : Database.empty.fault? Schema.initial = none := by
  have hclash : Schema.initial.statements.findSome? Database.empty.clash? = none :=
    List.findSome?_eq_none_iff.mpr fun s _ => clash?_eq_none_iff.mpr ⟨rfl, rfl⟩
  have hnote : Database.empty.note? Schema.initial = none := rfl
  unfold fault?
  rw [hnote, hclash]
  rfl

lemma applied_upToDate :
    upToDate.applied = some [⟨"001_initial_schema", some Schema.initial.checksum⟩] := by
  have hnote : Database.empty.withRecord.note? Schema.initial = none := rfl
  unfold upToDate
  rw [Sound.empty.migrate_eq, fault?_empty, taking_of_none hnote]
  rfl

/-- It bears a checksum that is none. -/
def tampered : Database := upToDate.setChecksum (some "deadbeef")

lemma applied_tampered : tampered.applied = some [⟨"001_initial_schema", some "deadbeef"⟩] := by
  simp [tampered, setChecksum, applied_upToDate]

lemma checksum_ne : "deadbeef" ≠ Schema.initial.checksum := by
  intro hsame
  have hlength := Sha256.length_hexDigest Schema.initial.text.toUTF8
  rw [← Migration.checksum, ← hsame] at hlength
  revert hlength
  decide

/-- There is a table whose name a statement in the middle of a step needs. -/
def crowded : Database := { tables := ["Repos"] }

lemma reachable_crowded : crowded.Reachable := by
  have hmade : Database.empty.addForeignTable "Repos" = .ok crowded := by
    rw [addForeignTable, if_neg (by decide +kernel)]
    rfl
  exact .addForeignTable (by decide +kernel) hmade .empty

/-- Names are one if their letters are, but for the case. -/
lemma sameName_of_map_toLower {a b : String}
    (h : a.toList.map Char.toLower = b.toList.map Char.toLower) : sameName a b = true := by
  have hlower : ∀ s : String, s.toLower.toList = s.toList.map Char.toLower :=
    fun _ => String.toList_map
  rw [sameName, beq_iff_eq, ← String.toList_inj, hlower, hlower, h]

lemma exists_clash_crowded :
    ∃ reason, Schema.initial.statements.findSome? crowded.clash? = some reason := by
  obtain ⟨s, hs, hname⟩ : ∃ s ∈ Schema.initial.statements, s.name = "repos" := by decide
  have hsame : sameName s.name "Repos" = true := by
    rw [hname]
    exact sameName_of_map_toLower (by decide +kernel)
  rcases hclash : Schema.initial.statements.findSome? crowded.clash? with _ | reason
  · have hfree := clash?_eq_none_iff.mp (List.findSome?_eq_none_iff.mp hclash s hs)
    simp [hasTable, crowded, hsame] at hfree
  · exact ⟨reason, rfl⟩

/-- An empty database can be brought up to date, and again. With another checksum, with an empty
record or with a table in the way it cannot, and keeps what it has. -/
theorem migrate_all_or_nothing_meddled :
    (Database.empty.migrate.2 = .ok () ∧ upToDate.Complete ∧
      upToDate.migrate = (upToDate, .ok ())) ∧
    tampered.migrate = (tampered, .error (checksumMismatch "001_initial_schema" "deadbeef"
      Schema.initial.checksum)) ∧
    upToDate.forget.migrate = (upToDate.forget, .error (migrationFailure "001_initial_schema"
      "table events already exists")) ∧
    ∃ f, crowded.migrate = ({ crowded with applied := some [] }, .error f) := by
  have hm : Schema.initial ∈ Schema.migrations := .head _
  have hreached : upToDate.Reachable := .migrate .empty
  refine ⟨?_, ?_, ?_, ?_⟩
  · obtain ⟨hsuccess, -⟩ := migrate_all_or_nothing .empty
    have hok : Database.empty.migrate.2 = .ok () := by
      rw [Sound.empty.migrate_eq, fault?_empty]
    obtain ⟨hcomplete, -, -, hagain⟩ := hsuccess hok
    exact ⟨hok, hcomplete, hagain⟩
  · obtain ⟨-, hstays, hfails⟩ := migrate_all_or_nothing (.setChecksum (some "deadbeef") hreached)
    have hnote : ⟨"001_initial_schema", some "deadbeef"⟩ ∈ tampered.record := by
      simp [record, applied_tampered]
    have hrun := ((hfails _ hm).1 _ hnote rfl _).mpr ⟨"deadbeef", rfl, checksum_ne, rfl⟩
    have hrecorded : tampered.applied.isSome := by
      rw [applied_tampered]
      rfl
    exact Prod.ext ((hstays _ hrun).1 hrecorded) hrun
  · obtain ⟨-, hstays, hfails⟩ := migrate_all_or_nothing (.forget hreached)
    have hnone : ∀ note ∈ upToDate.forget.record, note.id ≠ Schema.initial.id := by
      rw [record_forget]
      exact fun note hnote => absurd hnote List.not_mem_nil
    have hclash : Schema.initial.statements.findSome? upToDate.forget.clash? =
        some "table events already exists" := by decide +kernel
    have hrun := ((hfails _ hm).2 hnone _).mpr ⟨_, hclash, rfl⟩
    have hrecorded : upToDate.forget.applied.isSome := by
      simp [forget, applied_upToDate]
    exact Prod.ext ((hstays _ hrun).1 hrecorded) hrun
  · obtain ⟨-, hstays, hfails⟩ := migrate_all_or_nothing reachable_crowded
    have hnone : ∀ note ∈ crowded.record, note.id ≠ Schema.initial.id :=
      fun note hnote => absurd hnote List.not_mem_nil
    obtain ⟨reason, hclash⟩ := exists_clash_crowded
    have hrun := ((hfails _ hm).2 hnone _).mpr ⟨reason, hclash, rfl⟩
    exact ⟨_, Prod.ext ((hstays _ hrun).2 rfl) hrun⟩

end Database

end TagSync
