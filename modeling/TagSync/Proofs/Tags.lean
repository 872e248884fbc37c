import TagSync.Proofs.Confined
import TagSync.Proofs.Inheritance

/-!
Tags by reference.

A change of one tag leaves every reference to the same row, so a tag is found after it as it was
found before; only its own settings may be others.
-/

namespace TagSync.Tables

variable {c : Clock} {d : TagId} {t t' : Tables} {ref : TagRef} {m m' : Option EventId}
  {row : TagRow} {tag : TagInfo}

/-- The row that a reference means. -/
def row? (t : Tables) : TagRef → Option TagRow
  | .byId id => t.tag? id
  | .byName name => t.tagNamed? name

lemma getTag_eq_some_iff :
    t.getTag ref m = some tag ↔
      ∃ row, t.row? ref = some row ∧ (∀ e, m = some e → row.created ≤ e) ∧ row.info = tag := by
  have hgetTag : t.getTag ref m =
      ((t.row? ref).filter fun r => m.all fun e => r.created ≤ e).map TagRow.info := by
    cases ref <;> rfl
  simp only [hgetTag, Option.map_eq_some_iff, Option.filter_eq_some_iff, Option.all_eq_true,
    decide_eq_true_eq, and_assoc]

lemma getTag_none (t : Tables) (ref : TagRef) :
    t.getTag ref none = (t.row? ref).map TagRow.info := by
  refine Option.ext fun tag => ?_
  simp only [getTag_eq_some_iff, Option.map_eq_some_iff, reduceCtorEq, false_implies,
    implies_true, true_and]

lemma id_of_getTag {id : TagId} (h : t.getTag (.byId id) m = some tag) : tag.id = id := by
  rw [getTag_eq_some_iff] at h
  obtain ⟨row, hrow, -, rfl⟩ := h
  exact id_of_tag? hrow

/-- What was there at an event is there now. -/
lemma getTag_now (h : t.getTag ref m = some tag) : t.getTag ref none = some tag := by
  rw [getTag_eq_some_iff] at h ⊢
  obtain ⟨row, hrow, -, htag⟩ := h
  exact ⟨row, hrow, nofun, htag⟩

lemma mem_tags_of_row? (h : t.row? ref = some row) : row ∈ t.tags := by
  cases ref <;> exact List.mem_of_find?_eq_some h

/-- A tag that was found has a row under its number. Where numbers are not distinct it may be
another one. -/
lemma isSome_tag?_of_found (h : t.getTag ref m = some tag) : (t.tag? tag.id).isSome := by
  rw [getTag_eq_some_iff] at h
  obtain ⟨row, hrow, -, rfl⟩ := h
  rw [tag?, List.find?_isSome]
  exact ⟨row, mem_tags_of_row? hrow, by simp [TagRow.info]⟩

lemma exists_getTag_byId {id : TagId} (h : (t.tag? id).isSome) :
    ∃ tag, t.getTag (.byId id) none = some tag := by
  obtain ⟨row, hrow⟩ := Option.isSome_iff_exists.mp h
  refine ⟨row.info, ?_⟩
  rw [getTag_eq_some_iff]
  exact ⟨row, hrow, nofun, rfl⟩

lemma Sound.tag?_of_getTag (ht : t.Sound) (h : t.getTag ref m = some tag) :
    ∃ row, t.tag? tag.id = some row ∧ row.info = tag := by
  rw [getTag_eq_some_iff] at h
  obtain ⟨row, hrow, -, rfl⟩ := h
  exact ⟨row, ht.tag?_self (mem_tags_of_row? hrow), rfl⟩

lemma Sound.isSome_tag?_of_getTag (ht : t.Sound) (h : t.getTag ref m = some tag) :
    (t.tag? tag.id).isSome := by
  obtain ⟨row, hrow, -⟩ := ht.tag?_of_getTag h
  exact Option.isSome_of_eq_some hrow

/-- A tag that was found is found by its number, too. -/
lemma Sound.getTag_byId (ht : t.Sound) (h : t.getTag ref m = some tag) :
    t.getTag (.byId tag.id) none = some tag := by
  obtain ⟨row, hrow, htag⟩ := ht.tag?_of_getTag h
  rw [getTag_eq_some_iff]
  exact ⟨row, hrow, nofun, htag⟩

/-! ### A new tag -/

/-- The tables with a new tag. -/
def withTag (t : Tables) (c : Clock) (name : String) (config : TagConfig) : Tables :=
  ((t.newEvent c).1.addTag name config (t.newEvent c).2).1

lemma tags_withTag (t : Tables) (c : Clock) (name : String) (config : TagConfig) :
    (t.withTag c name config).tags =
      t.tags ++ [⟨t.tags.length + 1, name, t.events.length + 1, config⟩] := rfl

/-- A new tag is found under its number, which was free. -/
lemma getTag_withTag_new (free : t.tag? (t.tags.length + 1) = none) (c : Clock) (name : String)
    (config : TagConfig) :
    (t.withTag c name config).getTag (.byId (t.tags.length + 1)) none =
      some ⟨t.tags.length + 1, name, config⟩ := by
  rw [tag?] at free
  rw [getTag_none, row?, tag?, tags_withTag, List.find?_append, free]
  simp [TagRow.info]

lemma Sound.getTag_withTag (ht : t.Sound) (c : Clock) (name : String) (config : TagConfig) :
    (t.withTag c name config).getTag (.byId (t.tags.length + 1)) none =
      some ⟨t.tags.length + 1, name, config⟩ :=
  getTag_withTag_new ht.tag?_new c name config

/-- New tags make no difference to references that were good before. -/
lemma row?_of_append {t' : Tables} {new : List TagRow} (htags : t'.tags = t.tags ++ new)
    (h : t.row? ref = some row) : t'.row? ref = some row := by
  cases ref with
  | byId id =>
    rw [row?, tag?] at h ⊢
    rw [htags, List.find?_append, h, Option.some_or]
  | byName name =>
    rw [row?, tagNamed?] at h ⊢
    rw [htags, List.find?_append, h, Option.some_or]

lemma row?_withTag (h : t.row? ref = some row) (c : Clock) (name : String) (config : TagConfig) :
    (t.withTag c name config).row? ref = some row :=
  row?_of_append (tags_withTag ..) h

lemma getTag_withTag_of (found : t.getTag ref m = some tag) (c : Clock) (name : String)
    (config : TagConfig) : (t.withTag c name config).getTag ref m = some tag := by
  rw [getTag_eq_some_iff] at found ⊢
  obtain ⟨row, hrow, hcreated, htag⟩ := found
  exact ⟨row, row?_withTag hrow c name config, hcreated, htag⟩

/-- A new tag is found under its name, too. -/
lemma getTag_withTag_self {name : String} (missing : t.tagNamed? name = none) (c : Clock)
    (config : TagConfig) :
    (t.withTag c name config).getTag (.byName name) none =
      some ⟨t.tags.length + 1, name, config⟩ := by
  rw [tagNamed?] at missing
  rw [getTag_none, row?, tagNamed?, tags_withTag, List.find?_append, missing]
  simp [TagRow.info]

/-! ### After a change of one tag -/

section

variable {f : TagConfig → TagConfig}
  (h : t'.tags = t.tags.map fun r => if r.id = d then { r with config := f r.config } else r)

include h

lemma row?_of_settings (ref : TagRef) :
    t'.row? ref =
      (t.row? ref).map fun r => if r.id = d then { r with config := f r.config } else r := by
  cases ref with
  | byId id =>
    simp only [row?, tag?, h, List.find?_map]
    congr 2
    funext r
    by_cases hr : r.id = d <;> simp [hr]
  | byName name =>
    simp only [row?, tagNamed?, h, List.find?_map]
    congr 2
    funext r
    by_cases hr : r.id = d <;> simp [hr]

/-- A tag is found as before, or later; the changed one with the settings it has now. -/
lemma getTag_of_settings (found : t.getTag ref m = some tag)
    (hm : ∀ i', m' = some i' → ∃ i, m = some i ∧ i ≤ i') :
    t'.getTag ref m' =
      some (if tag.id = d then { tag with config := f tag.config } else tag) := by
  rw [getTag_eq_some_iff] at found ⊢
  obtain ⟨row, hrow, hcreated, rfl⟩ := found
  have hrow' := row?_of_settings h ref
  rw [hrow, Option.map_some] at hrow'
  refine ⟨_, hrow', fun i' hi' => ?_, ?_⟩
  · obtain ⟨i, hi, hle⟩ := hm i' hi'
    refine Int.le_trans ?_ hle
    by_cases hr : row.id = d <;> simpa [hr] using hcreated i hi
  · by_cases hr : row.id = d <;> simp [hr, TagRow.info]

lemma getTag_none_of_settings (found : t.getTag ref none = some tag) :
    t'.getTag ref none =
      some (if tag.id = d then { tag with config := f tag.config } else tag) :=
  getTag_of_settings h found (by simp)

end

end TagSync.Tables
