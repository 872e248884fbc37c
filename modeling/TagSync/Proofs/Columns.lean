import Mathlib.Data.List.Forall2
import Mathlib.Data.String.Basic
import Mathlib.Tactic.Common
import TagSync.Plan.Report

/-!
The lines of a report, and the columns of its tables.

Widths are bytes and cells are filled up by characters. No cell has more characters than bytes, so
a cell never reaches into the next column, whatever characters it is made of. A plan has one line
with a label for every call, and no other line looks like one.
-/

namespace TagSync

/-! ### The texts of a plan -/

/-- The texts that a call carries. -/
def Operation.texts : Operation → List String
  | .addPackage package owner _ extraArches => package :: owner :: extraArches.toList
  | .blockPackage package => [package]
  | .addGroup group | .removeGroup group | .blockGroup group => [group]
  | .addGroupPackage group package | .removeGroupPackage group package
  | .blockGroupPackage group package => [group, package]
  | .tagBuild nvr | .untagBuild nvr => [nvr]

def TagConfig.texts (c : TagConfig) : List String := c.arches.toList ++ c.perm.toList

/-- All texts of a plan. -/
def Plan.texts (p : Plan) : List String :=
  p.operations.flatMap Operation.texts ++ p.config.toList.flatMap TagConfig.texts

/-! ### Trimmed texts -/

namespace Text

lemma mem_of_mem_trimRight {s : List Char} {c : Char} (h : c ∈ trimRight s) : c ∈ s :=
  List.mem_reverse.mp ((List.dropWhile_sublist _).mem (List.mem_reverse.mp h))

/-- Nothing is cut before the last character that is not white space. -/
lemma trimRight_append_cons (s : List Char) {c : Char} (hc : isBlank c = false) (t : List Char) :
    trimRight (s ++ c :: t) = s ++ c :: trimRight t := by
  have hreverse : (s ++ c :: t).reverse = t.reverse ++ c :: s.reverse := by simp
  rw [trimRight, hreverse, List.dropWhile_append]
  split
  · rename_i hblank
    rw [List.isEmpty_iff] at hblank
    simp [trimRight, hblank, hc]
  · simp [trimRight]

lemma length_padRight {width : Nat} {s : List Char} (h : s.length ≤ width) :
    (padRight width s).length = width := by
  rw [padRight, List.length_append, List.length_replicate, Nat.add_sub_cancel' h]

lemma mem_padRight {width : Nat} {s : List Char} {c : Char} (h : c ∈ padRight width s) :
    c ∈ s ∨ c = ' ' :=
  (List.mem_append.mp h).imp_right fun h => (List.mem_replicate.mp h).2

lemma length_toList_le_utf8ByteSize (s : String) : s.toList.length ≤ s.utf8ByteSize := by
  rw [← String.utf8Len_toList]
  induction s.toList with
  | nil => exact Nat.zero_le _
  | cons c s ih =>
    rw [List.length_cons, String.utf8Len_cons]
    exact Nat.add_le_add ih c.utf8Size_pos

end Text

namespace Report

/-! ### Widths of columns -/

/-- The sizes in bytes of the cells of a column. Lines without a cell there are passed over. -/
def cellSizes (grid : List (List String)) (k : Nat) : List Nat :=
  (grid.filterMap (·[k]?)).map String.utf8ByteSize

/-- The size in bytes of the widest cell of a column. -/
def columnWidth (grid : List (List String)) (k : Nat) : Nat := (cellSizes grid k).max?.getD 0

/-- Where a column begins: behind the columns before it, with two spaces after each. -/
def offset (width : Nat → Nat) : Nat → Nat
  | 0 => 0
  | k + 1 => offset width k + (width k + 2)

lemma offset_succ (width : Nat → Nat) (k : Nat) :
    offset width (k + 1) = (width 0 + 2) + offset (fun j => width (j + 1)) k := by
  induction k with
  | zero => exact Nat.add_comm ..
  | succ k ih => rw [offset, ih, offset, Nat.add_assoc]

section

variable {grid : List (List String)} {cells : List String} {cell : String} {k : Nat}

lemma le_columnWidth (hcells : cells ∈ grid) (hcell : cells[k]? = some cell) :
    cell.utf8ByteSize ≤ columnWidth grid k :=
  List.le_max?_getD_of_mem
    (List.mem_map_of_mem (List.mem_filterMap.mpr ⟨cells, hcells, hcell⟩))

/-- The widths of columns with one more line. -/
def widen (ws : List Nat) (cells : List String) : List Nat :=
  (ws.zipWithAll (fun w c => max (w.getD 0) ((c.map String.utf8ByteSize).getD 0)) cells).take
    ws.length

/-- A line without a cell in a column leaves its width as it is, and so does a cell behind the
last column. -/
lemma getElem?_widen (ws : List Nat) (cells : List String) (k : Nat) :
    (widen ws cells)[k]? = ws[k]?.map fun w => (cellSizes [cells] k).foldl max w := by
  rw [widen, List.getElem?_take, List.getElem?_zipWithAll, cellSizes]
  rcases Nat.lt_or_ge k ws.length with hk | hk
  · rw [if_pos hk, List.getElem?_eq_getElem hk]
    rcases hcell : cells[k]? with _ | cell <;> simp [hcell]
  · rw [if_neg (Nat.not_lt.mpr hk), List.getElem?_eq_none hk]
    rfl

lemma getElem?_foldl_widen (ws : List Nat) (rows : List (List String)) (k : Nat) :
    (rows.foldl widen ws)[k]? = ws[k]?.map fun w => (cellSizes rows k).foldl max w := by
  induction rows generalizing ws with
  | nil => simp [cellSizes]
  | cons cells rows ih =>
    have hsizes : cellSizes (cells :: rows) k = cellSizes [cells] k ++ cellSizes rows k := by
      rw [cellSizes, cellSizes, cellSizes, ← List.map_append, ← List.filterMap_append]
      rfl
    rw [List.foldl_cons, ih, getElem?_widen, Option.map_map, hsizes]
    simp only [List.foldl_append, Function.comp_def]

/-- **A column is as wide as its widest cell**, for as many columns as the header has. -/
theorem widths_eq (header : List String) (rows : List (List String)) :
    widths header rows = (List.range header.length).map (columnWidth (header :: rows)) := by
  refine List.ext_getElem? fun k => ?_
  change (rows.foldl widen (header.map String.utf8ByteSize))[k]? = _
  rw [getElem?_foldl_widen, List.getElem?_map, List.getElem?_map]
  rcases Nat.lt_or_ge k header.length with hk | hk
  · have hsizes : cellSizes (header :: rows) k =
        header[k].utf8ByteSize :: cellSizes rows k := by
      simp [cellSizes, List.getElem?_eq_getElem hk]
    rw [List.getElem?_range hk, List.getElem?_eq_getElem hk]
    simp only [Option.map_some, columnWidth, hsizes, List.max?_cons', Option.getD_some]
  · rw [List.getElem?_eq_none hk, List.getElem?_eq_none (by rwa [List.length_range])]
    rfl

/-! ### Cells in a line -/

variable {ws : List Nat} {c : Char}

lemma aligned_cons (w : Nat) (ws : List Nat) (cell : String) (cells : List String) :
    ∃ more, aligned (w :: ws) (cell :: cells) = Text.padRight w cell.toList ++ more := by
  cases cells with
  | nil => exact ⟨[], rfl⟩
  | cons cell' cells =>
    cases ws with
    | nil => exact ⟨[], rfl⟩
    | cons w' ws => exact ⟨_, rfl⟩

lemma aligned_cons_cons (w w' : Nat) (ws : List Nat) (cell cell' : String)
    (cells : List String) :
    aligned (w :: w' :: ws) (cell :: cell' :: cells) =
      Text.padRight w cell.toList ++ [' ', ' '] ++ aligned (w' :: ws) (cell' :: cells) :=
  List.intercalate_cons_cons

lemma mem_aligned (h : c ∈ aligned ws cells) : c = ' ' ∨ ∃ cell ∈ cells, c ∈ cell.toList := by
  induction cells generalizing ws with
  | nil => exact absurd h List.not_mem_nil
  | cons cell cells ih =>
    have hpadded : ∀ {w : Nat}, c ∈ Text.padRight w cell.toList →
        c = ' ' ∨ ∃ a ∈ cell :: cells, c ∈ a.toList := fun h =>
      (Text.mem_padRight h).symm.imp_right fun h => ⟨cell, List.mem_cons_self, h⟩
    match ws, cells with
    | [], _ => exact absurd h List.not_mem_nil
    | [w], _ => exact hpadded (by simpa [aligned] using h)
    | w :: w' :: ws, [] => exact hpadded (by simpa [aligned] using h)
    | w :: w' :: ws, cell' :: cells =>
      rw [aligned_cons_cons, List.mem_append, List.mem_append] at h
      rcases h with (h | h) | h
      · exact hpadded h
      · exact .inl (by simpa using h)
      · exact (ih h).imp_right fun ⟨a, ha, hc⟩ => ⟨a, List.mem_cons_of_mem _ ha, hc⟩

/-- **A cell stands at the place that the widths before it add up to**, if all cells before it
fit. -/
theorem aligned_eq_append {width : Nat → Nat} (hws : ∀ j ≤ k, ws[j]? = some (width j))
    (hcell : cells[k]? = some cell)
    (hfits : ∀ j < k, ∀ a : String, cells[j]? = some a → a.toList.length ≤ width j) :
    ∃ before after, aligned ws cells = before ++ cell.toList ++ after ∧
      before.length = offset width k := by
  induction k generalizing ws cells width with
  | zero =>
    match ws, cells, hws 0 (Nat.le_refl 0), hcell with
    | w :: ws, first :: cells, _, hcell =>
      cases hcell
      obtain ⟨more, hmore⟩ := aligned_cons w ws cell cells
      refine ⟨[], List.replicate (w - cell.toList.length) ' ' ++ more, ?_, rfl⟩
      rw [hmore, Text.padRight, List.nil_append, List.append_assoc]
  | succ k ih =>
    -- without the first column, all others move to the left by its width and two spaces
    match ws, cells, hws 0 (Nat.zero_le _), hws 1 (Nat.le_add_left 1 k), hcell with
    | w :: w' :: ws, first :: second :: cells, hw, _, hcell =>
      obtain ⟨before, after, heq, hlength⟩ := ih (fun j hj => hws (j + 1) (Nat.succ_le_succ hj))
        hcell fun j hj a ha => hfits (j + 1) (Nat.succ_lt_succ hj) a ha
      have hfirst : first.toList.length ≤ w :=
        Option.some.inj hw ▸ hfits 0 (Nat.zero_lt_succ k) first rfl
      refine ⟨Text.padRight w first.toList ++ [' ', ' '] ++ before, after, ?_, ?_⟩
      · rw [aligned_cons_cons, heq]
        simp only [List.append_assoc]
      · rw [offset_succ, ← hlength, List.length_append, List.length_append,
          Text.length_padRight hfirst, Option.some.inj hw]
        rfl

end

/-! ### Sheets -/

/-- A section of a report: a grid of cells under a title. -/
structure Sheet where
  title : String
  header : List String
  rows : List (List String)

namespace Sheet

def ofClass (p : Plan) (c : EntityClass) : Sheet :=
  ⟨Report.title c, Report.header c, (p.ofClass c).map row⟩

def ofConfig (c : TagConfig) : Sheet := ⟨"Config changes", ["field", "value"], configRows c⟩

def grid (s : Sheet) : List (List String) := s.header :: s.rows

/-- A line of a table before the white space at its end is cut. -/
def text (s : Sheet) (cells : List String) : List Char := aligned (widths s.header s.rows) cells

/-- What stands under the title. -/
def body (s : Sheet) : List (List Char) :=
  if s.rows.isEmpty then ["(no changes)".toList]
  else s.grid.map fun cells => Text.trimRight (s.text cells)

def lines (s : Sheet) : List (List Char) :=
  ("### " ++ s.title).toList :: [] :: (s.body ++ [[]])

end Sheet

end Report

open Report

/-- The sections of a report: one for every class, and one for the settings if they are copied. -/
def Plan.sheets (p : Plan) : List Sheet :=
  EntityClass.all.map (Sheet.ofClass p) ++ p.config.toList.map Sheet.ofConfig

namespace Report

/-- **A cell begins where its column does.** -/
theorem Sheet.text_eq_append {s : Sheet} {cells : List String} (hcells : cells ∈ s.grid) {k : Nat}
    {cell : String} (hcell : cells[k]? = some cell) (hk : k < s.header.length) :
    ∃ before after, s.text cells = before ++ cell.toList ++ after ∧
      before.length = offset (columnWidth s.grid) k := by
  refine aligned_eq_append (fun j hj => ?_) hcell fun j _ a ha =>
    (Text.length_toList_le_utf8ByteSize a).trans (le_columnWidth hcells ha)
  rw [widths_eq, List.getElem?_map, List.getElem?_range (hj.trans_lt hk)]
  rfl

/-! ### Lines -/

/-- Lines, each with a line break behind it. -/
def unlines (lines : List (List Char)) : List Char := lines.flatMap (· ++ ['\n'])

lemma unlines_append (l l' : List (List Char)) : unlines (l ++ l') = unlines l ++ unlines l' :=
  List.flatMap_append

/-- Line breaks stand between the lines and one more line, which is empty. -/
lemma unlines_eq_intercalate (lines : List (List Char)) :
    unlines lines = List.intercalate ['\n'] (lines ++ [[]]) := by
  induction lines with
  | nil => rfl
  | cons l lines ih =>
    obtain ⟨next, more, hnext⟩ := List.exists_cons_of_ne_nil
      (List.append_ne_nil_of_right_ne_nil lines (List.cons_ne_nil [] []))
    rw [List.cons_append, hnext, List.intercalate_cons_cons, ← hnext, ← ih, unlines,
      List.flatMap_cons]
    rfl

/-- Lines without line breaks are found again, and an empty one after the last line break. -/
lemma splitOn_unlines {lines : List (List Char)} (h : ∀ l ∈ lines, '\n' ∉ l) :
    (unlines lines).splitOn '\n' = lines ++ [[]] := by
  rw [unlines_eq_intercalate]
  refine List.splitOn_intercalate '\n' (fun l hl => ?_) (by simp)
  rcases List.mem_append.mp hl with hl | hl
  · exact h l hl
  · rw [List.mem_singleton.mp hl]
    exact List.not_mem_nil

lemma toList_table (header : List String) (rows : List (List String)) :
    (table header rows).toList =
      unlines ((header :: rows).map fun cells =>
        Text.trimRight (aligned (widths header rows) cells)) := by
  simp only [table, String.toList_join, unlines, List.flatMap_map, line, String.toList_append,
    String.toList_ofList]
  rfl

lemma Sheet.toList_section (s : Sheet) :
    (heading s.title ++ (if s.rows.isEmpty then "(no changes)\n\n"
      else table s.header s.rows ++ "\n")).toList = unlines s.lines := by
  have hlines : unlines s.lines =
      ("### " ++ s.title).toList ++ ['\n', '\n'] ++ (unlines s.body ++ ['\n']) := by
    rw [lines, unlines, List.flatMap_cons, List.flatMap_cons, List.flatMap_append]
    simp [unlines]
  rw [hlines, heading, Sheet.body]
  split
  · simp [unlines]
  · simp only [String.toList_append, toList_table]
    rfl

/-- The lines of a report are those of its sections. -/
theorem toList_report (p : Plan) :
    p.report.toList = unlines (p.sheets.flatMap Sheet.lines) := by
  have hclass : ∀ c, (classSection p c).toList = unlines (Sheet.ofClass p c).lines := fun c => by
    rw [← Sheet.toList_section, classSection]
    simp [Sheet.ofClass]
  have hconfig : ∀ c, (heading "Config changes" ++ table ["field", "value"] (configRows c) ++
      "\n").toList = unlines (Sheet.ofConfig c).lines := fun c => by
    rw [← Sheet.toList_section, String.append_assoc]
    rfl
  rw [Plan.report, Plan.sheets, String.toList_append, List.flatMap_append, unlines_append,
    String.toList_join]
  congr 1
  · simp only [List.flatMap_map, unlines, List.flatMap_assoc]
    exact List.flatMap_congr fun c _ => hclass c
  · rcases p.config with _ | c
    · rfl
    · simpa using hconfig c

/-! ### No line break inside a line -/

/-- A text that stays on one line. -/
def Unbroken (s : String) : Prop := '\n' ∉ s.toList

instance (s : String) : Decidable (Unbroken s) := inferInstanceAs (Decidable (_ ∉ _))

lemma unbroken_label (o : Operation) : Unbroken (label o) := by
  rw [label]
  cases o.action <;> decide

lemma unbroken_yesNo (b : Bool) : Unbroken (yesNo b) := by cases b <;> decide

lemma unbroken_orDash {s : Option String} (h : ∀ a ∈ s.toList, Unbroken a) :
    Unbroken (orDash s) := by
  cases s with
  | none => decide
  | some a => exact h a List.mem_cons_self

lemma unbroken_row {o : Operation} (h : ∀ s ∈ o.texts, Unbroken s) :
    ∀ cell ∈ row o, Unbroken cell := by
  have hdash : Unbroken "-" := by decide
  cases o <;>
    simp_all [row, Operation.texts, unbroken_label, unbroken_yesNo, unbroken_orDash]

lemma unbroken_configRows {c : TagConfig} (h : ∀ s ∈ c.texts, Unbroken s) :
    ∀ cells ∈ configRows c, ∀ cell ∈ cells, Unbroken cell := by
  have hwords : ∀ s ∈ ["arches", "locked", "perm", "maven_support", "maven_include_all"],
      Unbroken s := by decide
  have harches := unbroken_orDash fun s hs => h s (List.mem_append_left _ hs)
  have hperm := unbroken_orDash fun s hs => h s (List.mem_append_right _ hs)
  simp_all [configRows, unbroken_yesNo]

lemma unbroken_title (c : EntityClass) : Unbroken (title c) := by cases c <;> decide

lemma unbroken_header (c : EntityClass) : ∀ cell ∈ header c, Unbroken cell := by
  cases c <;> decide

/-- No cell of a section breaks a line. -/
structure Sheet.Unbroken (s : Sheet) : Prop where
  title : Report.Unbroken s.title
  cells : ∀ cells ∈ s.grid, ∀ cell ∈ cells, Report.Unbroken cell

lemma Sheet.Unbroken.not_mem {s : Sheet} (h : s.Unbroken) : ∀ l ∈ s.lines, '\n' ∉ l := by
  have hbody : ∀ l ∈ s.body, '\n' ∉ l := by
    intro l hl hbreak
    rw [body] at hl
    split at hl
    · rw [List.mem_singleton.mp hl] at hbreak
      exact absurd hbreak (by decide)
    · obtain ⟨cells, hcells, rfl⟩ := List.mem_map.mp hl
      rcases mem_aligned (Text.mem_of_mem_trimRight hbreak) with hspace | ⟨cell, hcell, hbreak⟩
      · exact absurd hspace (by decide)
      · exact h.cells cells hcells cell hcell hbreak
  intro l hl
  simp only [lines, List.mem_cons, List.mem_append, List.not_mem_nil, or_false] at hl
  rcases hl with rfl | rfl | hl | rfl
  · have := h.title
    rw [Report.Unbroken] at this
    simp [this]
  · exact List.not_mem_nil
  · exact hbody l hl
  · exact List.not_mem_nil

lemma unbroken_of_mem_sheets {p : Plan} (h : ∀ s ∈ p.texts, Unbroken s) :
    ∀ s ∈ p.sheets, s.Unbroken := by
  intro s hs
  rcases List.mem_append.mp hs with hs | hs
  · obtain ⟨c, -, rfl⟩ := List.mem_map.mp hs
    refine ⟨unbroken_title c, fun cells hcells => ?_⟩
    rcases List.mem_cons.mp hcells with rfl | hcells
    · exact unbroken_header c
    · obtain ⟨o, ho, rfl⟩ := List.mem_map.mp hcells
      have hmem : o ∈ p.operations := by
        cases c <;> simp_all [Plan.operations, Plan.ofClass]
      exact unbroken_row fun s hs =>
        h s (List.mem_append_left _ (List.mem_flatMap.mpr ⟨o, hmem, hs⟩))
  · obtain ⟨c, hc, rfl⟩ := List.mem_map.mp hs
    refine ⟨show Unbroken "Config changes" by decide, fun cells hcells => ?_⟩
    rcases List.mem_cons.mp hcells with rfl | hcells
    · exact show ∀ cell ∈ ["field", "value"], Unbroken cell by decide
    · exact unbroken_configRows (fun s hs =>
        h s (List.mem_append_right _ (List.mem_flatMap.mpr ⟨c, hc, hs⟩))) cells hcells

/-! ### Lines with labels -/

/-- A line begins with the label of a call's change, in brackets. -/
def Labelled (line : List Char) (o : Operation) : Prop :=
  ∃ label more, line = '[' :: label ++ ']' :: more ∧ ']' ∉ label ∧
    Action.ofLabel? (String.ofList label) = some o.action

def isBracketed (line : List Char) : Bool := line.head? = some '['

namespace Sheet

variable {s : Sheet} {cell : String}

lemma text_cons (hs : 0 < s.header.length) (cell : String) (cells : List String) :
    ∃ more, s.text (cell :: cells) = cell.toList ++ more := by
  obtain ⟨w, ws, hws⟩ := List.exists_cons_of_length_pos (l := widths s.header s.rows)
    (by rwa [widths_eq, List.length_map, List.length_range])
  obtain ⟨more, hmore⟩ := aligned_cons w ws cell cells
  exact ⟨_, by rw [text, hws, hmore, Text.padRight, List.append_assoc]⟩

lemma labelled_line (hs : 0 < s.header.length) (o : Operation) :
    Labelled (Text.trimRight (s.text (row o))) o := by
  obtain ⟨cells, hrow⟩ : ∃ cells, row o = label o :: cells := by cases o <;> exact ⟨_, rfl⟩
  obtain ⟨more, hmore⟩ := text_cons hs (label o) cells
  have hlabel : (label o).toList = '[' :: o.action.label.toList ++ [']'] := by
    simp [label]
  have htrim := Text.trimRight_append_cons ('[' :: o.action.label.toList)
    (show Text.isBlank ']' = false by decide) more
  refine ⟨o.action.label.toList, Text.trimRight more, ?_, ?_, ?_⟩
  · rw [hrow, hmore, hlabel, ← htrim]
    simp
  · cases o.action <;> decide
  · rw [String.ofList_toList]
    cases o.action <;> rfl

end Sheet

lemma isBracketed_of_labelled {line : List Char} {o : Operation} (h : Labelled line o) :
    isBracketed line = true := by
  obtain ⟨label, more, rfl, -⟩ := h
  rfl

/-! ### Lines without labels -/

/-- Whether a line begins with a character that is neither white space nor a bracket. -/
def isWorded (cells : List String) : Bool :=
  (cells.head?.bind (·.toList.head?)).any fun c => !Text.isBlank c && c != '['

lemma isWorded_header (c : EntityClass) : isWorded (header c) = true := by cases c <;> rfl

lemma isWorded_configRows (c : TagConfig) : ∀ cells ∈ configRows c, isWorded cells = true := by
  simp only [configRows, List.forall_mem_cons]
  exact ⟨rfl, rfl, rfl, rfl, rfl, List.forall_mem_nil _⟩

namespace Sheet

variable {s : Sheet} {cells : List String}

lemma isBracketed_line (hs : 0 < s.header.length) (h : isWorded cells = true) :
    isBracketed (Text.trimRight (s.text cells)) = false := by
  obtain ⟨cell, cells, rfl⟩ := List.exists_cons_of_ne_nil (l := cells) (by rintro rfl; cases h)
  rcases hcell : cell.toList with _ | ⟨c, rest⟩
  · simp [isWorded, hcell] at h
  · simp only [isWorded, List.head?_cons, Option.bind_some, hcell, Option.any_some,
      Bool.and_eq_true, Bool.not_eq_true', bne_iff_ne] at h
    obtain ⟨more, hmore⟩ := text_cons hs cell cells
    have htrim := Text.trimRight_append_cons [] h.1 (rest ++ more)
    rw [List.nil_append, List.nil_append] at htrim
    rw [hmore, hcell, List.cons_append, htrim, isBracketed]
    simp [h.2]

/-- Neither a title nor the header of a table is bracketed. -/
lemma filter_lines (hs : 0 < s.header.length) (h : isWorded s.header = true) :
    s.lines.filter isBracketed =
      (s.rows.map fun cells => Text.trimRight (s.text cells)).filter isBracketed := by
  have htitle : isBracketed ("### " ++ s.title).toList = false := by
    simp [isBracketed]
  rw [lines, List.filter_cons_of_neg (by rw [htitle]; decide),
    List.filter_cons_of_neg (by decide), List.filter_append, body]
  split
  · rename_i hrows
    rw [List.isEmpty_iff.mp hrows]
    rfl
  · rw [grid, List.map_cons,
      List.filter_cons_of_neg (by rw [isBracketed_line hs h]; decide)]
    exact List.append_nil _

lemma forall₂_labelled_ofClass (p : Plan) (c : EntityClass) :
    List.Forall₂ Labelled ((ofClass p c).lines.filter isBracketed) (p.ofClass c) := by
  have hs : 0 < (ofClass p c).header.length := by cases c <;> exact Nat.succ_pos _
  have hall : ∀ line ∈ (p.ofClass c).map fun o => Text.trimRight ((ofClass p c).text (row o)),
      isBracketed line = true := by
    intro line hline
    obtain ⟨o, -, rfl⟩ := List.mem_map.mp hline
    exact isBracketed_of_labelled (labelled_line hs o)
  rw [filter_lines hs (isWorded_header c), show (ofClass p c).rows = (p.ofClass c).map row from rfl,
    List.map_map, Function.comp_def, List.filter_eq_self.mpr hall, List.forall₂_map_left_iff,
    List.forall₂_same]
  exact fun o _ => labelled_line hs o

lemma filter_lines_ofConfig (c : TagConfig) : (ofConfig c).lines.filter isBracketed = [] := by
  have hs : 0 < (ofConfig c).header.length := Nat.succ_pos _
  rw [filter_lines hs rfl, List.filter_eq_nil_iff]
  intro line hline
  obtain ⟨cells, hcells, rfl⟩ := List.mem_map.mp hline
  rw [isBracketed_line hs (isWorded_configRows c cells hcells)]
  exact Bool.false_ne_true

end Sheet

end Report

/-- **A report is laid out in columns and names every call.** If no text of a plan breaks a line,
the report has the lines of its sections; those that begin with a bracket are one for every call, in
the order of the calls, and what stands in the brackets is a label of the call's change. In
every line of a table, its header included, the cell of a column begins behind the widest cells of
the columns before it, measured in bytes, and two spaces for each; only then is white space at the
end of the line cut. -/
theorem Plan.report_columns (p : Plan) (h : ∀ s ∈ p.texts, '\n' ∉ s.toList) :
    p.report.toList.splitOn '\n' = p.sheets.flatMap Sheet.lines ++ [[]] ∧
    List.Forall₂ Labelled ((p.report.toList.splitOn '\n').filter isBracketed) p.operations ∧
    ∀ s ∈ p.sheets, ∀ cells ∈ s.grid, ∀ k cell, cells[k]? = some cell → k < s.header.length →
      ∃ before after, s.text cells = before ++ cell.toList ++ after ∧
        before.length = offset (columnWidth s.grid) k := by
  have hlines : p.report.toList.splitOn '\n' = p.sheets.flatMap Sheet.lines ++ [[]] := by
    rw [toList_report, splitOn_unlines]
    intro l hl
    obtain ⟨s, hs, hl⟩ := List.mem_flatMap.mp hl
    exact (unbroken_of_mem_sheets h s hs).not_mem l hl
  refine ⟨hlines, ?_, fun s _ cells hcells k cell hcell hk => s.text_eq_append hcells hcell hk⟩
  have hconfig : ((p.config.toList.map Sheet.ofConfig).flatMap Sheet.lines).filter isBracketed =
      [] := by
    rcases p.config with _ | c
    · rfl
    · simpa using Sheet.filter_lines_ofConfig c
  -- the calls of a section are its bracketed lines, section by section
  have hclasses : ∀ classes : List EntityClass,
      List.Forall₂ Labelled (((classes.map (Sheet.ofClass p)).flatMap Sheet.lines).filter
        isBracketed) (classes.flatMap p.ofClass) := by
    intro classes
    induction classes with
    | nil => exact .nil
    | cons c classes ih =>
      rw [List.map_cons, List.flatMap_cons, List.filter_append, List.flatMap_cons]
      exact List.rel_append (Sheet.forall₂_labelled_ofClass p c) ih
  have hoperations : p.operations = EntityClass.all.flatMap p.ofClass := by
    simp [Plan.operations, EntityClass.all, Plan.ofClass]
  rw [hlines, Plan.sheets, List.flatMap_append, List.filter_append, List.filter_append, hconfig,
    hoperations, List.append_nil]
  exact (List.append_nil _).symm ▸ hclasses EntityClass.all

/-- Calls whose texts have brackets, blanks and characters of several bytes in them; one call is
listed under a class that is not its own. -/
def Plan.crowded : Plan :=
  { packages := [.addPackage "bäsh [x]" "o o" true (some "[é]"), .untagBuild "[del]-1-1",
      .blockPackage " zsh "]
    builds := [.tagBuild "日本-1-1"]
    groups := [.addGroup "g", .removeGroupPackage "g" "]"]
    config := some { locked := true, perm := some "[p] " } }

/-- The owner of a package stands behind six bytes for the actions, nine for the packages and four
spaces. -/
theorem Plan.report_columns_crowded :
    (∀ s ∈ crowded.texts, '\n' ∉ s.toList) ∧
    List.Forall₂ Labelled ((crowded.report.toList.splitOn '\n').filter isBracketed)
      crowded.operations ∧
    ∃ before after, (Sheet.ofClass crowded .packages).text
        ["[new]", "bäsh [x]", "o o", "yes", "[é]"] = before ++ "o o".toList ++ after ∧
      before.length = 19 := by
  have h : ∀ s ∈ crowded.texts, '\n' ∉ s.toList := by decide
  obtain ⟨-, hlabels, hcolumns⟩ := report_columns crowded h
  have hsheet : Sheet.ofClass crowded .packages ∈ crowded.sheets := List.mem_cons_self
  have hcell := hcolumns _ hsheet ["[new]", "bäsh [x]", "o o", "yes", "[é]"]
    (by decide) 2 "o o" rfl (by decide)
  exact ⟨h, hlabels, hcell⟩

end TagSync
