import Mathlib.Data.List.TakeWhile
import Mathlib.Tactic.Common
import TagSync.Nvr

/-!
Names of builds as texts.

A text is a name exactly when it is made of three parts that are not empty, the last two of them
without a dash. No other parts make up the same text, so a name and its text stand for each other.
-/

namespace TagSync.Nvr

/-! ### Cutting at the last dash -/

section

variable {s before after : List Char}

lemma eq_of_splitLastDash (h : splitLastDash s = some (before, after)) :
    s = before ++ '-' :: after := by
  unfold splitLastDash at h
  dsimp only at h
  have hparts := List.takeWhile_append_dropWhile (p := (· != '-')) (l := s.reverse)
  split at h
  · cases h
  · rename_i c rest hdrop
    have hdash : c = '-' := by
      have := List.head?_dropWhile_not (· != '-') s.reverse
      rw [hdrop] at this
      simpa using this
    cases h
    rw [hdrop, hdash] at hparts
    have hs := congrArg List.reverse hparts
    rw [List.reverse_append, List.reverse_cons, List.reverse_reverse] at hs
    simpa using hs.symm

lemma not_mem_of_splitLastDash (h : splitLastDash s = some (before, after)) : '-' ∉ after := by
  unfold splitLastDash at h
  dsimp only at h
  split at h
  · cases h
  · cases h
    intro hdash
    simpa using List.mem_takeWhile_imp (List.mem_reverse.mp hdash)

lemma splitLastDash_append (before : List Char) (h : '-' ∉ after) :
    splitLastDash (before ++ '-' :: after) = some (before, after) := by
  have hreverse : (before ++ '-' :: after).reverse = after.reverse ++ '-' :: before.reverse := by
    simp
  have hpass : ∀ c ∈ after.reverse, (c != '-') = true := fun c hc => by
    rw [bne_iff_ne]
    rintro rfl
    exact h (List.mem_reverse.mp hc)
  unfold splitLastDash
  rw [hreverse, List.takeWhile_append_of_pos hpass, List.dropWhile_append_of_pos hpass]
  simp

/-- **The cut is at the last dash.** -/
theorem splitLastDash_eq_some_iff :
    splitLastDash s = some (before, after) ↔ s = before ++ '-' :: after ∧ '-' ∉ after := by
  constructor
  · exact fun h => ⟨eq_of_splitLastDash h, not_mem_of_splitLastDash h⟩
  · rintro ⟨rfl, h⟩
    exact splitLastDash_append before h

end

/-! ### Names that a text can carry -/

/-- The text of a name shows where its parts begin and end. -/
structure Legible (n : Nvr) : Prop where
  name : n.name ≠ ""
  version : n.version ≠ ""
  release : n.release ≠ ""
  versionDash : '-' ∉ n.version.toList
  releaseDash : '-' ∉ n.release.toList

variable {text : String} {n m : Nvr}

lemma toList_display (n : Nvr) :
    n.display.toList = (n.name.toList ++ '-' :: n.version.toList) ++ '-' :: n.release.toList := by
  simp [display]

/-- **The texts of names** are those that can be read. -/
theorem parse?_eq_some_iff : parse? text = some n ↔ n.Legible ∧ n.display = text := by
  simp only [parse?, Option.bind_eq_bind, Option.bind_eq_some_iff, Prod.exists,
    splitLastDash_eq_some_iff]
  constructor
  · rintro ⟨rest, release, ⟨htext, hrelease⟩, name, version, ⟨rfl, hversion⟩, h⟩
    split at h
    · cases h
    · rename_i hparts
      cases h
      simp only [Bool.or_eq_true, List.isEmpty_iff, not_or] at hparts
      have hdisplay : (⟨.ofList name, .ofList version, .ofList release⟩ : Nvr).display = text := by
        rw [← String.toList_inj, toList_display, htext]
        simp
      exact ⟨⟨by simpa using hparts.1.1, by simpa using hparts.1.2, by simpa using hparts.2,
        by simpa using hversion, by simpa using hrelease⟩, hdisplay⟩
  · rintro ⟨h, rfl⟩
    have hparts : (n.name.toList.isEmpty || n.version.toList.isEmpty ||
        n.release.toList.isEmpty) = false := by
      simp [h.name, h.version, h.release]
    refine ⟨_, _, ⟨toList_display n, h.releaseDash⟩, _, _, ⟨rfl, h.versionDash⟩, ?_⟩
    simp [hparts]

/-- A name that can be read is the text that its parts make up. -/
theorem display_of_parse? (h : parse? text = some n) : n.display = text :=
  (parse?_eq_some_iff.mp h).2

theorem parse?_display (h : n.Legible) : parse? n.display = some n :=
  parse?_eq_some_iff.mpr ⟨h, rfl⟩

lemma parse_eq_ok : parse text = .ok n ↔ parse? text = some n := by
  unfold parse
  rcases parse? text with _ | n' <;> simp

/-- **A name and its text stand for each other.** A text can be read as a name if and only if it
is made of three parts that are not empty, joined by dashes, the last two of them without a dash;
what is read are these parts, and their text is the one that was read. Any other text is refused.
The text of a name with such parts gives the name back, so no two of them have one text. -/
theorem parse_iff_display :
    (∀ text n, parse text = .ok n ↔
      n.Legible ∧ text = n.name ++ "-" ++ n.version ++ "-" ++ n.release) ∧
    (∀ text, (∀ n, parse text ≠ .ok n) → parse text = .error
      { kind := .invalidInput, op := some "parse_nvr"
        message := "invalid NVR '" ++ text ++ "'" }) ∧
    (∀ text n, parse text = .ok n → n.display = text) ∧
    (∀ n, n.Legible → parse n.display = .ok n) ∧
    ∀ n m : Nvr, n.Legible → m.Legible → n.display = m.display → n = m := by
  refine ⟨fun text n => ?_, fun text hnone => ?_, fun text n h => ?_, fun n h => ?_,
    fun n m hn hm hsame => ?_⟩
  · rw [parse_eq_ok, parse?_eq_some_iff, eq_comm (a := text)]
    rfl
  · rcases hread : parse? text with _ | n
    · simp only [parse, hread]
    · exact absurd (parse_eq_ok.mpr hread) (hnone n)
  · exact display_of_parse? (parse_eq_ok.mp h)
  · exact parse_eq_ok.mpr (parse?_display h)
  · have hread := parse?_display hn
    rw [hsame, parse?_display hm] at hread
    exact (Option.some.inj hread).symm

end TagSync.Nvr
