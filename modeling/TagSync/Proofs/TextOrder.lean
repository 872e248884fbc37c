import Mathlib.Data.List.Lex
import Mathlib.Tactic.Common

/-!
The order of texts, which goes by code points, is the order of their UTF-8 bytes.
-/

namespace TagSync.Text

/-! ### The bytes of a text -/

lemma toList_loop_eq (bs : ByteArray) (i : Nat) (r : List UInt8) :
    ByteArray.toList.loop bs i r = r.reverse ++ bs.data.toList.drop i := by
  fun_induction ByteArray.toList.loop bs i r with
  | case1 i r hi ih =>
    have hlen : i < bs.data.toList.length := by simpa using hi
    have hget : bs.get! i = bs.data.toList[i] := by
      rw [Array.getElem_toList]
      exact getElem!_pos bs.data i hi
    rw [ih, hget, List.drop_eq_getElem_cons hlen]
    simp
  | case2 i r hi =>
    have hlen : bs.data.toList.length ≤ i := by simpa using hi
    rw [List.drop_eq_nil_of_le hlen, List.append_nil]

lemma toUTF8_toList (s : String) : s.toUTF8.toList = s.toList.flatMap String.utf8EncodeChar := by
  have hbytes : s.toUTF8 = s.toList.utf8Encode := by simp
  rw [ByteArray.toList, toList_loop_eq, hbytes, List.utf8Encode,
    List.toList_data_toByteArray]
  rfl

/-! ### The bytes of a character -/

lemma ofNat_lt_ofNat {m n : Nat} (hm : m < 256) (hn : n < 256) :
    UInt8.ofNat m < UInt8.ofNat n ↔ m < n := by
  rw [UInt8.lt_iff_toNat_lt, UInt8.toNat_ofNat_of_lt' hm, UInt8.toNat_ofNat_of_lt' hn]

lemma ofNat_eq_ofNat {m n : Nat} (hm : m < 256) (hn : n < 256) :
    UInt8.ofNat m = UInt8.ofNat n ↔ m = n := by
  rw [← UInt8.toNat_inj, UInt8.toNat_ofNat_of_lt' hm, UInt8.toNat_ofNat_of_lt' hn]

lemma toNat_val_le (c : Char) : c.val.toNat ≤ 0x10ffff := by
  rcases c.valid with h | ⟨-, h⟩
  · exact (Nat.le_of_lt h).trans (by decide)
  · exact Nat.le_of_lt_succ h

/-- What a byte takes of a code point, in steps of six bits. -/
lemma div_steps (n : Nat) : n / 4096 = n / 64 / 64 ∧ n / 262144 = n / 64 / 64 / 64 := by
  omega

/-- The bytes of a lower character are below those of a higher one, whatever follows. -/
lemma encode_lt {c d : Char} (h : c < d) (s t : List UInt8) :
    String.utf8EncodeChar c ++ s < String.utf8EncodeChar d ++ t := by
  have hcd : c.val.toNat < d.val.toNat := h
  have hd := toNat_val_le d
  unfold String.utf8EncodeChar
  generalize c.val.toNat = m at hcd
  generalize d.val.toNat = n at hcd hd
  simp only [div_steps]
  -- one case for each two lengths; more bytes mean a higher first byte
  split_ifs <;> first | (exfalso; omega) | skip
  all_goals
    simp (disch := omega) only [List.cons_append, List.nil_append, List.cons_lt_cons_iff,
      ofNat_lt_ofNat, ofNat_eq_ofNat]
    omega

/-! ### Texts -/

lemma flatMap_encode_lt {s t : List Char} (h : s < t) :
    s.flatMap String.utf8EncodeChar < t.flatMap String.utf8EncodeChar := by
  induction s generalizing t with
  | nil =>
    rcases t with _ | ⟨d, t⟩
    · cases h
    · obtain ⟨b, bs, hb⟩ := List.exists_cons_of_ne_nil (String.utf8EncodeChar_ne_nil (c := d))
      rw [List.flatMap_cons, hb]
      exact List.nil_lt_cons ..
  | cons c s ih =>
    rcases t with _ | ⟨d, t⟩
    · cases h
    rw [List.flatMap_cons, List.flatMap_cons]
    rcases List.cons_lt_cons_iff.mp h with hcd | ⟨rfl, hst⟩
    · exact encode_lt hcd _ _
    · exact List.append_left_lt (ih hst)

/-- **Texts are in the order of their bytes.** -/
theorem lt_iff_bytes {a b : String} : a < b ↔ a.toUTF8.toList < b.toUTF8.toList := by
  rw [toUTF8_toList, toUTF8_toList]
  refine ⟨fun h => flatMap_encode_lt h, fun h => ?_⟩
  rcases Std.lt_trichotomy a b with hab | rfl | hba
  · exact hab
  · exact absurd h (List.lt_irrefl _)
  · exact absurd (flatMap_encode_lt hba) (List.lt_asymm h)

end TagSync.Text
