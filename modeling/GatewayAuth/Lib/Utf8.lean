import Mathlib.Data.List.Basic
import Mathlib.Tactic.SplitIfs

/-!
The UTF-8 bytes of a string: one byte for each ASCII character, and a byte with the high bit
set for any other.
-/

namespace GatewayAuth.Lib.Utf8

lemma toList_loop (bs : ByteArray) (i : ℕ) (acc : List UInt8) :
    ByteArray.toList.loop bs i acc = acc.reverse ++ bs.data.toList.drop i := by
  have hsize : bs.data.toList.length = bs.size := rfl
  induction hleft : bs.size - i generalizing i acc with
  | zero =>
    rw [ByteArray.toList.loop, if_neg (by omega), List.drop_eq_nil_of_le (by omega),
      List.append_nil]
  | succ left ih =>
    have hi : i < bs.size := by omega
    have hget : bs.get! i = bs.data.toList[i] := by simp [ByteArray.get!, hi]
    rw [ByteArray.toList.loop, if_pos hi, ih _ _ (by omega), hget, List.reverse_cons,
      List.append_assoc, List.singleton_append, List.getElem_cons_drop]

lemma toUTF8_toList (s : String) :
    s.toUTF8.toList = s.toList.flatMap String.utf8EncodeChar := by
  have hbytes : s.toUTF8 = (s.toList.flatMap String.utf8EncodeChar).toByteArray := by
    rw [← List.utf8Encode, String.utf8Encode_toList, String.toUTF8]
  rw [hbytes, ByteArray.toList, toList_loop, List.toList_data_toByteArray]
  simp

lemma toUTF8_ne_nil {s : String} (h : s ≠ "") : s.toUTF8.toList ≠ [] := by
  rw [toUTF8_toList]
  intro hnil
  cases htext : s.toList with
  | nil => exact h (String.toList_eq_nil_iff.mp htext)
  | cons c l =>
    rw [htext, List.flatMap_cons, List.append_eq_nil_iff] at hnil
    exact String.utf8EncodeChar_ne_nil hnil.1

lemma encode_ascii {c : Char} (h : c.toNat < 128) :
    String.utf8EncodeChar c = [c.toNat.toUInt8] := by
  have hv : c.val.toNat ≤ 127 := Nat.le_of_lt_succ h
  unfold String.utf8EncodeChar
  simp only
  rw [if_pos hv]
  rfl

lemma exists_high {c : Char} (h : 128 ≤ c.toNat) :
    ∃ b ∈ String.utf8EncodeChar c, 128 ≤ b := by
  have hv : ¬c.val.toNat ≤ 127 := Nat.not_le_of_lt h
  have hhigh : ∀ n, 128 ≤ n → n < 256 → (128 : UInt8) ≤ UInt8.ofNat n := by
    intro n hlow hn
    rw [UInt8.le_iff_toNat_le, UInt8.toNat_ofNat_of_lt' hn]
    exact hlow
  unfold String.utf8EncodeChar
  simp only
  rw [if_neg hv]
  split_ifs
  · exact ⟨_, List.mem_cons_self, hhigh _ (by omega) (by omega)⟩
  · exact ⟨_, List.mem_cons_self, hhigh _ (by omega) (by omega)⟩
  · exact ⟨_, List.mem_cons_self, hhigh _ (by omega) (by omega)⟩

/-- **An ASCII text is its code points.** -/
lemma toUTF8_ascii {s : String} (h : ∀ c ∈ s.toList, c.toNat < 128) :
    s.toUTF8.toList = s.toList.map fun c => c.toNat.toUInt8 := by
  rw [toUTF8_toList, List.map_eq_flatMap]
  exact List.flatMap_congr fun c hc => encode_ascii (h c hc)

/-- **Any other text has a byte with the high bit set.** -/
lemma exists_high_byte {s : String} {c : Char} (hc : c ∈ s.toList) (h : 128 ≤ c.toNat) :
    ∃ b ∈ s.toUTF8.toList, 128 ≤ b := by
  obtain ⟨b, hb, hhigh⟩ := exists_high h
  rw [toUTF8_toList]
  exact ⟨b, List.mem_flatMap.mpr ⟨c, hc, hb⟩, hhigh⟩

end GatewayAuth.Lib.Utf8
