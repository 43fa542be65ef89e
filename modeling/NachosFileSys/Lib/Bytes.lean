import Mathlib.Tactic
import Mathlib.Data.List.Basic

namespace NachosFileSys.Lib.Bytes

abbrev Byte := BitVec 8
abbrev Word := BitVec 32

def byteOf (w : Word) (c : ℕ) : Byte := w.extractLsb' (8 * c) 8

def wordOf (b : ℕ → Byte) : Word := b 3 ++ b 2 ++ b 1 ++ b 0

lemma wordOf_byteOf (w : Word) : wordOf (byteOf w) = w := by
  apply BitVec.eq_of_getLsbD_eq
  intro i hi
  simp only [wordOf, byteOf, BitVec.getLsbD_append, BitVec.getLsbD_extractLsb']
  grind

lemma byteOf_wordOf (b : ℕ → Byte) (c : ℕ) (hc : c < 4) : byteOf (wordOf b) c = b c := by
  apply BitVec.eq_of_getLsbD_eq
  intro i hi
  simp only [wordOf, byteOf, BitVec.getLsbD_append, BitVec.getLsbD_extractLsb']
  interval_cases c <;> grind

lemma byte_succ_ne : ∀ b : Byte, b + 1 ≠ b := by decide

def int32 (x : ℤ) : ℤ := (BitVec.ofInt 32 x).toInt

lemma int32_of_bounds {x : ℤ} (hl : -2147483648 ≤ x) (hu : x < 2147483648) : int32 x = x := by
  rw [int32, BitVec.toInt_ofInt, Int.bmod_def]
  norm_num
  split <;> omega

lemma int32_wrap {x : ℤ} (hl : 2147483648 ≤ x) (hu : x < 4294967296) : int32 x = x - 4294967296 := by
  rw [int32, BitVec.toInt_ofInt, Int.bmod]
  norm_num
  omega

lemma int32_bounds (x : ℤ) : -2147483648 ≤ int32 x ∧ int32 x < 2147483648 := by
  rw [int32, BitVec.toInt_ofInt, Int.bmod_def]
  norm_num
  split <;> omega

lemma toInt_bounds (w : Word) : -2147483648 ≤ w.toInt ∧ w.toInt < 2147483648 := by
  rw [← BitVec.ofInt_toInt (x := w)]
  exact int32_bounds w.toInt

def overlay (buf : List Byte) (off : ℕ) (src : List Byte) : List Byte :=
  buf.take off ++ (src ++ buf.drop (off + src.length))

lemma overlay_length (buf : List Byte) (off : ℕ) (src : List Byte) (h : off + src.length ≤ buf.length) :
    (overlay buf off src).length = buf.length := by
  simp only [overlay, List.length_append, List.length_take, List.length_drop]
  omega

lemma getElem?_overlay (buf : List Byte) (off : ℕ) (src : List Byte) (h : off + src.length ≤ buf.length)
    (i : ℕ) : (overlay buf off src)[i]? =
      if off ≤ i ∧ i < off + src.length then src[i - off]? else buf[i]? := by
  have ht : (buf.take off).length = off := by
    rw [List.length_take]
    omega
  rw [overlay]
  by_cases hi : i < off
  · rw [List.getElem?_append_left (by omega), List.getElem?_take_of_lt hi, if_neg (by omega)]
  · rw [List.getElem?_append_right (by omega), ht]
    by_cases hs : i - off < src.length
    · rw [List.getElem?_append_left hs, if_pos (by omega)]
    · rw [List.getElem?_append_right (by omega), List.getElem?_drop, if_neg (by omega)]
      congr 1
      omega

lemma overlay_full (buf src : List Byte) (h : buf.length ≤ src.length) : overlay buf 0 src = src := by
  simp only [overlay, List.take_zero, Nat.zero_add, List.nil_append]
  rw [List.drop_eq_nil_of_le h, List.append_nil]

end NachosFileSys.Lib.Bytes
