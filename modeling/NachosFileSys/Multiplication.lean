import NachosFileSys.Lib.Words
import NachosFileSys.MipsSim

namespace NachosFileSys

open Lib.Bytes Lib.Words

lemma negative_eq_msb (w : Word) : negative w = w.msb := by
  have hbit : w &&& signBit = if w.getLsbD 31 then BitVec.twoPow 32 31 else 0#32 := BitVec.and_twoPow w 31
  rw [negative, hbit, BitVec.msb_eq_getLsbD_last]
  cases w.getLsbD 31 <;> rfl

lemma and_one_ne_zero (w : Word) : w &&& 1 ≠ 0 ↔ w.toNat % 2 = 1 := by
  have hbit : w &&& 1 = if w.getLsbD 0 then BitVec.twoPow 32 0 else 0#32 := BitVec.and_twoPow w 0
  rw [hbit, BitVec.getLsbD, Nat.testBit_zero]
  by_cases h : w.toNat % 2 = 1
  · simp only [h, decide_true, if_true, iff_true]
    decide
  · simp [h]

lemma toNat_of_and_eq_zero {w : Word} (hone : w &&& 1 ≠ 0) (h : w &&& 0xfffffffe = 0) : w.toNat = 1 := by
  have hsplit : w = w &&& 1 ||| w &&& 0xfffffffe := by
    rw [← BitVec.and_or_distrib_left]
    exact BitVec.and_allOnes.symm
  have hbit : w &&& 1 = if w.getLsbD 0 then BitVec.twoPow 32 0 else 0#32 := BitVec.and_twoPow w 0
  rw [h, hbit, show (0 : Word) = 0#32 from rfl, BitVec.or_zero] at hsplit
  rw [hbit] at hone
  split at hone
  · rw [if_pos ‹_›] at hsplit
    rw [hsplit]
    rfl
  · exact absurd rfl hone

/-- The bits that are left of the multiplier. The copies of the sign bit that come in are not among them. -/
lemma sshiftRight_mod {a : Word} {n : ℕ} (hn : n < 32) :
    (a.sshiftRight 1).toNat % 2 ^ n = a.toNat / 2 % 2 ^ n := by
  apply Nat.eq_of_testBit_eq
  intro i
  rw [Nat.testBit_mod_two_pow, Nat.testBit_mod_two_pow, ← Nat.testBit_succ,
    BitVec.testBit_toNat, BitVec.testBit_toNat,
    BitVec.getLsbD_sshiftRight]
  by_cases hi : i < n
  · have hlow : i + 1 < 32 := by omega
    have hword : ¬32 ≤ i := by omega
    simp [hi, hlow, hword, add_comm 1 i]
  · simp [hi]

lemma mod_two_pow_succ (a n : ℕ) : a % 2 ^ (n + 1) = a % 2 + 2 * (a / 2 % 2 ^ n) := by
  rw [pow_succ', Nat.mod_mul]

/-- The loop adds to the accumulator the product of the bits of `a` that are left and the shifted `b`. -/
lemma multLoop_spec (n : ℕ) : ∀ {a bLo bHi lo hi : Word}, n ≤ 32 →
    (multLoop n a bLo bHi lo hi).1 ++ (multLoop n a bLo bHi lo hi).2 =
      (hi ++ lo : BitVec 64) + BitVec.ofNat 64 (a.toNat % 2 ^ n) * (bHi ++ bLo) := by
  induction n with
  | zero =>
    intro a bLo bHi lo hi _
    simp [multLoop, Nat.mod_one]
  | succ n ih =>
    intro a bLo bHi lo hi hn
    have hsplit : BitVec.ofNat 64 (a.toNat % 2 ^ (n + 1)) =
        BitVec.ofNat 64 (a.toNat % 2) +
          (BitVec.ofNat 64 (a.toNat / 2 % 2 ^ n) + BitVec.ofNat 64 (a.toNat / 2 % 2 ^ n)) := by
      rw [mod_two_pow_succ, two_mul, BitVec.ofNat_add, BitVec.ofNat_add]
    -- one addition, if the bit is set
    have hsum :
        (if a &&& 1 ≠ 0 then (if (if a &&& 1 ≠ 0 then lo + bLo else lo) < bLo then hi + 1 else hi) +
        bHi else hi) ++
        (if a &&& 1 ≠ 0 then lo + bLo else lo) =
        (hi ++ lo : BitVec 64) + BitVec.ofNat 64 (a.toNat % 2) * (bHi ++ bLo) := by
      by_cases h : a &&& 1 ≠ 0
      · rw [if_pos h, if_pos h, (and_one_ne_zero a).mp h, BitVec.one_mul]
        exact (append_add hi bHi lo bLo).symm
      · rw [if_neg h, if_neg h, Nat.mod_two_ne_one.mp ((and_one_ne_zero a).not.mp h),
            BitVec.zero_mul, BitVec.add_zero]
    rw [multLoop]
    dsimp only
    split
    · rename_i hlast
      have hone := toNat_of_and_eq_zero hlast.1 hlast.2
      have hmod : 1 % 2 ^ (n + 1) = 1 % 2 := by
        rw [Nat.mod_eq_of_lt (Nat.one_lt_two_pow (by omega))]
      dsimp only
      rw [hsum, hone, hmod]
    · rw [ih (by omega), sshiftRight_mod (by omega), hsum, hsplit, negative_eq_msb]
      have hdouble : ((if bLo.msb = true then bHi <<< 1 ||| 1 else bHi <<< 1) ++ (bLo <<< 1) : BitVec 64) =
          (bHi ++ bLo) + (bHi ++ bLo) := (append_double bHi bLo (by norm_num)).symm
      rw [hdouble, BitVec.mul_add, BitVec.add_mul, BitVec.add_mul, BitVec.add_assoc]

/-- The words that `Mult` leaves for two numbers that are not negative, of which the product changes its sign or
does not. -/
def signedWords (a b : Word) (changed : Bool) : Word × Word :=
  let (hi, lo) := multLoop 32 a b 0 0 0
  if changed then
    let lo := ~~~lo + 1
    (if lo = 0 then ~~~hi + 1 else ~~~hi, lo)
  else (hi, lo)

lemma signedWords_eq (a b : Word) (changed : Bool) :
    (signedWords a b changed).1 ++ (signedWords a b changed).2 =
      if changed then -BitVec.ofNat 64 (a.toNat * b.toNat) else BitVec.ofNat 64 (a.toNat * b.toNat) := by
  have hloop : (multLoop 32 a b 0 0 0).1 ++ (multLoop 32 a b 0 0 0).2 = BitVec.ofNat 64 (a.toNat * b.toNat) := by
    have hb : (0 : Word) ++ b = BitVec.ofNat 64 b.toNat :=
      (append_eq_ofNat (h := 0) (l := b.toNat) rfl rfl).trans (by rw [zero_mul, zero_add])
    have hzero : (0 : Word) ++ (0 : Word) = (0 : BitVec 64) := by decide
    have hmod : a.toNat % 2 ^ 32 = a.toNat := Nat.mod_eq_of_lt a.isLt
    rw [multLoop_spec 32 le_rfl, hb, hzero, hmod, BitVec.ofNat_mul]
    exact BitVec.zero_add _
  cases changed with
  | false => exact hloop
  | true =>
    have hneg := append_neg (multLoop 32 a b 0 0 0).1 (multLoop 32 a b 0 0 0).2 (by norm_num)
    rw [hloop] at hneg
    exact hneg.symm

lemma toInt_product {p : ℕ} (hp : p < 2 ^ 63) (changed : Bool) :
    (if changed then -BitVec.ofNat 64 p else BitVec.ofNat 64 p).toInt = if changed then -(p : ℤ) else p := by
  have hpos : (BitVec.ofNat 64 p).toInt = p := by
    rw [BitVec.toInt_ofNat', Int.bmod_eq_of_le_mul_two (by omega) (by omega)]
  cases changed with
  | false => exact hpos
  | true =>
    rw [if_pos rfl, if_pos rfl, BitVec.toInt_neg, hpos, Int.bmod_eq_of_le_mul_two (by omega) (by omega)]

lemma toNat_magnitude (w : Word) : ((if decide (w.toInt < 0) then -w else w).toNat : ℤ) = |w.toInt| := by
  have hlt := w.isLt
  by_cases h : w.toInt < 0
  · rw [if_pos (by simpa using h), abs_of_neg h]
    rw [BitVec.toInt_eq_toNat_cond] at h ⊢
    rw [BitVec.toNat_neg]
    split at h <;> split <;> omega
  · rw [if_neg (by simpa using h), abs_of_nonneg (not_lt.mp h)]
    rw [BitVec.toInt_eq_toNat_cond] at h ⊢
    split at h <;> split <;> omega

lemma mult_eq {a b : Word} (hzero : ¬(a = 0 ∨ b = 0)) (signedArith : Bool) :
    mult a b signedArith =
      signedWords (if signedArith && decide (a.toInt < 0) then -a else a)
      (if signedArith && decide (b.toInt < 0) then -b else b)
        ((signedArith && decide (a.toInt < 0)) != (signedArith && decide (b.toInt < 0))) := by
  rw [mult, if_neg hzero]
  rfl

lemma mult_signed {a b : Word} (hzero : ¬(a = 0 ∨ b = 0)) :
    ((mult a b true).1 ++ (mult a b true).2 : BitVec 64).toInt = a.toInt * b.toInt := by
  have ha : |a.toInt| ≤ 2 ^ 31 := abs_le.mpr ⟨a.le_toInt, a.toInt_lt.le⟩
  have hb : |b.toInt| ≤ 2 ^ 31 := abs_le.mpr ⟨b.le_toInt, b.toInt_lt.le⟩
  have hmagA := toNat_magnitude a
  have hmagB := toNat_magnitude b
  rw [mult_eq hzero, signedWords_eq, Bool.true_and, Bool.true_and]
  generalize (if decide (a.toInt < 0) then -a else a) = a' at *
  generalize (if decide (b.toInt < 0) then -b else b) = b' at *
  have hsize : a'.toNat * b'.toNat < 2 ^ 63 := by
    have h : a'.toNat * b'.toNat ≤ 2 ^ 31 * 2 ^ 31 := Nat.mul_le_mul (by omega) (by omega)
    omega
  have habs : ((a'.toNat * b'.toNat : ℕ) : ℤ) = |a.toInt| * |b.toInt| := by
    rw [Nat.cast_mul, hmagA, hmagB]
  rw [toInt_product hsize, habs]
  by_cases hneg : a.toInt < 0
  · by_cases hneg' : b.toInt < 0
    · simp [hneg, hneg', abs_of_neg]
    · simp [hneg, hneg', abs_of_neg, abs_of_nonneg (not_lt.mp hneg')]
  · by_cases hneg' : b.toInt < 0
    · simp [hneg, hneg', abs_of_neg, abs_of_nonneg (not_lt.mp hneg)]
    · simp [hneg, hneg', abs_of_nonneg (not_lt.mp hneg), abs_of_nonneg (not_lt.mp hneg')]

lemma mult_unsigned {a b : Word} (hzero : ¬(a = 0 ∨ b = 0)) :
    ((mult a b false).1 ++ (mult a b false).2 : BitVec 64).toNat = a.toNat * b.toNat := by
  have hsize : a.toNat * b.toNat < 2 ^ 64 := (Nat.mul_lt_mul'' a.isLt b.isLt).trans_eq (by norm_num)
  have h := signedWords_eq a b false
  rw [if_neg (by simp)] at h
  have hmult : mult a b false = signedWords a b false := mult_eq hzero false
  rw [hmult, h, BitVec.toNat_ofNat, Nat.mod_eq_of_lt hsize]

/-- `Mult` leaves the 64-bit product of its operands, taken as signed or as unsigned numbers. -/
theorem mult_full_product (a b : Word) :
    ((mult a b true).1 ++ (mult a b true).2 : BitVec 64).toInt = a.toInt * b.toInt ∧
      ((mult a b false).1 ++ (mult a b false).2 : BitVec 64).toNat = a.toNat * b.toNat := by
  by_cases hzero : a = 0 ∨ b = 0
  · rw [mult, mult, if_pos hzero, if_pos hzero]
    rcases hzero with rfl | rfl
    · simp
    · simp
  · exact ⟨mult_signed hzero, mult_unsigned hzero⟩

end NachosFileSys
