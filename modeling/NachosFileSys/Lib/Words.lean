import Mathlib.Tactic

namespace NachosFileSys.Lib.Words

variable {m n : ℕ}

lemma toNat_append (hi : BitVec m) (lo : BitVec n) : (hi ++ lo).toNat = hi.toNat * 2 ^ n + lo.toNat := by
  rw [BitVec.toNat_append, ← Nat.shiftLeft_add_eq_or_of_lt lo.isLt, Nat.shiftLeft_eq]

lemma append_eq_ofNat {hi : BitVec m} {lo : BitVec n} {h l : ℕ} (hh : hi = BitVec.ofNat m h) (hl : lo.toNat = l) :
    hi ++ lo = BitVec.ofNat (m + n) (h * 2 ^ n + l) := by
  have hlt := lo.isLt
  apply BitVec.eq_of_toNat_eq
  rw [toNat_append, BitVec.toNat_ofNat, hh, BitVec.toNat_ofNat, hl, pow_add, mul_comm (2 ^ m), Nat.mod_mul,
    Nat.mul_add_mod_of_lt (by omega), mul_comm h, Nat.mul_add_div (by positivity),
    Nat.div_eq_of_lt (by omega), add_zero]
  ring

lemma toNat_add_carry (x y : BitVec n) :
    x.toNat + y.toNat = (if x + y < y then 1 else 0) * 2 ^ n + (x + y).toNat := by
  have hx := x.isLt
  have hy := y.isLt
  simp only [BitVec.lt_def, BitVec.toNat_add]
  rcases lt_or_ge (x.toNat + y.toNat) (2 ^ n) with h | h
  · rw [Nat.mod_eq_of_lt h, if_neg (by omega)]
    omega
  · rw [Nat.mod_eq_sub_mod h, Nat.mod_eq_of_lt (by omega), if_pos (by omega)]
    omega

lemma append_add (hi hi' : BitVec m) (lo lo' : BitVec n) :
    (hi ++ lo) + (hi' ++ lo') = ((if lo + lo' < lo' then hi + 1#m else hi) + hi') ++ (lo + lo') := by
  have hcarry := toNat_add_carry lo lo'
  have hhigh : (if lo + lo' < lo' then hi + 1#m else hi) + hi' =
      BitVec.ofNat m (hi.toNat + (if lo + lo' < lo' then 1 else 0) + hi'.toNat) := by
    rw [BitVec.ofNat_add, BitVec.ofNat_add, BitVec.ofNat_toNat,
        BitVec.ofNat_toNat, BitVec.setWidth_eq, BitVec.setWidth_eq]
    split <;> simp
  rw [append_eq_ofNat hhigh rfl]
  apply BitVec.eq_of_toNat_eq
  rw [BitVec.toNat_add, BitVec.toNat_ofNat, toNat_append, toNat_append]
  congr 1
  rw [add_mul, add_mul, add_assoc, add_right_comm _ _ (hi'.toNat * 2 ^ n)]
  omega

lemma append_double (hi : BitVec m) (lo : BitVec n) (hn : 0 < n) :
    (hi ++ lo) + (hi ++ lo) = (if lo.msb then hi <<< 1 ||| 1#m else hi <<< 1) ++ (lo <<< 1) := by
  have htwice {w : ℕ} (x : BitVec w) : x <<< 1 = x + x := by
    apply BitVec.eq_of_toNat_eq
    rw [BitVec.toNat_shiftLeft, BitVec.toNat_add, Nat.shiftLeft_eq, pow_one, mul_two]
  have hcarry : lo + lo < lo ↔ lo.msb = true := by
    have hlt := lo.isLt
    have hpow : 2 ^ n = 2 * 2 ^ (n - 1) := by rw [← pow_succ', Nat.sub_add_cancel hn]
    rw [BitVec.msb_eq_decide, decide_eq_true_iff, BitVec.lt_def, BitVec.toNat_add]
    rcases lt_or_ge (lo.toNat + lo.toNat) (2 ^ n) with h | h
    · rw [Nat.mod_eq_of_lt h]
      omega
    · rw [Nat.mod_eq_sub_mod h, Nat.mod_eq_of_lt (by omega)]
      omega
  have hone : hi <<< 1 ||| 1#m = hi + 1#m + hi := by
    have hdisjoint : hi <<< 1 &&& 1#m = 0#m := by
      apply BitVec.eq_of_getLsbD_eq
      intro i _
      simp
      omega
    rw [← BitVec.add_eq_or_of_and_eq_zero _ _ hdisjoint, htwice]
    rw [BitVec.add_assoc, BitVec.add_comm]
  rw [append_add, htwice lo]
  by_cases h : lo.msb = true
  · rw [if_pos h, if_pos (hcarry.mpr h), hone]
  · rw [if_neg h, if_neg (hcarry.not.mpr h), htwice]

lemma append_neg (hi : BitVec m) (lo : BitVec n) (hn : 0 < n) :
    -(hi ++ lo) = (if ~~~lo + 1#n = 0#n then ~~~hi + 1#m else ~~~hi) ++ (~~~lo + 1#n) := by
  have hpow : 1 < 2 ^ n := Nat.one_lt_two_pow (by omega)
  have hone : 1#(m + n) = 0#m ++ 1#n := by
    rw [append_eq_ofNat (h := 0) (l := 1) rfl (by rw [BitVec.toNat_ofNat, Nat.mod_eq_of_lt hpow]),
        zero_mul, zero_add]
  have hcarry : ~~~lo + 1#n < 1#n ↔ ~~~lo + 1#n = 0#n := by
    rw [BitVec.lt_def, ← BitVec.toNat_inj, BitVec.toNat_ofNat,
      BitVec.toNat_ofNat, Nat.mod_eq_of_lt hpow, Nat.zero_mod,
      Nat.lt_one_iff]
  rw [BitVec.neg_eq_not_add, BitVec.not_append, hone, append_add, BitVec.add_zero]
  simp only [hcarry]

end NachosFileSys.Lib.Words
