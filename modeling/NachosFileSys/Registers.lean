import Mathlib.Data.Fin.VecNotation
import Mathlib.Tactic

namespace NachosFileSys

abbrev NumTotalRegs : ℕ := 40

instance : NeZero NumTotalRegs := ⟨by decide⟩

abbrev Registers := Fin NumTotalRegs → BitVec 32

namespace Registers

def stackReg : Fin NumTotalRegs := 29
def retAddrReg : Fin NumTotalRegs := 31
def hiReg : Fin NumTotalRegs := 32
def loReg : Fin NumTotalRegs := 33
def pcReg : Fin NumTotalRegs := 34
def nextPCReg : Fin NumTotalRegs := 35
def prevPCReg : Fin NumTotalRegs := 36
def loadReg : Fin NumTotalRegs := 37
def loadValueReg : Fin NumTotalRegs := 38
def badVAddrReg : Fin NumTotalRegs := 39

/-- `registers[num] = value`, for a number that is known at run time only: one that is out of range names no
register. -/
def assign (r : Registers) (num value : BitVec 32) : Registers :=
  fun i => if i.val = num.toNat then value else r i

def set (r : Registers) (num : Fin NumTotalRegs) (value : BitVec 32) : Registers := Function.update r num value

def delayedLoad (nextReg nextValue : BitVec 32) (r : Registers) : Registers :=
  (((r.assign (r loadReg) (r loadValueReg)).set loadReg nextReg).set loadValueReg nextValue).set 0 0

@[simp] lemma set_self (r : Registers) (num : Fin NumTotalRegs) (value : BitVec 32) :
    r.set num value num = value := by
  simp [set]

lemma set_of_ne (r : Registers) {num i : Fin NumTotalRegs} (h : i ≠ num) (value : BitVec 32) :
    r.set num value i = r i := by
  simp [set, h]

lemma delayedLoad_idem (r : Registers) : delayedLoad 0 0 (delayedLoad 0 0 r) = delayedLoad 0 0 r := by
  have hreg : delayedLoad 0 0 r loadReg = 0 := by
    rw [delayedLoad, set_of_ne _ (by decide), set_of_ne _ (by decide), set_self]
  have hvalue : delayedLoad 0 0 r loadValueReg = 0 := by rw [delayedLoad, set_of_ne _ (by decide), set_self]
  have hzero : delayedLoad 0 0 r 0 = 0 := by rw [delayedLoad, set_self]
  generalize delayedLoad 0 0 r = r' at hreg hvalue hzero
  funext i
  unfold delayedLoad
  rw [hreg, hvalue]
  by_cases h₀ : i = 0
  · rw [h₀, set_self, hzero]
  · rw [set_of_ne _ h₀]
    by_cases h₁ : i = loadValueReg
    · rw [h₁, set_self, hvalue]
    · rw [set_of_ne _ h₁]
      by_cases h₂ : i = loadReg
      · rw [h₂, set_self, hreg]
      · have hne : i.val ≠ (0 : BitVec 32).toNat := fun h => h₀ (Fin.ext h)
        rw [set_of_ne _ h₂, assign, if_neg hne]

end Registers

end NachosFileSys
