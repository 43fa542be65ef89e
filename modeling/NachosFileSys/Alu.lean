import NachosFileSys.Multiplication

namespace NachosFileSys

open Lib.Bytes Lib.Programs Registers

namespace MipsI

/-! The fields of an instruction word. -/

def rs (raw : Word) : BitVec 5 := raw.extractLsb' 21 5

def rt (raw : Word) : BitVec 5 := raw.extractLsb' 16 5

def rd (raw : Word) : BitVec 5 := raw.extractLsb' 11 5

def shamt (raw : Word) : BitVec 5 := raw.extractLsb' 6 5

def immediate (raw : Word) : BitVec 16 := raw.extractLsb' 0 16

/-- The registers that an arithmetic or logical instruction writes; a value that is undefined is `none`. -/
def writes (op : OpCode) (raw : Word) (r : Registers) : Option (List (Fin NumTotalRegs × Option Word)) :=
  let s := r (general (rs raw))
  let t := r (general (rt raw))
  let imm := immediate raw
  let amount := (s.extractLsb' 0 5).toNat
  let toRd (value : Word) := some [(general (rd raw), some value)]
  let toRt (value : Word) := some [(general (rt raw), some value)]
  match op with
  | .addu => toRd (BitVec.ofInt 32 (s.toInt + t.toInt))
  | .addiu => toRt (BitVec.ofInt 32 (s.toInt + imm.toInt))
  | .subu => toRd (BitVec.ofInt 32 (s.toInt - t.toInt))
  | .and => toRd (s &&& t)
  | .or => toRd (s ||| t)
  | .xor => toRd (s ^^^ t)
  | .nor => toRd (~~~(s ||| t))
  | .andi => toRt (s &&& imm.setWidth 32)
  | .ori => toRt (s ||| imm.setWidth 32)
  | .xori => toRt (s ^^^ imm.setWidth 32)
  | .lui => toRt (imm ++ (0 : BitVec 16))
  | .slt => toRd (if s.toInt < t.toInt then 1 else 0)
  | .slti => toRt (if s.toInt < imm.toInt then 1 else 0)
  | .sltu => toRd (if s.toNat < t.toNat then 1 else 0)
  | .sltiu => toRt (if s.toNat < (imm.signExtend 32).toNat then 1 else 0)
  | .sll => toRd (t <<< (shamt raw).toNat)
  | .srl => toRd (t >>> (shamt raw).toNat)
  | .sra => toRd (t.sshiftRight (shamt raw).toNat)
  | .sllv => toRd (t <<< amount)
  | .srlv => toRd (t >>> amount)
  | .srav => toRd (t.sshiftRight amount)
  | .div =>
    if t = 0 then some [(loReg, none), (hiReg, none)]
    else some [(loReg, some (BitVec.ofInt 32 (s.toInt.tdiv t.toInt))),
        (hiReg, some (BitVec.ofInt 32 (s.toInt.tmod t.toInt)))]
  | .divu =>
    if t = 0 then some [(loReg, none), (hiReg, none)]
    else some [(loReg, some (BitVec.ofNat 32 (s.toNat / t.toNat))),
        (hiReg, some (BitVec.ofNat 32 (s.toNat % t.toNat)))]
  | .mfhi => toRd (r hiReg)
  | .mflo => toRd (r loReg)
  | .mthi => some [(hiReg, some s)]
  | .mtlo => some [(loReg, some s)]
  | _ => none

end MipsI

lemma decode_rs (raw : Word) : (decode raw).rs = MipsI.rs raw := rfl

lemma decode_rt (raw : Word) : (decode raw).rt = MipsI.rt raw := rfl

def Registers.LoadPending (r : Registers) (i : Fin NumTotalRegs) : Prop := (r loadReg).toNat = i.val

instance (r : Registers) (i : Fin NumTotalRegs) : Decidable (r.LoadPending i) := Nat.decEq _ _

def Registers.settled (r : Registers) (i : Fin NumTotalRegs) : Word :=
  if i = 0 then 0 else if r.LoadPending i then r loadValueReg else r i

/-- The instruction completes, with the values in its destinations that MIPS I defines, and no other general
register is changed but by the pending load. -/
def FollowsMips (raw : Word) (r : Registers) (writes : List (Fin NumTotalRegs × Option Word)) : Prop :=
  ∃ e, (decode raw).execute r = pure e ∧ e.advance 0 = 0 ∧
    (∀ x ∈ writes, ∀ value, x.2 = some value → x.1 ≠ 0 → e.advance x.1 = value) ∧
    ∀ i, i.val < 32 → i ∉ writes.map Prod.fst → e.advance i = r.settled i

namespace Executed

lemma advance_zero (e : Executed) : e.advance 0 = 0 := by
  rw [advance, set_of_ne _ (by decide), set_of_ne _ (by decide), set_of_ne _ (by decide), delayedLoad, set_self]

lemma advance_of_lt (e : Executed) {i : Fin NumTotalRegs} (hi : i.val < 34) (h0 : i ≠ 0) :
    e.advance i = if e.registers.LoadPending i then e.registers loadValueReg else e.registers i := by
  have hne {j : Fin NumTotalRegs} (hj : 34 ≤ j.val) : i ≠ j := by
    rintro rfl
    omega
  rw [advance, set_of_ne _ (hne (by decide)), set_of_ne _ (hne (by decide)),
    set_of_ne _ (hne (by decide)), delayedLoad,
    set_of_ne _ h0, set_of_ne _ (hne (by decide)), set_of_ne _ (hne (by decide))]
  exact if_congr eq_comm rfl rfl

end Executed

section Tables

def immediateOps : List OpCode := [.addi, .addiu, .andi, .ori, .xori, .lui, .slti, .sltiu]

def shiftOps : List OpCode := [.sll, .srl, .sra]

def wellFormed : OpInfo × OpFormat → Bool
  | (.op c, .ifmt) => c ∉ shiftOps
  | (.op c, _) => c ∉ immediateOps ∧ c ∉ shiftOps
  | (.special, .rfmt) => true
  | (.special, _) => false
  | (.bcond, _) => true

lemma getD_of_forall {α : Type} {p : α → Prop} {l : List α} {d : α} (hd : p d) (h : ∀ x ∈ l, p x) (k : ℕ) :
    p (l.getD k d) := by
  rw [List.getD_eq_getElem?_getD]
  cases hk : l[k]? with
  | none => exact hd
  | some x => exact h x (List.mem_of_getElem? hk)

lemma opTable_wellFormed (k : ℕ) : wellFormed (opTable.getD k (.op .res, .ifmt)) = true :=
  getD_of_forall (p := (wellFormed · = true)) (by decide) (by decide) k

lemma specialTable_ne_immediate (k : ℕ) : specialTable.getD k .res ∉ immediateOps :=
  getD_of_forall (p := (· ∉ immediateOps)) (by decide) (by decide) k

lemma decode_extra (raw : Word) :
    ((decode raw).opCode ∈ immediateOps → (decode raw).extra = (MipsI.immediate raw).signExtend 32) ∧
      ((decode raw).opCode ∈ shiftOps → (decode raw).extra = (MipsI.shamt raw).setWidth 32) := by
  have hrow := opTable_wellFormed (raw.extractLsb' 26 6).toNat
  have hspecial := specialTable_ne_immediate (raw.extractLsb' 0 6).toNat
  rw [decode]
  dsimp only
  generalize opTable.getD (raw.extractLsb' 26 6).toNat (.op .res, .ifmt) = row at hrow
  obtain ⟨info, format⟩ := row
  cases info with
  | op c =>
    cases format with
    | ifmt => exact ⟨fun _ => rfl, fun h => by simp_all [wellFormed]⟩
    | jfmt => exact ⟨fun h => by simp_all [wellFormed], fun h => by simp_all [wellFormed]⟩
    | rfmt => exact ⟨fun h => by simp_all [wellFormed], fun h => by simp_all [wellFormed]⟩
  | special =>
    cases format with
    | ifmt => simp [wellFormed] at hrow
    | jfmt => simp [wellFormed] at hrow
    | rfmt => exact ⟨fun h => absurd h hspecial, fun _ => rfl⟩
  | bcond =>
    have hbranch : (if MipsI.rt raw = 0 then OpCode.bltz else if MipsI.rt raw = 1 then .bgez
        else if MipsI.rt raw = 0x10 then .bltzal else if MipsI.rt raw = 0x11 then .bgezal else .unimp) ∉
          immediateOps ++ shiftOps := by
      split_ifs <;> decide
    exact ⟨fun h => absurd (List.mem_append_left _ h) hbranch, fun h => absurd (List.mem_append_right _ h) hbranch⟩

end Tables

section Conversions

lemma add_eq_ofInt (s t : Word) : s + t = BitVec.ofInt 32 (s.toInt + t.toInt) := by
  rw [BitVec.ofInt_add, BitVec.ofInt_toInt, BitVec.ofInt_toInt]

lemma sub_eq_ofInt (s t : Word) : s - t = BitVec.ofInt 32 (s.toInt - t.toInt) := by
  apply BitVec.eq_of_toInt_eq
  rw [BitVec.toInt_sub, BitVec.toInt_ofInt]

lemma toInt_immediate (imm : BitVec 16) : (imm.signExtend 32).toInt = imm.toInt :=
  BitVec.toInt_signExtend_of_le (by norm_num)

lemma and_mask (imm : BitVec 16) : imm.signExtend 32 &&& 0xffff = imm.setWidth 32 := by
  have hmask : (0xffff : Word) = (BitVec.allOnes 16).setWidth 32 := by decide
  apply BitVec.eq_of_getLsbD_eq
  intro i hi
  rw [hmask, BitVec.getLsbD_and, BitVec.getLsbD_signExtend, BitVec.getLsbD_setWidth, BitVec.getLsbD_setWidth,
    BitVec.getLsbD_allOnes]
  by_cases h : i < 16
  · simp [h, hi]
  · simp [h, BitVec.getLsbD_of_ge _ _ (not_lt.mp h)]

lemma shiftLeft_immediate (imm : BitVec 16) : imm.signExtend 32 <<< 16 = imm ++ (0 : BitVec 16) := by
  apply BitVec.eq_of_getLsbD_eq
  intro i hi
  rw [BitVec.getLsbD_shiftLeft, BitVec.getLsbD_signExtend, BitVec.getLsbD_append]
  by_cases h : i < 16
  · simp [h]
  · have hlow : i - 16 < 16 := by omega
    have hword : i - 16 < 32 := by omega
    simp [h, hi, hlow, hword]

lemma amount_eq (s : Word) : (s &&& 0x1f).toNat = (s.extractLsb' 0 5).toNat := by
  rw [BitVec.toNat_and, BitVec.extractLsb'_toNat, Nat.shiftRight_zero]
  exact Nat.and_two_pow_sub_one_eq_mod _ 5

lemma sdiv_eq_ofInt (s t : Word) : s.sdiv t = BitVec.ofInt 32 (s.toInt.tdiv t.toInt) := by
  apply BitVec.eq_of_toInt_eq
  rw [BitVec.toInt_sdiv, BitVec.toInt_ofInt]

lemma srem_eq_ofInt (s t : Word) : s.srem t = BitVec.ofInt 32 (s.toInt.tmod t.toInt) := by
  rw [← BitVec.toInt_srem, BitVec.ofInt_toInt]

/-- The shift of the code is the logical one exactly when the word is not negative or is not shifted. -/
lemma sshiftRight_eq_iff (t : Word) (n : ℕ) : t.sshiftRight n = t >>> n ↔ n = 0 ∨ 0 ≤ t.toInt := by
  constructor
  · intro h
    by_contra hneg
    obtain ⟨hn, hneg⟩ := not_or.mp hneg
    have hmsb : t.msb = true := by
      rw [BitVec.msb_eq_toInt]
      exact decide_eq_true (not_le.mp hneg)
    have htop := congrArg BitVec.msb h
    rw [BitVec.msb_sshiftRight, BitVec.msb_ushiftRight, hmsb] at htop
    simp [hn] at htop
  · rintro (rfl | h)
    · simp
    · apply BitVec.sshiftRight_eq_of_msb_false
      rw [BitVec.msb_eq_toInt]
      exact decide_eq_false (not_lt.mpr h)

end Conversions

def LoadsAgree (r : Registers) (writes : List (Fin NumTotalRegs × Option Word)) : Prop :=
  ∀ x ∈ writes, ∀ value, x.2 = some value → x.1 ≠ 0 → r.LoadPending x.1 → r loadValueReg = value

/-- The operands on which the operations of the host are those of MIPS I: no right shift of a negative `int`
stands for a logical one, unless its result is not seen, and no quotient overflows. -/
def HostAgrees (raw : Word) (r : Registers) : Prop :=
  let d := general (MipsI.rd raw)
  let s := r (general (MipsI.rs raw))
  let t := r (general (MipsI.rt raw))
  match (decode raw).opCode with
  | .srl => d = 0 ∨ r.LoadPending d ∨ MipsI.shamt raw = 0 ∨ 0 ≤ t.toInt
  | .srlv => d = 0 ∨ r.LoadPending d ∨ s.extractLsb' 0 5 = 0 ∨ 0 ≤ t.toInt
  | .div => ¬(s = signBit ∧ t = -1)
  | _ => True

section Follows

variable {raw pcAfter : Word} {r regs : Registers} {writes : List (Fin NumTotalRegs × Option Word)}

lemma followsMips_iff (hexec : (decode raw).execute r = Instruction.finish regs pcAfter)
    (hframe : ∀ j, j ∉ writes.map Prod.fst → regs j = r j) (hdest : ∀ x ∈ writes, x.1.val < 34) :
    FollowsMips raw r writes ↔ ∀ x ∈ writes, ∀ value, x.2 = some value → x.1 ≠ 0 →
      (if r.LoadPending x.1 then r loadValueReg else regs x.1) = value := by
  have hspecial {i : Fin NumTotalRegs} (hi : 34 ≤ i.val) : regs i = r i := by
    apply hframe
    intro hmem
    obtain ⟨x, hx, rfl⟩ := List.mem_map.mp hmem
    exact absurd (hdest x hx) (not_lt.mpr hi)
  have hpending {i : Fin NumTotalRegs} : regs.LoadPending i ↔ r.LoadPending i := by
    rw [LoadPending, LoadPending, hspecial (by decide)]
  have hlast {i : Fin NumTotalRegs} (hi : i.val < 34) (h0 : i ≠ 0) :
      Executed.advance ⟨regs, 0, 0, pcAfter⟩ i = if r.LoadPending i then r loadValueReg else regs i := by
    rw [Executed.advance_of_lt _ hi h0]
    simp only [hpending, hspecial (i := loadValueReg) (by decide)]
  constructor
  · rintro ⟨e, he, -, hvalue, -⟩ x hx value hv h0
    rw [hexec] at he
    obtain rfl := Prog.pure.inj he
    rw [← hlast (hdest x hx) h0]
    exact hvalue x hx value hv h0
  · intro h
    refine ⟨⟨regs, 0, 0, pcAfter⟩, hexec, Executed.advance_zero _, fun x hx value hv h0 => ?_, fun i hi hmem => ?_⟩
    · rw [hlast (hdest x hx) h0]
      exact h x hx value hv h0
    · rw [settled]
      by_cases h0 : i = 0
      · rw [if_pos h0, h0, Executed.advance_zero]
      · rw [if_neg h0, hlast (by omega) h0, hframe i hmem]

lemma followsMips_of_values (hexec : (decode raw).execute r = Instruction.finish regs pcAfter)
    (hframe : ∀ j, j ∉ writes.map Prod.fst → regs j = r j) (hdest : ∀ x ∈ writes, x.1.val < 34)
    (hvalue : ∀ x ∈ writes, ∀ value, x.2 = some value → regs x.1 = value) :
    FollowsMips raw r writes ↔ LoadsAgree r writes := by
  rw [followsMips_iff hexec hframe hdest]
  apply forall₂_congr
  intro x hx
  apply forall₃_congr
  intro value hv h0
  rw [hvalue x hx value hv]
  by_cases hp : r.LoadPending x.1
  · simp [hp]
  · simp [hp]

lemma general_isLt (num : BitVec 5) : (general num).val < 32 := num.isLt

lemma followsMips_set {d : Fin NumTotalRegs} {value value' : Word} (hd : d.val < 34)
    (hexec : (decode raw).execute r = Instruction.finish (r.set d value) pcAfter) (hvalue : value = value') :
    FollowsMips raw r [(d, some value')] ↔ LoadsAgree r [(d, some value')] := by
  apply followsMips_of_values hexec
  · intro j hj
    exact set_of_ne _ (by simpa using hj) _
  · intro x hx
    obtain rfl := List.mem_singleton.mp hx
    exact hd
  · intro x hx v hv
    obtain rfl := List.mem_singleton.mp hx
    rw [set_self, hvalue]
    exact Option.some.inj hv

lemma followsMips_general {num : BitVec 5} {value value' : Word}
    (hexec : (decode raw).execute r = Instruction.finish (r.set (general num) value) pcAfter)
    (hvalue : value = value') :
    FollowsMips raw r [(general num, some value')] ↔ LoadsAgree r [(general num, some value')] :=
  followsMips_set (lt_trans (general_isLt num) (by norm_num)) hexec hvalue

lemma followsMips_shift {num amount : BitVec 5} {t : Word} {n : ℕ}
    (hexec : (decode raw).execute r = Instruction.finish (r.set (general num) (t.sshiftRight n)) pcAfter)
    (hn : n = amount.toNat) :
    FollowsMips raw r [(general num, some (t >>> amount.toNat))] ↔
      LoadsAgree r [(general num, some (t >>> amount.toNat))] ∧
        (general num = 0 ∨ r.LoadPending (general num) ∨ amount = 0 ∨ 0 ≤ t.toInt) := by
  have hzero : amount = 0 ↔ amount.toNat = 0 := by
    rw [← BitVec.toNat_inj]
    rfl
  rw [followsMips_iff hexec (fun j hj => set_of_ne _ (by simpa using hj) _)
    (by simpa using lt_trans (general_isLt num) (by norm_num)), hn, hzero, ← sshiftRight_eq_iff]
  simp only [List.mem_singleton, forall_eq, Option.some.injEq, forall_eq', LoadsAgree, set_self]
  by_cases h0 : general num = 0
  · simp [h0]
  · by_cases hp : r.LoadPending (general num)
    · simp [h0, hp]
    · simp [h0, hp]

lemma followsMips_hiLo {lo hi : Word} {lo' hi' : Option Word}
    (hexec : (decode raw).execute r = Instruction.finish ((r.set loReg lo).set hiReg hi) pcAfter)
    (hlo : ∀ value, lo' = some value → lo = value) (hhi : ∀ value, hi' = some value → hi = value) :
    FollowsMips raw r [(loReg, lo'), (hiReg, hi')] ↔ LoadsAgree r [(loReg, lo'), (hiReg, hi')] := by
  apply followsMips_of_values hexec
  · intro j hj
    simp only [List.map_cons, List.map_nil, List.mem_cons, List.not_mem_nil, or_false, not_or] at hj
    rw [set_of_ne _ hj.2, set_of_ne _ hj.1]
  · intro x hx
    rcases List.mem_pair.mp hx with rfl | rfl
    · exact (by decide : loReg.val < 34)
    · exact (by decide : hiReg.val < 34)
  · simp only [List.mem_cons, List.not_mem_nil, or_false, forall_eq_or_imp, forall_eq]
    refine ⟨fun value hv => ?_, fun value hv => ?_⟩
    · rw [set_of_ne _ (by decide), set_self]
      exact hlo value hv
    · rw [set_self]
      exact hhi value hv

def registerOps : List OpCode := [.addu, .subu, .and, .or, .xor, .nor, .slt, .sltu, .mfhi, .mflo, .mthi, .mtlo]

lemma followsMips_register (hop : (decode raw).opCode ∈ registerOps)
    (h : MipsI.writes (decode raw).opCode raw r = some writes) :
    FollowsMips raw r writes ↔ LoadsAgree r writes := by
  have hexec := Instruction.execute.eq_def (decode raw) r
  cases heq : (decode raw).opCode <;> rw [heq] at hop h hexec
  case addu =>
    cases h
    exact followsMips_general hexec (add_eq_ofInt _ _)
  case subu =>
    cases h
    exact followsMips_general hexec (sub_eq_ofInt _ _)
  case and | or | xor | nor | slt | sltu | mfhi | mflo =>
    cases h
    exact followsMips_general hexec rfl
  case mthi | mtlo =>
    cases h
    exact followsMips_set (by decide) hexec rfl
  all_goals exact absurd hop (by decide)

def extendedOps : List OpCode := [.addiu, .andi, .ori, .xori, .lui, .slti, .sltiu]

lemma followsMips_immediate (hop : (decode raw).opCode ∈ extendedOps)
    (h : MipsI.writes (decode raw).opCode raw r = some writes) :
    FollowsMips raw r writes ↔ LoadsAgree r writes := by
  have hexec := Instruction.execute.eq_def (decode raw) r
  have himm := (decode_extra raw).1
  cases heq : (decode raw).opCode <;> rw [heq] at hop h hexec himm
  case addiu =>
    cases h
    refine followsMips_general hexec ?_
    rw [himm (by decide), add_eq_ofInt, toInt_immediate]
    rfl
  case andi | ori | xori =>
    cases h
    refine followsMips_general hexec ?_
    rw [himm (by decide), and_mask]
    rfl
  case lui =>
    cases h
    refine followsMips_general hexec ?_
    rw [himm (by decide), shiftLeft_immediate]
  case slti =>
    cases h
    refine followsMips_general hexec ?_
    rw [himm (by decide), toInt_immediate]
    rfl
  case sltiu =>
    cases h
    refine followsMips_general hexec ?_
    rw [himm (by decide)]
    rfl
  all_goals exact absurd hop (by decide)

def regularShiftOps : List OpCode := [.sll, .sra, .sllv, .srav]

lemma followsMips_regularShift (hop : (decode raw).opCode ∈ regularShiftOps)
    (h : MipsI.writes (decode raw).opCode raw r = some writes) :
    FollowsMips raw r writes ↔ LoadsAgree r writes := by
  have hexec := Instruction.execute.eq_def (decode raw) r
  have hshift := (decode_extra raw).2
  cases heq : (decode raw).opCode <;> rw [heq] at hop h hexec hshift
  case sll | sra =>
    cases h
    refine followsMips_general hexec ?_
    rw [hshift (by decide)]
    rfl
  case sllv | srav =>
    cases h
    refine followsMips_general hexec ?_
    rw [amount_eq]
    rfl
  all_goals exact absurd hop (by decide)

lemma followsMips_div (heq : (decode raw).opCode = .div) (h : MipsI.writes .div raw r = some writes) :
    FollowsMips raw r writes ↔
      LoadsAgree r writes ∧ ¬(r (general (MipsI.rs raw)) = signBit ∧ r (general (MipsI.rt raw)) = -1) := by
  have hexec := Instruction.execute.eq_def (decode raw) r
  rw [heq] at hexec
  rw [MipsI.writes] at h
  dsimp only at h hexec
  rw [decode_rs, decode_rt] at hexec
  by_cases hzero : r (general (MipsI.rt raw)) = 0
  · rw [if_pos hzero] at h
    cases h
    rw [if_pos hzero] at hexec
    have hagree : ¬(r (general (MipsI.rs raw)) = signBit ∧ r (general (MipsI.rt raw)) = -1) := by
      rw [hzero]
      exact fun h => absurd h.2 (by decide)
    exact (followsMips_hiLo hexec (by simp) (by simp)).trans (and_iff_left hagree).symm
  · rw [if_neg hzero] at h
    cases h
    rw [if_neg hzero] at hexec
    by_cases hover : r (general (MipsI.rs raw)) = signBit ∧ r (general (MipsI.rt raw)) = -1
    · rw [if_pos hover] at hexec
      refine iff_of_false ?_ (fun h => h.2 hover)
      rintro ⟨e, he, -⟩
      rw [hexec] at he
      cases he
    · rw [if_neg hover] at hexec
      refine (followsMips_hiLo hexec (fun v hv => ?_) (fun v hv => ?_)).trans (and_iff_left hover).symm
      · exact (sdiv_eq_ofInt _ _).trans (Option.some.inj hv)
      · exact (srem_eq_ofInt _ _).trans (Option.some.inj hv)

lemma followsMips_divu (heq : (decode raw).opCode = .divu) (h : MipsI.writes .divu raw r = some writes) :
    FollowsMips raw r writes ↔ LoadsAgree r writes := by
  have hexec := Instruction.execute.eq_def (decode raw) r
  rw [heq] at hexec
  rw [MipsI.writes] at h
  dsimp only at h hexec
  rw [decode_rs, decode_rt] at hexec
  by_cases hzero : r (general (MipsI.rt raw)) = 0
  · rw [if_pos hzero] at h
    cases h
    rw [if_pos hzero] at hexec
    exact followsMips_hiLo hexec (by simp) (by simp)
  · rw [if_neg hzero] at h
    cases h
    rw [if_neg hzero] at hexec
    refine followsMips_hiLo hexec (fun v hv => ?_) (fun v hv => ?_)
    · rw [← Option.some.inj hv, ← BitVec.toNat_udiv, BitVec.ofNat_toNat, BitVec.setWidth_eq]
    · rw [← Option.some.inj hv, ← BitVec.toNat_umod, BitVec.ofNat_toNat, BitVec.setWidth_eq]

end Follows

/-- An arithmetic or logical instruction does what MIPS I defines exactly when the host computes the same and no
other value is pending into the destination. -/
theorem alu_follows_mips_iff (raw : Word) (r : Registers) (writes : List (Fin NumTotalRegs × Option Word))
    (h : MipsI.writes (decode raw).opCode raw r = some writes) :
    FollowsMips raw r writes ↔ LoadsAgree r writes ∧ HostAgrees raw r := by
  rw [HostAgrees]
  cases hop : (decode raw).opCode <;> rw [hop] at h
  case addu | subu | and | or | xor | nor | slt | sltu | mfhi | mflo | mthi | mtlo =>
    exact (followsMips_register (by rw [hop]; decide) (by rw [hop]; exact h)).trans (and_iff_left trivial).symm
  case addiu | andi | ori | xori | lui | slti | sltiu =>
    exact (followsMips_immediate (by rw [hop]; decide) (by rw [hop]; exact h)).trans (and_iff_left trivial).symm
  case sll | sra | sllv | srav =>
    exact (followsMips_regularShift (by rw [hop]; decide) (by rw [hop]; exact h)).trans (and_iff_left trivial).symm
  case srl =>
    have hexec := Instruction.execute.eq_def (decode raw) r
    have hshift := (decode_extra raw).2
    rw [hop] at hexec hshift
    cases h
    exact followsMips_shift hexec (by rw [hshift (by decide)]; rfl)
  case srlv =>
    have hexec := Instruction.execute.eq_def (decode raw) r
    rw [hop] at hexec
    cases h
    exact followsMips_shift hexec (amount_eq _)
  case div => exact followsMips_div hop h
  case divu => exact (followsMips_divu hop h).trans (and_iff_left trivial).symm
  all_goals cases h

def operands (a b : Word) : Registers := (set (set (fun _ => 0) 1 a) 2 b)

theorem alu_follows_mips_addu : FollowsMips 0x00221821 (operands 0x7fffffff 1) [(3, some 0x80000000)] := by
  refine (alu_follows_mips_iff 0x00221821 (operands 0x7fffffff 1) [(3, some 0x80000000)] rfl).mpr ⟨?_, trivial⟩
  intro x hx value hv h0 hp
  obtain rfl := List.mem_singleton.mp hx
  exact absurd hp (by decide)

/-- `SRL $3, $1, 1` copies the sign bit. -/
theorem srl_copies_sign : operands 0x80000000 0 0 = 0 ∧
    MipsI.writes (decode 0x00011842).opCode 0x00011842 (operands 0x80000000 0) = some [(3, some 0x40000000)] ∧
    ¬FollowsMips 0x00011842 (operands 0x80000000 0) [(3, some 0x40000000)] := by
  refine ⟨by decide, rfl, fun h => ?_⟩
  have hnum : FollowsMips 0x00011842 (operands 0x80000000 0)
      [(general 3, some ((0x80000000 : Word) >>> (1 : BitVec 5).toNat))] := h
  have hshift := ((followsMips_shift rfl rfl).mp hnum).2
  exact absurd hshift (by decide)

section Overflow

lemma bmod_cases {x : ℤ} (hlo : -2 ^ 32 ≤ x) (hhi : x < 2 ^ 32) :
    x.bmod (2 ^ 32) = if x < -2 ^ 31 then x + 2 ^ 32 else if x < 2 ^ 31 then x else x - 2 ^ 32 := by
  rw [Int.bmod_def]
  norm_num at hlo hhi ⊢
  omega

lemma add_overflow_iff (s t : Word) :
    (!negative (s ^^^ t) && negative (s ^^^ (s + t))) = true ↔
    ¬(-2 ^ 31 ≤ s.toInt + t.toInt ∧ s.toInt + t.toInt < 2 ^ 31) := by
  have hs := s.le_toInt
  have hs' := s.toInt_lt
  have ht := t.le_toInt
  have ht' := t.toInt_lt
  rw [negative_eq_msb, negative_eq_msb, BitVec.msb_xor, BitVec.msb_xor, BitVec.msb_eq_toInt, BitVec.msb_eq_toInt,
    BitVec.msb_eq_toInt, BitVec.toInt_add, bmod_cases (by omega) (by omega)]
  by_cases h : s.toInt < 0
  · by_cases h' : t.toInt < 0
    · simp only [h, h', decide_true]
      split_ifs <;> simp <;> omega
    · simp [h, h']
      omega
  · by_cases h' : t.toInt < 0
    · simp [h, h']
      omega
    · simp only [h, h', decide_false]
      split_ifs <;> simp <;> omega

/-- The test of `SUB`: the operands have different signs, and the difference has that of the second one. -/
lemma sub_overflow_iff (s t : Word) :
    (negative (s ^^^ t) && negative (s ^^^ (s - t))) = true ↔
    ¬(-2 ^ 31 ≤ s.toInt - t.toInt ∧ s.toInt - t.toInt < 2 ^ 31) := by
  have hs := s.le_toInt
  have hs' := s.toInt_lt
  have ht := t.le_toInt
  have ht' := t.toInt_lt
  rw [negative_eq_msb, negative_eq_msb, BitVec.msb_xor, BitVec.msb_xor, BitVec.msb_eq_toInt, BitVec.msb_eq_toInt,
    BitVec.msb_eq_toInt, BitVec.toInt_sub, bmod_cases (by omega) (by omega)]
  by_cases h : s.toInt < 0
  · by_cases h' : t.toInt < 0
    · simp [h, h']
      omega
    · simp only [h, h', decide_true, decide_false]
      split_ifs <;> simp <;> omega
  · by_cases h' : t.toInt < 0
    · simp only [h, h', decide_true, decide_false]
      split_ifs <;> simp <;> omega
    · simp [h, h']
      omega

def MipsI.checked (op : OpCode) (raw : Word) (r : Registers) : Option (Fin NumTotalRegs × ℤ) :=
  let s := r (general (rs raw))
  let t := r (general (rt raw))
  match op with
  | .add => some (general (rd raw), s.toInt + t.toInt)
  | .addi => some (general (rt raw), s.toInt + (immediate raw).toInt)
  | .sub => some (general (rd raw), s.toInt - t.toInt)
  | _ => none

variable {raw : Word} {r : Registers} {num : BitVec 5} {x : ℤ}

lemma toInt_of_fits {w : Word} (hw : w = BitVec.ofInt 32 x) (h : -2 ^ 31 ≤ x ∧ x < 2 ^ 31) : w.toInt = x := by
  rw [hw, BitVec.toInt_ofInt, Int.bmod_eq_of_le_mul_two (by omega) (by omega)]

lemma MipsI.checked_execute {d : Fin NumTotalRegs} (h : checked (decode raw).opCode raw r = some (d, x)) :
    ∃ (num : BitVec 5) (test : Bool) (value : Word), d = general num ∧ value = BitVec.ofInt 32 x ∧
      (test = true ↔ ¬(-2 ^ 31 ≤ x ∧ x < 2 ^ 31)) ∧
      (decode raw).execute r = if test then Exec.raiseException .overflowException 0
        else Instruction.finish (r.set (general num) value) (r nextPCReg + 4) := by
  have hexec := Instruction.execute.eq_def (decode raw) r
  have himm := (decode_extra raw).1
  cases hop : (decode raw).opCode <;> rw [hop] at h hexec himm
  case add =>
    cases h
    exact ⟨_, _, _, rfl, add_eq_ofInt _ _, add_overflow_iff _ _, hexec⟩
  case addi =>
    cases h
    have hextra := himm (by decide)
    have hx : (r (general (rs raw))).toInt + (immediate raw).toInt =
        (decode raw).extra.toInt + (r (general (rs raw))).toInt := by
      rw [hextra, toInt_immediate, add_comm]
    refine ⟨_, _, _, rfl, ?_, ?_, hexec⟩
    · rw [add_eq_ofInt, decode_rs, hextra, toInt_immediate]
    · rw [hx, ← add_overflow_iff, decode_rs, BitVec.xor_comm, BitVec.add_comm]
  case sub =>
    cases h
    exact ⟨_, _, _, rfl, sub_eq_ofInt _ _, sub_overflow_iff _ _, hexec⟩
  all_goals cases h

lemma raised_of_lt (r : Registers) (badVAddr : Word) {i : Fin NumTotalRegs} (hi : i.val < 37) (h0 : i ≠ 0) :
    r.raised badVAddr i = if r.LoadPending i then r loadValueReg else r i := by
  have hne {j : Fin NumTotalRegs} (hj : 37 ≤ j.val) : i ≠ j := by
    rintro rfl
    omega
  rw [raised, delayedLoad, set_of_ne _ h0, set_of_ne _ (hne (by decide)), set_of_ne _ (hne (by decide)),
    set_of_ne r (by decide), set_of_ne r (by decide)]
  exact if_congr eq_comm rfl (set_of_ne _ (hne (by decide)) _)

lemma raised_zero (r : Registers) (badVAddr : Word) : r.raised badVAddr 0 = 0 := by
  rw [raised, delayedLoad, set_self]

/-- `ADD`, `ADDI` and `SUB` trap exactly when the result does not fit; then only the pending load has been
completed when the handler is entered, and otherwise the destination gets the result. -/
theorem overflow_traps_exact (raw : Word) (r : Registers) (d : Fin NumTotalRegs) (x : ℤ)
    (h : MipsI.checked (decode raw).opCode raw r = some (d, x)) :
    ((decode raw).execute r = Exec.raiseException .overflowException 0 ↔ ¬(-2 ^ 31 ≤ x ∧ x < 2 ^ 31)) ∧
    (¬(-2 ^ 31 ≤ x ∧ x < 2 ^ 31) → (d = 0 → r.raised 0 d = 0) ∧
      (d ≠ 0 → r.raised 0 d = if r.LoadPending d then r loadValueReg else r d) ∧
      (r.raised 0 pcReg = if r.LoadPending pcReg then r loadValueReg else r pcReg) ∧
      (r.raised 0 nextPCReg = if r.LoadPending nextPCReg then r loadValueReg else r nextPCReg)) ∧
    (-2 ^ 31 ≤ x ∧ x < 2 ^ 31 → ∃ e, (decode raw).execute r = pure e ∧ (e.registers d).toInt = x ∧
      (d ≠ 0 → ¬r.LoadPending d → (e.advance d).toInt = x)) := by
  obtain ⟨num, test, value, rfl, hvalue, htest, hexec⟩ := MipsI.checked_execute h
  have hlt := general_isLt num
  refine ⟨?_, fun hbig => ⟨fun h0 => ?_, fun h0 => ?_, ?_, ?_⟩, fun hfit => ?_⟩
  · rw [← htest, hexec]
    cases test with
    | true => simp
    | false =>
      simp only [Bool.false_eq_true, if_false, iff_false]
      intro he
      cases he
  · rw [h0, raised_zero]
  · exact raised_of_lt _ _ (by omega) h0
  · exact raised_of_lt _ _ (by decide) (by decide)
  · exact raised_of_lt _ _ (by decide) (by decide)
  · have hno : test = false := by
      rw [← Bool.not_eq_true, htest]
      exact not_not.mpr hfit
    rw [hno] at hexec
    have hx := toInt_of_fits hvalue hfit
    refine ⟨_, hexec, ?_, fun h0 hp => ?_⟩
    · dsimp only
      rw [set_self, hx]
    · have hne {j : Fin NumTotalRegs} (hj : 34 ≤ j.val) : j ≠ general num := by
        rintro rfl
        omega
      have hkept : ¬(r.set (general num) value).LoadPending (general num) := by
        rw [LoadPending, set_of_ne _ (hne (by decide))]
        exact hp
      rw [Executed.advance_of_lt _ (by omega) h0]
      dsimp only
      rw [if_neg hkept, set_self, hx]

theorem overflow_traps_exact_add :
    (decode 0x00430820).execute ((operands 0 0x7fffffff).set 3 1) = Exec.raiseException .overflowException 0 ∧
      Registers.raised 0 ((operands 0 0x7fffffff).set 3 1) 1 = (operands 0 0x7fffffff).set 3 1 1 := by
  obtain ⟨htrap, hentry, -⟩ :=
    overflow_traps_exact 0x00430820 ((operands 0 0x7fffffff).set 3 1) 1 0x80000000 (by decide)
  have hbig : ¬(-2 ^ 31 ≤ (0x80000000 : ℤ) ∧ (0x80000000 : ℤ) < 2 ^ 31) := by decide
  exact ⟨htrap.mpr hbig, ((hentry hbig).2.1 (by decide)).trans (if_neg (by decide))⟩

/-- A load is pending into the destination of an `ADD $1, $2, $2` that overflows. -/
theorem overflow_with_pending_load : ∃ r : Registers, r 0 = 0 ∧
    (decode 0x00420820).execute r = Exec.raiseException .overflowException 0 ∧ general (decode 0x00420820).rd = 1 ∧
    r.raised 0 1 ≠ r 1 :=
  ⟨((operands 0 0x7fffffff).set loadReg 1).set loadValueReg 5, by decide, rfl, by decide, by decide⟩

end Overflow

end NachosFileSys
