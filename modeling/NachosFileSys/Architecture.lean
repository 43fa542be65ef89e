import NachosFileSys.Lib.Mips
import NachosFileSys.RegisterFile
import NachosFileSys.Unaligned

/-! The simulated machine against the architecture: every run of a user program, with the interrupts and the page
faults in it, is one of MIPS I, as far as its instructions keep away from what the simulator does differently. -/

namespace NachosFileSys

open Lib Lib.Bytes Lib.Programs Registers

section Decoding

def mnemonicOf : OpCode → Option Mips.Mnemonic
  | .add => some .add
  | .addi => some .addi
  | .addiu => some (.operateImmediate .addiu)
  | .addu => some (.operate .addu)
  | .and => some (.operate .and)
  | .andi => some (.operateImmediate .andi)
  | .beq => some (.branch .eq false)
  | .bgez => some (.branch .gez false)
  | .bgezal => some (.branch .gez true)
  | .bgtz => some (.branch .gtz false)
  | .blez => some (.branch .lez false)
  | .bltz => some (.branch .ltz false)
  | .bltzal => some (.branch .ltz true)
  | .bne => some (.branch .ne false)
  | .div => some (.multiply .div)
  | .divu => some (.multiply .divu)
  | .j => some (.jump false)
  | .jal => some (.jump true)
  | .jalr => some .jalr
  | .jr => some .jr
  | .lb => some (.load .byte true)
  | .lbu => some (.load .byte false)
  | .lh => some (.load .half true)
  | .lhu => some (.load .half false)
  | .lui => some (.operateImmediate .lui)
  | .lw => some (.load .word true)
  | .lwl => some .lwl
  | .lwr => some .lwr
  | .mfhi => some .mfhi
  | .mflo => some .mflo
  | .mthi => some .mthi
  | .mtlo => some .mtlo
  | .mult => some (.multiply .mult)
  | .multu => some (.multiply .multu)
  | .nor => some (.operate .nor)
  | .or => some (.operate .or)
  | .ori => some (.operateImmediate .ori)
  | .sb => some (.store .byte)
  | .sh => some (.store .half)
  | .sll => some (.shift .sll)
  | .sllv => some (.operate .sllv)
  | .slt => some (.operate .slt)
  | .slti => some (.operateImmediate .slti)
  | .sltiu => some (.operateImmediate .sltiu)
  | .sltu => some (.operate .sltu)
  | .sra => some (.shift .sra)
  | .srav => some (.operate .srav)
  | .srl => some (.shift .srl)
  | .srlv => some (.operate .srlv)
  | .sub => some .sub
  | .subu => some (.operate .subu)
  | .sw => some (.store .word)
  | .swl => some .swl
  | .swr => some .swr
  | .xor => some (.operate .xor)
  | .xori => some (.operateImmediate .xori)
  | .syscall => some .syscall
  | .unimp | .res => none

def OpInfo.code : OpInfo → Option OpCode
  | .op c => some c
  | _ => none

lemma special_eq : ∀ funct : BitVec 6,
    Mips.Mnemonic.special funct = mnemonicOf (specialTable.getD funct.toNat .res) := by
  decide

lemma regimm_eq : ∀ rt : BitVec 5, Mips.Mnemonic.regimm rt =
    mnemonicOf (if rt = 0 then .bltz else if rt = 1 then .bgez else if rt = 0x10 then .bltzal
      else if rt = 0x11 then .bgezal else .unimp) := by
  decide

lemma primary_eq : ∀ opcode : BitVec 6, opcode ≠ 0 → opcode ≠ 1 →
    (opTable.getD opcode.toNat (.op .res, .ifmt)).1.code.map mnemonicOf = some (Mips.Mnemonic.primary opcode) := by
  decide

lemma mnemonic_decode (raw : Word) : Mips.Mnemonic.of raw = mnemonicOf (decode raw).opCode := by
  rw [Mips.Mnemonic.of, decode]
  dsimp only
  by_cases h₀ : Mips.opcode raw = 0
  · have hrow : raw.extractLsb' 26 6 = 0 := h₀
    rw [if_pos h₀, hrow]
    exact special_eq (Mips.funct raw)
  · rw [if_neg h₀]
    by_cases h₁ : Mips.opcode raw = 1
    · have hrow : raw.extractLsb' 26 6 = 1 := h₁
      rw [if_pos h₁, hrow]
      exact regimm_eq (Mips.rt raw)
    · rw [if_neg h₁]
      have hrow := primary_eq (Mips.opcode raw) h₀ h₁
      change (opTable.getD (raw.extractLsb' 26 6).toNat (.op .res, .ifmt)).1.code.map mnemonicOf = _ at hrow
      generalize opTable.getD (raw.extractLsb' 26 6).toNat (.op .res, .ifmt) = row at hrow
      obtain ⟨info, format⟩ := row
      cases info with
      | op c => exact (Option.some.inj hrow).symm
      | special => cases hrow
      | bcond => cases hrow

def offsetOps : List OpCode :=
  [.beq, .bne, .blez, .bgtz, .bltz, .bgez, .bltzal, .bgezal, .lb, .lbu, .lh, .lhu, .lw, .lwl, .lwr, .sb, .sh, .sw,
    .swl, .swr]

def jumpOps : List OpCode := [.j, .jal]

def inFormat : OpInfo × OpFormat → Bool
  | (.op c, .ifmt) => c ∉ jumpOps
  | (.op c, .jfmt) => c ∉ offsetOps
  | (.op c, .rfmt) => c ∉ offsetOps ∧ c ∉ jumpOps
  | (.special, _) => true
  | (.bcond, .ifmt) => true
  | (.bcond, _) => false

lemma decode_offset (raw : Word) :
    ((decode raw).opCode ∈ offsetOps → (decode raw).extra = (Mips.offset raw).signExtend 32) ∧
      ((decode raw).opCode ∈ jumpOps → (decode raw).extra = (Mips.index raw).setWidth 32) := by
  have hrow : inFormat (opTable.getD (raw.extractLsb' 26 6).toNat (.op .res, .ifmt)) = true :=
    getD_of_forall (p := (inFormat · = true)) (by decide) (by decide) _
  have hspecial : specialTable.getD (raw.extractLsb' 0 6).toNat .res ∉ offsetOps ++ jumpOps :=
    getD_of_forall (p := (· ∉ offsetOps ++ jumpOps)) (by decide) (by decide) _
  rw [decode]
  dsimp only
  generalize opTable.getD (raw.extractLsb' 26 6).toNat (.op .res, .ifmt) = row at hrow
  obtain ⟨info, format⟩ := row
  cases info with
  | op c =>
    cases format with
    | ifmt => exact ⟨fun _ => rfl, fun h => by simp_all [inFormat]⟩
    | jfmt => exact ⟨fun h => by simp_all [inFormat], fun _ => rfl⟩
    | rfmt => exact ⟨fun h => by simp_all [inFormat], fun h => by simp_all [inFormat]⟩
  | special =>
    rw [List.mem_append, not_or] at hspecial
    exact ⟨fun h => absurd h hspecial.1, fun h => absurd h hspecial.2⟩
  | bcond =>
    cases format with
    | ifmt =>
      refine ⟨fun _ => rfl, fun h => ?_⟩
      dsimp only at h
      split_ifs at h <;> exact absurd h (by decide)
    | jfmt => cases hrow
    | rfmt => cases hrow

end Decoding

section Registers

/-- The state of the architecture that the registers and the memory of a user program stand for. -/
def architectural (space : ℕ) (r : Registers) (m : PagedMachine) : Mips.State where
  file := ⟨fun i => if i = 0 then 0 else r (general i), if_pos rfl⟩
  hi := r hiReg
  lo := r loReg
  pc := r pcReg
  next := r nextPCReg
  slot := if r loadReg = 0 then none else some ((r loadReg).setWidth 5, r loadValueReg)
  memory := fun a =>
    if a.toNat / 128 < m.numPages.getD space 0 then
      m.contentsOf space (a.toNat / 128) ⟨a.toNat % 128, Nat.mod_lt _ (by decide)⟩
    else 0
  size := 128 * m.numPages.getD space 0

variable {space : ℕ} {r r' : Registers} {m m' : PagedMachine} {d : BitVec 5} {v w pcAfter : Word}

lemma reg_architectural (h : r 0 = 0) (i : BitVec 5) : (architectural space r m).file.reg i = r (general i) := by
  change (if i = 0 then 0 else r (general i)) = r (general i)
  split_ifs with hi
  · rw [hi]
    exact h.symm
  · rfl

lemma general_ne {num : BitVec 5} {i : Fin NumTotalRegs} (hi : 32 ≤ i.val) : i ≠ general num := by
  rintro rfl
  exact absurd (general_isLt num) (not_lt.mpr hi)

lemma general_inj {a b : BitVec 5} (h : general a = general b) : a = b := by
  have hval : (general a).val = (general b).val := by rw [h]
  exact BitVec.eq_of_toNat_eq hval

lemma architectural_set : architectural space (r.set (general d) v) m =
    { architectural space r m with file := (architectural space r m).file.write d v } := by
  have hkept {i : Fin NumTotalRegs} (hi : 32 ≤ i.val) : r.set (general d) v i = r i :=
    set_of_ne _ (general_ne hi) _
  refine Mips.State.ext (Mips.File.ext (funext fun i => ?_)) (hkept (i := hiReg) (by decide))
    (hkept (i := loReg) (by decide)) (hkept (i := pcReg) (by decide))
    (hkept (i := nextPCReg) (by decide)) ?_ rfl rfl
  · simp only [architectural, Mips.File.write]
    by_cases h₀ : i = 0
    · simp [h₀]
    · by_cases hi : i = d
      · subst hi
        rw [if_neg h₀, if_pos ⟨rfl, h₀⟩, set_self]
      · rw [if_neg h₀, set_of_ne _ (fun h => hi (general_inj h)),
            if_neg (fun h : i = d ∧ i ≠ 0 => hi h.1), if_neg h₀]
  · simp only [architectural, hkept (i := loadReg) (by decide), hkept (i := loadValueReg) (by decide)]

lemma arrived_architectural (hs : (r loadReg).toNat < 32) (i : BitVec 5) :
    (architectural space r m).arrived.reg i =
      if i = 0 then 0 else if r.LoadPending (general i) then r loadValueReg else r (general i) := by
  have hnum : (r loadReg).setWidth 5 = i ↔ r.LoadPending (general i) := by
    rw [← BitVec.toNat_inj, BitVec.toNat_setWidth, Nat.mod_eq_of_lt hs]
    rfl
  have hzero : r loadReg = 0 ↔ (r loadReg).toNat = 0 := by
    rw [← BitVec.toNat_inj]
    rfl
  by_cases h₀ : i = 0
  · rw [h₀, if_pos rfl]
    exact Mips.File.zero _
  · rw [if_neg h₀]
    by_cases hr : r loadReg = 0
    · have hslot : (architectural space r m).slot = none := if_pos hr
      have hp : ¬r.LoadPending (general i) := by
        rw [← hnum, hr]
        exact fun h => h₀ h.symm
      rw [Mips.State.arrived_of_none hslot, if_neg hp]
      exact if_neg h₀
    · have hslot : (architectural space r m).slot = some ((r loadReg).setWidth 5, r loadValueReg) := if_neg hr
      rw [Mips.State.arrived, hslot]
      simp only [Option.elim, Mips.File.write, architectural, h₀, if_false, ne_eq, not_false_eq_true, and_true]
      exact if_congr (eq_comm.trans hnum) rfl rfl

lemma architectural_delayedLoad (hs : (r loadReg).toNat < 32) :
    architectural space (delayedLoad w v r) m =
      { architectural space r m with
        file := (architectural space r m).arrived
        slot := if w = 0 then none else some (w.setWidth 5, v) } := by
  have hkept {i : Fin NumTotalRegs} (hi : 32 ≤ i.val) (hi' : i.val < 37) : delayedLoad w v r i = r i := by
    have h₀ : i ≠ 0 := fun h => absurd hi (by rw [h]; decide)
    rw [delayedLoad_of_lt _ _ _ hi', if_neg h₀, if_neg (by omega)]
  refine Mips.State.ext (Mips.File.ext (funext fun i => ?_)) (hkept (i := hiReg) (by decide) (by decide))
    (hkept (i := loReg) (by decide) (by decide)) (hkept (i := pcReg) (by decide) (by decide))
    (hkept (i := nextPCReg) (by decide) (by decide)) ?_ rfl rfl
  · rw [arrived_architectural hs]
    simp only [architectural]
    by_cases h₀ : i = 0
    · simp [h₀]
    · rw [if_neg h₀, if_neg h₀, delayedLoad_of_lt _ _ _ (general_lt i), if_neg (UserMachine.general_ne_zero h₀)]
      exact if_congr eq_comm rfl rfl
  · simp only [architectural, delayedLoad_loadReg, delayedLoad_loadValueReg]

lemma architectural_advance {e : Executed} (hs : (e.registers loadReg).toNat < 32) :
    architectural space e.advance m =
      { architectural space e.registers m with
        file := (architectural space e.registers m).arrived
        slot := if e.nextLoadReg = 0 then none else some (e.nextLoadReg.setWidth 5, e.nextLoadValue)
        pc := e.registers nextPCReg
        next := e.pcAfter } := by
  have hpc (r : Registers) : architectural space (((r.set prevPCReg (r pcReg)).set pcReg
      ((r.set prevPCReg (r pcReg)) nextPCReg)).set nextPCReg e.pcAfter) m =
        { architectural space r m with pc := r nextPCReg, next := e.pcAfter } := by
    have hgeneral (i : BitVec 5) : (((r.set prevPCReg (r pcReg)).set pcReg
        ((r.set prevPCReg (r pcReg)) nextPCReg)).set nextPCReg e.pcAfter) (general i) = r (general i) := by
      rw [set_of_ne _ (general_ne (by decide)).symm, set_of_ne _ (general_ne (by decide)).symm,
        set_of_ne _ (general_ne (by decide)).symm]
    refine Mips.State.ext (Mips.File.ext (funext fun i => ?_)) rfl rfl rfl rfl rfl rfl rfl
    simp only [architectural, hgeneral]
  have hnext := delayedLoad_of_lt e.nextLoadReg e.nextLoadValue e.registers (i := nextPCReg) (by decide)
  have hnum : ¬nextPCReg.val = (e.registers loadReg).toNat := by
    intro h
    have : nextPCReg.val = 35 := rfl
    omega
  rw [if_neg (by decide), if_neg hnum] at hnext
  rw [Executed.advance, hpc, architectural_delayedLoad hs, hnext]

end Registers

def ExceptionType.trap : ExceptionType → Option Mips.Trap
  | .addressErrorException => some .addressError
  | .overflowException => some .overflow
  | .syscallException => some .syscall
  | .illegalInstrException => some .reserved
  | _ => none

namespace PagedMachine

variable {space : ℕ} {r : Registers} {m m' : PagedMachine} {a : Word} {n : ℕ}

lemma architectural_congr (hn : m'.numPages.getD space 0 = m.numPages.getD space 0)
    (hc : ∀ page < m.numPages.getD space 0, m'.contentsOf space page = m.contentsOf space page) :
    architectural space r m' = architectural space r m := by
  refine Mips.State.ext rfl rfl rfl rfl rfl rfl (funext fun a => ?_) (congrArg (128 * ·) hn)
  simp only [architectural, hn]
  split_ifs with h
  · rw [hc _ h]
  · rfl

/-- An access is translated only where the architecture allows it, and where it is not for that reason there is an
address error. -/
lemma translate_valid (writing : Bool) (hn : n = 1 ∨ n = 2 ∨ n = 4) :
    (∀ x, m.translate space a.toInt n writing = .ok x → (architectural space r m).Valid a n) ∧
      ∀ which, m.translate space a.toInt n writing = .error which →
        which.trap = none ∨ which.trap = some .addressError ∧ ¬(architectural space r m).Valid a n := by
  have hmod := toInt_emod a
  have hlt := a.isLt
  have hvalid : (architectural space r m).Valid a n ↔
      a.toNat % n = 0 ∧ a.toNat + n ≤ 128 * m.numPages.getD space 0 := Iff.rfl
  rw [hvalid, translate, hmod]
  dsimp only
  split_ifs with h₁ h₂ h₃ h₄ h₅
  · refine ⟨fun x hx => (by cases hx), fun which hw => .inr ⟨?_, ?_⟩⟩
    · cases hw
      rfl
    · rcases hn with rfl | rfl | rfl <;> omega
  · refine ⟨fun x hx => (by cases hx), fun which hw => .inr ⟨?_, ?_⟩⟩
    · cases hw
      rfl
    · rcases hn with rfl | rfl | rfl <;> omega
  · refine ⟨fun x hx => (by cases hx), fun which hw => .inl ?_⟩
    cases hw
    rfl
  · refine ⟨fun x hx => (by cases hx), fun which hw => .inl ?_⟩
    cases hw
    rfl
  · refine ⟨fun x hx => (by cases hx), fun which hw => .inl ?_⟩
    cases hw
    rfl
  · refine ⟨fun x _ => ?_, fun which hw => (by cases hw)⟩
    rcases hn with rfl | rfl | rfl <;> omega

lemma Located.byte_architectural {pa : ℤ} (h : m.Located space a.toInt n pa m')
    (hn : n = 1 ∨ n = 2 ∨ n = 4) {c : ℕ}
    (hc : c < n) : m'.mainMemory (pa + c) = (architectural space r m).memory (a + BitVec.ofNat 32 c) := by
  have hsize : (n : ℤ) = 1 ∨ (n : ℤ) = 2 ∨ (n : ℤ) = 4 := by omega
  have hpage := h.resident.1
  have hinside := h.inside hsize
  have hbyte := h.byte hsize (i := c) (by omega) (by omega)
  have hmod := toInt_emod a
  have hlt := a.isLt
  simp only [hmod] at hpage hinside hbyte
  have hsum : (a + BitVec.ofNat 32 c).toNat = a.toNat + c := by
    rw [BitVec.toNat_add, BitVec.toNat_ofNat]
    omega
  have hquot : (a.toNat + c) / 128 = ((a.toNat : ℤ) / 128).toNat := by omega
  have hrem : (a.toNat + c) % 128 = ((a.toNat : ℤ) % 128 + c).toNat := by omega
  rw [hbyte]
  simp only [architectural, hsum, hquot, hrem]
  exact (if_pos hpage).symm

def valueAt (s : Mips.State) (a : Word) (n : ℕ) : Word :=
  if n = 1 then (s.memory a).signExtend 32 else if n = 2 then (s.half a).setWidth 32 else s.word a

lemma Located.value_architectural {pa data : ℤ} (h : m.Located space a.toInt n pa m') (hn : n = 1 ∨ n = 2 ∨ n = 4)
    (hd : fetchData m'.mainMemory pa n = .ok data) :
    BitVec.ofInt 32 data = valueAt (architectural space r m) a n := by
  have hbyte {c : ℕ} (hc : c < n) := h.byte_architectural (r := r) hn hc
  have hzero : a + BitVec.ofNat 32 0 = a := BitVec.add_zero a
  rw [fetchData] at hd
  rcases hn with rfl | rfl | rfl
  · have h₀ := hbyte (c := 0) (by omega)
    rw [Nat.cast_zero, add_zero, hzero] at h₀
    rw [if_pos (by norm_num)] at hd
    cases hd
    rw [h₀]
    rfl
  · have h₀ := hbyte (c := 0) (by omega)
    have h₁ := hbyte (c := 1) (by omega)
    rw [Nat.cast_zero, add_zero, hzero] at h₀
    rw [Nat.cast_one] at h₁
    rw [if_neg (by norm_num), if_pos (by norm_num)] at hd
    cases hd
    rw [h₀, h₁]
    apply BitVec.eq_of_toNat_eq
    have hcast (x y : ℕ) : (x : ℤ) + 256 * y = ((x + 256 * y : ℕ) : ℤ) := by push_cast; rfl
    rw [hcast, BitVec.ofInt_natCast, BitVec.toNat_ofNat, valueAt,
      if_neg (by decide), if_pos rfl, BitVec.toNat_setWidth,
      Mips.State.half, Lib.Words.toNat_append, add_comm, mul_comm]
    rfl
  · rw [if_neg (by norm_num), if_neg (by norm_num), if_pos (by norm_num)] at hd
    cases hd
    rw [BitVec.ofInt_toInt, valueAt, if_neg (by decide), if_neg (by decide), Mips.State.word, wordOf, wordOf,
      hbyte (by omega), hbyte (by omega), hbyte (by omega), hbyte (by omega)]

lemma Located.architectural_eq {pa : ℤ} (h : m.Located space a.toInt n pa m') :
    architectural space r m' = architectural space r m := by
  apply architectural_congr
  · rw [h.numPages]
  · intro page _
    exact h.contents_eq page

lemma Located.architectural_store {pa : ℤ} (h : m.Located space a.toInt n pa m') (ha : m.Apart space)
    (hn : n = 1 ∨ n = 2 ∨ n = 4) (value : Word) :
    architectural space r { m' with mainMemory := stored m'.mainMemory pa n value.toInt } =
      { architectural space r m with memory := (architectural space r m).stored a n (byteOf value) } := by
  have hsize : (n : ℤ) = 1 ∨ (n : ℤ) = 2 ∨ (n : ℤ) = 4 := by omega
  have hpage := h.resident.1
  have hinside := h.inside hsize
  have hmod := toInt_emod a
  have hlt := a.isLt
  simp only [hmod] at hpage hinside
  refine Mips.State.ext rfl rfl rfl rfl rfl rfl (funext fun x => ?_)
    (congrArg (fun l : List ℕ => 128 * l.getD space 0) h.numPages)
  have hx := x.isLt
  have hpages : m'.numPages.getD space 0 = m.numPages.getD space 0 := by rw [h.numPages]
  simp only [architectural, Mips.State.stored]
  by_cases hp : x.toNat / 128 < m.numPages.getD space 0
  · rw [if_pos (hpages.symm ▸ hp), if_pos hp, h.store ha hsize value.toInt hp, hmod]
    by_cases hsame : x.toNat / 128 = ((a.toNat : ℤ) / 128).toNat
    · rw [if_pos hsame, patched, BitVec.ofInt_toInt]
      dsimp only
      by_cases hin : a.toNat ≤ x.toNat ∧ x.toNat < a.toNat + n
      · rw [if_pos hin, if_pos (by omega)]
        congr 1
        omega
      · rw [if_neg hin, if_neg (by omega)]
    · rw [if_neg hsame, if_neg (by omega)]
  · have hpage' : ((a.toNat : ℤ) / 128).toNat < m.numPages.getD space 0 := hpage
    rw [if_neg (hpages.symm ▸ hp), if_neg (by omega), if_neg hp]

end PagedMachine

inductive Matches (space : ℕ) :
    Except (Trap × PagedMachine) (Executed × PagedMachine) → Except Mips.Trap Mips.State → Prop
  | completes {e : Executed} {m : PagedMachine} {s : Mips.State} (hs : architectural space e.advance m = s)
      (hl : e.nextLoadReg.toNat < 32) (ha : m.Apart space) : Matches space (.ok (e, m)) (.ok s)
  | traps {which : ExceptionType} {badVAddr : Word} {m : PagedMachine} {t : Mips.Trap} (ht : which.trap = some t) :
      Matches space (.error (.exception which badVAddr, m)) (.error t)
  -- the page tables are not of the architecture
  | pages {which : ExceptionType} {badVAddr : Word} {m : PagedMachine} {y : Except Mips.Trap Mips.State}
      (ht : which.trap = none) : Matches space (.error (.exception which badVAddr, m)) y

section Instructions

variable {space : ℕ} {r regs : Registers} {m : PagedMachine} {s : Mips.State} {y : Except Mips.Trap Mips.State}
  {d : BitVec 5} {a v w pcAfter next : Word} {n : ℕ}

open PagedMachine

lemma matches_finish (pcAfter : Word) (hs : architectural space regs m = s) (hl : (regs loadReg).toNat < 32)
    (ha : m.Apart space) :
    Matches space ((Instruction.finish regs pcAfter).run (respond space) m)
      (.ok { s with file := s.arrived, slot := none, pc := s.next, next := pcAfter }) := by
  apply Matches.completes
  · rw [architectural_advance hl, ← hs]
    rfl
  · exact Nat.zero_lt_succ 31
  · exact ha

lemma matches_nothing (hs : architectural space r m = s) (hl : (r loadReg).toNat < 32) (ha : m.Apart space)
    (hpc : pcAfter = next) :
    Matches space ((Instruction.finish r pcAfter).run (respond space) m) (.ok (s.complete 0 v next)) := by
  subst hpc
  have h := matches_finish pcAfter hs hl ha
  rw [Mips.State.complete, Mips.File.write_zero]
  exact h

lemma matches_set (hs : architectural space r m = s) (hl : (r loadReg).toNat < 32) (ha : m.Apart space)
    (hslot : ∀ load, s.slot = some load → load.1 ≠ d) (hv : v = w) (hpc : pcAfter = next) :
    Matches space ((Instruction.finish (r.set (general d) v) pcAfter).run (respond space) m)
      (.ok (s.complete d w next)) := by
  subst hv hpc
  have hl' : (r.set (general d) v loadReg).toNat < 32 := by
    rw [set_of_ne _ (general_ne (by decide))]
    exact hl
  have h := matches_finish pcAfter architectural_set hl' ha
  rw [hs, Mips.State.arrived_write hslot] at h
  exact h

lemma matches_load (hs : architectural space r m = s) (hl : (r loadReg).toNat < 32) (ha : m.Apart space)
    (hv : d ≠ 0 → v = w) :
    Matches space ((Instruction.load r d v pcAfter).run (respond space) m)
      (.ok { s.complete 0 0 pcAfter with slot := if d = 0 then none else some (d, w) }) := by
  have hvalue : (if d = 0 then none else some (d, v)) = if d = 0 then none else some (d, w) := by
    split_ifs with h
    · rfl
    · rw [hv h]
  rw [← hvalue]
  have hsmall := toNat_setWidth d
  have hzero : d.setWidth 32 = (0 : Word) ↔ d = 0 := by
    rw [← BitVec.toNat_inj, ← BitVec.toNat_inj, hsmall]
    rfl
  have hback : (d.setWidth 32 : Word).setWidth 5 = d := by
    apply BitVec.eq_of_toNat_eq
    rw [BitVec.toNat_setWidth, hsmall, Nat.mod_eq_of_lt d.isLt]
  apply Matches.completes
  · rw [architectural_advance hl, hs, Mips.State.complete, Mips.File.write_zero]
    dsimp only
    rw [hback, ← hs]
    simp only [hzero]
    rfl
  · dsimp only
    rw [hsmall]
    exact d.isLt
  · exact ha

lemma matches_readMem {f : Word → Exec Executed} (hs : architectural space r m = s) (ha : m.Apart space)
    (hn : n = 1 ∨ n = 2 ∨ n = 4)
    (hok : ∀ m', s.Valid a n → architectural space r m' = s → m'.Apart space →
      Matches space ((f (valueAt s a n)).run (respond space) m') y)
    (herr : ¬s.Valid a n → y = .error .addressError) :
    Matches space ((Exec.readMem a n >>= f).run (respond space) m) y := by
  subst hs
  obtain ⟨hvalid, htrap⟩ := translate_valid false hn
  have hsend : (Exec.readMem a n).run (respond space) m = respond space (.readMem a n) m := Prog.run_send _ _ m
  rw [Prog.run_bind, hsend]
  cases hread : respond space (.readMem a n) m with
  | ok x =>
    obtain ⟨value, m'⟩ := x
    obtain ⟨pa, data, hloc, hd, rfl⟩ := respond_readMem_ok hread
    rw [hloc.value_architectural (r := r) hn hd]
    refine hok m' ?_ hloc.architectural_eq (hloc.apart ha)
    rw [respond] at hread
    cases ht : m.translate space a.toInt n false with
    | error which =>
      rw [ht] at hread
      cases hread
    | ok x => exact hvalid x ht
  | error x =>
    rw [respond] at hread
    cases ht : m.translate space a.toInt n false with
    | error which =>
      rw [ht] at hread
      cases hread
      obtain hnone | ⟨haddr, hinvalid⟩ := htrap which ht
      · exact .pages hnone
      · rw [herr hinvalid]
        exact .traps haddr
    | ok x =>
      exfalso
      rw [ht] at hread
      dsimp only at hread
      rw [fetchData] at hread
      rcases hn with rfl | rfl | rfl
      · rw [if_pos (by norm_num)] at hread
        cases hread
      · rw [if_neg (by norm_num), if_pos (by norm_num)] at hread
        cases hread
      · rw [if_neg (by norm_num), if_neg (by norm_num), if_pos (by norm_num)] at hread
        cases hread

lemma matches_writeMem {f : Unit → Exec Executed} {value : Word}
    (hs : architectural space r m = s) (ha : m.Apart space)
    (hn : n = 1 ∨ n = 2 ∨ n = 4)
    (hok : ∀ m', s.Valid a n → architectural space r m' = { s with memory := s.stored a n (byteOf value) } →
      m'.Apart space → Matches space ((f ()).run (respond space) m') y)
    (herr : ¬s.Valid a n → y = .error .addressError) :
    Matches space ((Exec.writeMem a n value >>= f).run (respond space) m) y := by
  subst hs
  have hsize : (n : ℤ) = 1 ∨ (n : ℤ) = 2 ∨ (n : ℤ) = 4 := by omega
  obtain ⟨hvalid, htrap⟩ := translate_valid true hn
  have hsend : (Exec.writeMem a n value).run (respond space) m = respond space (.writeMem a n value) m :=
    Prog.run_send _ _ m
  rw [Prog.run_bind, hsend, respond]
  cases ht : m.translate space a.toInt n true with
  | error which =>
    obtain hnone | ⟨haddr, hinvalid⟩ := htrap which ht
    · exact .pages hnone
    · rw [herr hinvalid]
      exact .traps haddr
  | ok x =>
    obtain ⟨pa, m'⟩ := x
    have hloc := translate_located ht
    dsimp only
    rw [storeData_ok hsize]
    exact hok _ (hvalid _ ht) (hloc.architectural_store ha hn value) (ha.store hloc _)

end Instructions

section Values

lemma signed_byte : ∀ b : Byte, (if b.signExtend 32 &&& 0x80 ≠ 0 then b.signExtend 32 ||| 0xffffff00
    else b.signExtend 32 &&& 0xff : Word) = b.signExtend 32 := by
  decide

lemma unsigned_byte : ∀ b : Byte, (b.signExtend 32 &&& 0xff : Word) = b.setWidth 32 := by
  decide

lemma extract_half (h : BitVec 16) : (h.setWidth 32).extractLsb' 0 16 = h := by
  apply BitVec.eq_of_toNat_eq
  rw [BitVec.extractLsb'_toNat, BitVec.toNat_setWidth, Nat.shiftRight_zero, Nat.mod_mod_of_dvd _ (by norm_num),
    Nat.mod_eq_of_lt h.isLt]

lemma unsigned_half (h : BitVec 16) : (h.setWidth 32 &&& 0xffff : Word) = h.setWidth 32 := by
  have hmask := shift_mask (h.setWidth 32) 0 16 (by decide)
  rw [BitVec.ushiftRight_zero, extract_half] at hmask
  exact hmask

lemma signed_half (h : BitVec 16) : (if h.setWidth 32 &&& 0x8000 ≠ 0 then h.setWidth 32 ||| 0xffff0000
    else h.setWidth 32 &&& 0xffff : Word) = h.signExtend 32 := by
  have hsign := sign_extended (h.setWidth 32)
  rw [unsigned_half, extract_half] at hsign
  rw [unsigned_half]
  exact hsign

lemma jump_target (w : Word) (i : BitVec 26) :
    (w &&& (0xf0000000 : Word)) ||| (i.setWidth 32 <<< 2 : Word) = w.extractLsb' 28 4 ++ i ++ (0 : BitVec 2) := by
  have hmask : (0xf0000000 : Word) = (BitVec.allOnes 4 ++ (0 : BitVec 28) : BitVec (4 + 28)) := by decide
  apply BitVec.eq_of_getLsbD_eq
  intro j hj
  rw [hmask, BitVec.getLsbD_or, BitVec.getLsbD_and, BitVec.getLsbD_shiftLeft, BitVec.getLsbD_setWidth]
  simp only [BitVec.getLsbD_append, BitVec.getLsbD_extractLsb', BitVec.getLsbD_allOnes]
  grind

lemma halves_append (hi lo : Word) :
    (hi ++ lo : BitVec 64).extractLsb' 32 32 = hi ∧ (hi ++ lo : BitVec 64).extractLsb' 0 32 = lo := by
  constructor
  · rw [BitVec.extractLsb'_append_eq_of_le (by decide)]
    exact BitVec.extractLsb'_eq_self
  · rw [BitVec.extractLsb'_append_eq_of_add_le (by decide)]
    exact BitVec.extractLsb'_eq_self

lemma mult_words (a b : Word) : Mips.Multiplication.eval a b .mult = some (mult a b true) ∧
    Mips.Multiplication.eval a b .multu = some (mult a b false) := by
  have hsigned : ((mult a b true).1 ++ (mult a b true).2 : BitVec 64).toInt = a.toInt * b.toInt := by
    by_cases hzero : a = 0 ∨ b = 0
    · rw [mult, if_pos hzero]
      rcases hzero with rfl | rfl <;> simp
    · exact mult_signed hzero
  have hunsigned : ((mult a b false).1 ++ (mult a b false).2 : BitVec 64).toNat = a.toNat * b.toNat := by
    by_cases hzero : a = 0 ∨ b = 0
    · rw [mult, if_pos hzero]
      rcases hzero with rfl | rfl <;> simp
    · exact mult_unsigned hzero
  obtain ⟨hhi, hlo⟩ := halves_append (mult a b true).1 (mult a b true).2
  obtain ⟨hhi', hlo'⟩ := halves_append (mult a b false).1 (mult a b false).2
  simp only [Mips.Multiplication.eval]
  rw [← hsigned, ← hunsigned, BitVec.ofInt_toInt, BitVec.ofNat_toNat, BitVec.setWidth_eq, hhi, hlo, hhi', hlo']
  exact ⟨rfl, rfl⟩

section Parts

variable (s : Mips.State) (old address : Word)

lemma mergeLeft_word : mergeLeft old (s.word (Mips.State.base address)) (3 - (address &&& 3)).toNat =
    wordOf fun c => if 3 ≤ c + address.toNat % 4 then
      s.memory (Mips.State.base address + BitVec.ofNat 32 (c + address.toNat % 4 - 3)) else byteOf old c := by
  apply UserMachine.eq_wordOf
  intro c hc
  rw [UserMachine.place_eq, byteOf_mergeLeft (by omega) hc]
  by_cases h : 3 ≤ c + address.toNat % 4
  · have hc' : c - (3 - address.toNat % 4) = c + address.toNat % 4 - 3 := by omega
    rw [if_neg (by omega), if_pos h, hc', Mips.State.word, byteOf_wordOf _ _ (by omega)]
  · rw [if_pos (by omega), if_neg h]

lemma mergeRight_word : mergeRight old (s.word (Mips.State.base address)) (3 - (address &&& 3)).toNat =
    wordOf fun c => if c + address.toNat % 4 < 4 then
      s.memory (Mips.State.base address + BitVec.ofNat 32 (c + address.toNat % 4)) else byteOf old c := by
  apply UserMachine.eq_wordOf
  intro c hc
  rw [UserMachine.place_eq, byteOf_mergeRight (by omega) hc]
  by_cases h : c + address.toNat % 4 < 4
  · have hc' : c + (3 - (3 - address.toNat % 4)) = c + address.toNat % 4 := by omega
    rw [if_pos (by omega), if_pos h, hc', Mips.State.word, byteOf_wordOf _ _ (by omega)]
  · rw [if_neg (by omega), if_neg h]

lemma byteOf_word {x : Word} (h : (Mips.State.base address).toNat ≤ x.toNat)
    (h' : x.toNat < (Mips.State.base address).toNat + 4) :
    byteOf (s.word (Mips.State.base address)) (x.toNat - (Mips.State.base address).toNat) = s.memory x := by
  have hlt := x.isLt
  have hx : Mips.State.base address + BitVec.ofNat 32 (x.toNat - (Mips.State.base address).toNat) = x := by
    apply BitVec.eq_of_toNat_eq
    rw [BitVec.toNat_add, BitVec.toNat_ofNat]
    omega
  rw [Mips.State.word, byteOf_wordOf _ _ (by omega), hx]

lemma stored_storeLeft : s.stored (Mips.State.base address) 4
      (byteOf (storeLeft (s.word (Mips.State.base address)) old (3 - (address &&& 3)).toNat)) =
    s.stored (Mips.State.base address) (address.toNat % 4 + 1) fun c => byteOf old
    (c + 3 - address.toNat % 4) := by
  have hbase : (Mips.State.base address).toNat = address.toNat - address.toNat % 4 :=
    PagedMachine.toNat_wordBase address
  funext x
  rw [UserMachine.place_eq, Mips.State.stored, Mips.State.stored]
  by_cases hin : (Mips.State.base address).toNat ≤ x.toNat ∧ x.toNat < (Mips.State.base address).toNat + 4
  · rw [if_pos hin, byteOf_storeLeft (by omega) (by omega)]
    by_cases h : x.toNat < (Mips.State.base address).toNat + (address.toNat % 4 + 1)
    · have hc : x.toNat - (Mips.State.base address).toNat + (3 - address.toNat % 4) =
          x.toNat - (Mips.State.base address).toNat + 3 - address.toNat % 4 := by omega
      rw [if_pos (by omega), if_pos ⟨hin.1, h⟩, hc]
    · rw [if_neg (by omega), if_neg (fun h' => h h'.2), byteOf_word _ _ hin.1 hin.2]
  · rw [if_neg hin, if_neg (by omega)]

lemma stored_storeRight : s.stored (Mips.State.base address) 4
      (byteOf (storeRight (s.word (Mips.State.base address)) old (3 - (address &&& 3)).toNat)) =
    s.stored address (4 - address.toNat % 4) (byteOf old) := by
  have hbase : (Mips.State.base address).toNat = address.toNat - address.toNat % 4 :=
    PagedMachine.toNat_wordBase address
  have hle := Nat.mod_le address.toNat 4
  funext x
  rw [UserMachine.place_eq, Mips.State.stored, Mips.State.stored]
  by_cases hin : (Mips.State.base address).toNat ≤ x.toNat ∧ x.toNat < (Mips.State.base address).toNat + 4
  · rw [if_pos hin, byteOf_storeRight (by omega) (by omega)]
    by_cases h : address.toNat ≤ x.toNat
    · have hc : x.toNat - (Mips.State.base address).toNat - (3 - (3 - address.toNat % 4)) =
          x.toNat - address.toNat := by omega
      rw [if_neg (by omega), if_pos (by omega), hc]
    · rw [if_pos (by omega), if_neg (fun h' => h h'.1), byteOf_word _ _ hin.1 hin.2]
  · rw [if_neg hin, if_neg (by omega)]

end Parts

end Values

structure Decoded (raw : Word) (instr : Instruction) : Prop where
  rs : instr.rs = Mips.rs raw
  rt : instr.rt = Mips.rt raw
  rd : instr.rd = Mips.rd raw
  immediate : instr.opCode ∈ immediateOps → instr.extra = (Mips.offset raw).signExtend 32
  shift : instr.opCode ∈ shiftOps → instr.extra = (Mips.amount raw).setWidth 32
  offset : instr.opCode ∈ offsetOps → instr.extra = (Mips.offset raw).signExtend 32
  index : instr.opCode ∈ jumpOps → instr.extra = (Mips.index raw).setWidth 32

lemma decoded (raw : Word) : Decoded raw (decode raw) :=
  ⟨rfl, rfl, rfl, (decode_extra raw).1, (decode_extra raw).2, (decode_offset raw).1, (decode_offset raw).2⟩

structure Regular (s : Mips.State) (raw a b : Word) (mn : Mips.Mnemonic) : Prop where
  defined : s.execute raw a b mn ≠ .error .unpredictable
  -- a load that is pending would come after the assignment
  slot : ∀ load, s.slot = some load → load.1 ≠ mn.destination raw
  -- the shift of an `int` copies the sign bit
  srl : mn = .shift .srl → (Mips.amount raw).toNat = 0 ∨ 0 ≤ b.toInt
  srlv : mn = .operate .srlv → (a.extractLsb' 0 5).toNat = 0 ∨ 0 ≤ b.toInt
  -- the division of the host traps
  div : mn = .multiply .div → ¬(a = signBit ∧ b = -1)
  -- a jump stays in the region of the instruction after the next
  jump : ∀ link, mn = .jump link → (s.next + 4).extractLsb' 28 4 = s.next.extractLsb' 28 4

section Execution

variable {space : ℕ} {r : Registers} {m : PagedMachine} {raw : Word} {instr : Instruction}

open PagedMachine

lemma negative_eq (w : Word) : negative w = decide (w.toInt < 0) := by
  rw [negative_eq_msb, BitVec.msb_eq_toInt]

lemma not_negative_eq (w : Word) : (!negative w) = decide (0 ≤ w.toInt) := by
  rw [negative_eq, ← decide_not]
  exact decide_eq_decide.mpr not_lt

lemma matches_checked {d : BitVec 5} {value : Word} {x : ℤ} {test : Bool} (hl : (r loadReg).toNat < 32)
    (ha : m.Apart space) (hslot : ∀ load, (architectural space r m).slot = some load → load.1 ≠ d)
    (htest : test = true ↔ ¬(-2 ^ 31 ≤ x ∧ x < 2 ^ 31)) (hvalue : value = BitVec.ofInt 32 x) :
    Matches space ((if test then Exec.raiseException .overflowException 0
        else Instruction.finish (r.set (general d) value) (r nextPCReg + 4)).run (respond space) m)
      ((architectural space r m).checked d x) := by
  rw [Mips.State.checked]
  by_cases hfit : -2 ^ 31 ≤ x ∧ x < 2 ^ 31
  · have hno : ¬test = true := fun h => htest.mp h hfit
    rw [if_pos hfit, if_neg hno]
    exact matches_set rfl hl ha hslot hvalue rfl
  · rw [if_neg hfit, if_pos (htest.mpr hfit)]
    exact .traps rfl

lemma matches_hiLo {regs : Registers} {pcAfter : Word} (hl : (r loadReg).toNat < 32) (ha : m.Apart space)
    (hsame : ∀ i, i ≠ hiReg → i ≠ loReg → regs i = r i) :
    Matches space ((Instruction.finish regs pcAfter).run (respond space) m)
      (.ok { (architectural space r m).complete 0 0 pcAfter with hi := regs hiReg, lo := regs loReg }) := by
  have hs : architectural space regs m = { architectural space r m with hi := regs hiReg, lo := regs loReg } := by
    refine Mips.State.ext (Mips.File.ext (funext fun i => ?_)) rfl rfl ?_ ?_ ?_ rfl rfl
    · simp only [architectural]
      rw [hsame _ (general_ne (by decide)).symm (general_ne (by decide)).symm]
    · exact hsame pcReg (by decide) (by decide)
    · exact hsame nextPCReg (by decide) (by decide)
    · simp only [architectural, hsame loadReg (by decide) (by decide), hsame loadValueReg (by decide) (by decide)]
  have hload : (regs loadReg).toNat < 32 := by
    rw [hsame loadReg (by decide) (by decide)]
    exact hl
  have h := matches_finish pcAfter hs hload ha
  rw [Mips.State.complete, Mips.File.write_zero]
  have hnext := hsame nextPCReg (by decide) (by decide)
  exact h

variable {n : ℕ} {d : BitVec 5} {mask address value : Word} {g : Word → Word} {memory : Word → Byte}

lemma matches_loaded (hl : (r loadReg).toNat < 32) (ha : m.Apart space) (hn : n = 1 ∨ n = 2 ∨ n = 4)
    (hv : d ≠ 0 → g (valueAt (architectural space r m) address n) = value) :
    Matches space ((Exec.readMem address n >>= fun v => Instruction.load r d (g v) (r nextPCReg + 4)).run
      (respond space) m) ((architectural space r m).load address n d value) := by
  apply matches_readMem rfl ha hn
  · intro m' hvalid hs ha'
    rw [Mips.State.load, if_pos hvalid]
    exact matches_load hs hl ha' hv
  · intro hinvalid
    rw [Mips.State.load, if_neg hinvalid]

lemma matches_loaded_aligned (hl : (r loadReg).toNat < 32) (ha : m.Apart space) (hn : n = 1 ∨ n = 2 ∨ n = 4)
    (hmask : address &&& mask ≠ 0 → address.toNat % n ≠ 0)
    (hv : d ≠ 0 → g (valueAt (architectural space r m) address n) = value) :
    Matches space ((if address &&& mask ≠ 0 then Exec.raiseException .addressErrorException address
        else Exec.readMem address n >>= fun v => Instruction.load r d
        (g v) (r nextPCReg + 4)).run (respond space) m)
      ((architectural space r m).load address n d value) := by
  split_ifs with h
  · rw [Mips.State.load, if_neg fun hvalid => hmask h hvalid.1]
    exact .traps rfl
  · exact matches_loaded hl ha hn hv

lemma matches_stored (hl : (r loadReg).toNat < 32) (ha : m.Apart space) (hn : n = 1 ∨ n = 2 ∨ n = 4)
    (hm : (architectural space r m).stored address n (byteOf value) = memory) :
    Matches space ((Exec.writeMem address n value >>= fun _ => Instruction.finish r (r nextPCReg + 4)).run
      (respond space) m) ((architectural space r m).store address n memory) := by
  apply matches_writeMem rfl ha hn
  · intro m' hvalid hs ha'
    rw [Mips.State.store, if_pos hvalid, ← hm]
    exact matches_nothing hs hl ha' rfl
  · intro hinvalid
    rw [Mips.State.store, if_neg hinvalid]

lemma matches_merged (hl : (r loadReg).toNat < 32) (ha : m.Apart space)
    (hm : (architectural space r m).stored address 4 (byteOf (g ((architectural space r m).word address))) =
    memory) :
    Matches space ((Exec.readMem address 4 >>= fun v => Exec.writeMem address 4 (g v) >>= fun _ =>
      Instruction.finish r (r nextPCReg + 4)).run (respond space) m)
        ((architectural space r m).store address 4 memory) := by
  apply matches_readMem (n := 4) rfl ha (.inr (.inr rfl))
  · intro m' _ hs ha'
    rw [← hs] at hm ⊢
    exact matches_stored hl ha' (.inr (.inr rfl)) hm
  · intro hinvalid
    rw [Mips.State.store, if_neg hinvalid]

lemma general_ne_retAddrReg (h : Mips.rs raw ≠ 31) : general (Mips.rs raw) ≠ retAddrReg :=
  fun heq => h (general_inj (heq.trans rfl))

lemma jump_target_of_region {next : Word} (h : (next + 4).extractLsb' 28 4 = next.extractLsb' 28 4)
    (i : BitVec 26) :
    (next + 4 &&& (0xf0000000 : Word)) ||| indexToAddr (i.setWidth 32) =
      next.extractLsb' 28 4 ++ i ++ (0 : BitVec 2) := by
  rw [← h]
  exact jump_target _ _

lemma odd_of_and_one (h : address &&& 1 ≠ 0) : address.toNat % 2 ≠ 0 := by
  rw [and_one_ne_zero] at h
  omega

lemma unaligned_of_and_three (h : address &&& 3 ≠ 0) : address.toNat % 4 ≠ 0 := by
  intro hz
  apply h
  apply BitVec.eq_of_toNat_eq
  rw [toNat_and_three, hz]
  rfl

lemma mergeBase_eq (hl : (r loadReg).toNat < 32) (hd : d ≠ 0) :
    mergeBase r d = (architectural space r m).arrived.reg d := by
  rw [arrived_architectural hl, if_neg hd, mergeBase]
  apply if_congr _ rfl rfl
  rw [← BitVec.toNat_inj, toNat_setWidth]
  rfl

def assignmentOps : List OpCode :=
  [.addu, .subu, .and, .or, .xor, .nor, .slt, .sltu, .mfhi, .mflo, .addiu, .sltiu, .slti, .andi, .ori, .xori, .lui]

def shiftingOps : List OpCode := [.sll, .sra, .srl, .sllv, .srav, .srlv]

def checkedOps : List OpCode := [.add, .sub, .addi]

def hiLoOps : List OpCode := [.mult, .multu, .mthi, .mtlo, .div, .divu]

def branchOps : List OpCode := [.beq, .bne, .blez, .bgtz, .bltz, .bgez, .bltzal, .bgezal, .j, .jal, .jr, .jalr]

def loadOps : List OpCode := [.lb, .lbu, .lh, .lhu, .lw, .lwl, .lwr]

def storeOps : List OpCode := [.sb, .sh, .sw, .swl, .swr]

def Follows (space : ℕ) (r : Registers) (m : PagedMachine) (raw : Word) (instr : Instruction) : Prop :=
  Matches space ((instr.execute r).run (respond space) m) ((mnemonicOf instr.opCode).elim (.error .reserved)
    ((architectural space r m).execute raw (r (general (Mips.rs raw))) (r (general (Mips.rt raw)))))

structure Executable (space : ℕ) (r : Registers) (m : PagedMachine) (raw : Word) (instr : Instruction) : Prop where
  decoded : Decoded raw instr
  small : (r loadReg).toNat < 32
  apart : m.Apart space
  regular : ∀ mn, mnemonicOf instr.opCode = some mn →
    Regular (architectural space r m) raw (r (general (Mips.rs raw))) (r (general (Mips.rt raw))) mn

lemma Executable.assignment (h : Executable space r m raw instr) (hop : instr.opCode ∈ assignmentOps) :
    Follows space r m raw instr := by
  obtain ⟨⟨hrs, hrt, hrd, himm, -, -, -⟩, hl, ha, hreg⟩ := h
  obtain ⟨opCode, rs, rt, rd, extra⟩ := instr
  dsimp only at *
  subst hrs hrt hrd
  cases opCode with
  | addu | subu | and | or | xor | nor | slt | sltu | mfhi | mflo =>
    exact matches_set rfl hl ha (hreg _ rfl).slot rfl rfl
  | addiu | sltiu =>
    obtain rfl := himm (by decide)
    exact matches_set rfl hl ha (hreg _ rfl).slot rfl rfl
  | slti =>
    obtain rfl := himm (by decide)
    exact matches_set rfl hl ha (hreg _ rfl).slot (by rw [toInt_immediate]; rfl) rfl
  | andi | ori | xori =>
    obtain rfl := himm (by decide)
    exact matches_set rfl hl ha (hreg _ rfl).slot (by rw [and_mask]; rfl) rfl
  | lui =>
    obtain rfl := himm (by decide)
    exact matches_set rfl hl ha (hreg _ rfl).slot (shiftLeft_immediate _) rfl
  | _ => exact absurd hop (by decide)

lemma Executable.shifting (h : Executable space r m raw instr) (hop : instr.opCode ∈ shiftingOps) :
    Follows space r m raw instr := by
  obtain ⟨⟨hrs, hrt, hrd, -, hshift, -, -⟩, hl, ha, hreg⟩ := h
  obtain ⟨opCode, rs, rt, rd, extra⟩ := instr
  dsimp only at *
  subst hrs hrt hrd
  cases opCode with
  | sll | sra =>
    obtain rfl := hshift (by decide)
    exact matches_set rfl hl ha (hreg _ rfl).slot (by rw [toNat_setWidth]; rfl) rfl
  | srl =>
    obtain rfl := hshift (by decide)
    have hvalue := (sshiftRight_eq_iff _ _).mpr ((hreg _ rfl).srl rfl)
    exact matches_set rfl hl ha (hreg _ rfl).slot (by rw [toNat_setWidth]; exact hvalue) rfl
  | sllv | srav =>
    exact matches_set rfl hl ha (hreg _ rfl).slot (by rw [amount_eq]; rfl) rfl
  | srlv =>
    have hvalue := (sshiftRight_eq_iff _ _).mpr ((hreg _ rfl).srlv rfl)
    exact matches_set rfl hl ha (hreg _ rfl).slot (by rw [amount_eq]; exact hvalue) rfl
  | _ => exact absurd hop (by decide)

lemma Executable.checked (h : Executable space r m raw instr) (hop : instr.opCode ∈ checkedOps) :
    Follows space r m raw instr := by
  obtain ⟨⟨hrs, hrt, hrd, himm, -, -, -⟩, hl, ha, hreg⟩ := h
  obtain ⟨opCode, rs, rt, rd, extra⟩ := instr
  dsimp only at *
  subst hrs hrt hrd
  cases opCode with
  | add => exact matches_checked hl ha (hreg _ rfl).slot (add_overflow_iff _ _) (add_eq_ofInt _ _)
  | sub => exact matches_checked hl ha (hreg _ rfl).slot (sub_overflow_iff _ _) (sub_eq_ofInt _ _)
  | addi =>
    obtain rfl := himm (by decide)
    have htest := add_overflow_iff ((Mips.offset raw).signExtend 32) (r (general (Mips.rs raw)))
    rw [toInt_immediate, BitVec.xor_comm, BitVec.add_comm, add_comm (Mips.offset raw).toInt] at htest
    have hvalue := add_eq_ofInt (r (general (Mips.rs raw))) ((Mips.offset raw).signExtend 32)
    rw [toInt_immediate] at hvalue
    exact matches_checked hl ha (hreg _ rfl).slot htest hvalue
  | _ => exact absurd hop (by decide)

lemma Executable.hiLo (h : Executable space r m raw instr) (hop : instr.opCode ∈ hiLoOps) :
    Follows space r m raw instr := by
  obtain ⟨⟨hrs, hrt, hrd, -, -, -, -⟩, hl, ha, hreg⟩ := h
  obtain ⟨opCode, rs, rt, rd, extra⟩ := instr
  dsimp only at *
  subst hrs hrt hrd
  cases opCode with
  | mult =>
    change Matches space _ ((architectural space r m).execute raw _ _ (.multiply .mult))
    rw [Mips.State.execute_multiply (mult_words _ _).1]
    exact matches_hiLo hl ha fun i hhi hlo => by rw [set_of_ne _ hlo, set_of_ne _ hhi]
  | multu =>
    change Matches space _ ((architectural space r m).execute raw _ _ (.multiply .multu))
    rw [Mips.State.execute_multiply (mult_words _ _).2]
    exact matches_hiLo hl ha fun i hhi hlo => by rw [set_of_ne _ hlo, set_of_ne _ hhi]
  | mthi => exact matches_hiLo hl ha fun i hhi _ => set_of_ne _ hhi _
  | mtlo => exact matches_hiLo hl ha fun i _ hlo => set_of_ne _ hlo _
  | div =>
    have hhost := (hreg _ rfl).div rfl
    by_cases hzero : r (general (Mips.rt raw)) = 0
    · exact absurd (Mips.State.execute_multiply_none (Mips.Multiplication.eval_zero hzero).1) (hreg _ rfl).defined
    · change Matches space ((if _ = 0 then _ else if _ ∧ _ then _ else _ : Exec Executed).run _ _)
        ((architectural space r m).execute raw _ _ (.multiply .div))
      rw [Mips.State.execute_multiply (Mips.Multiplication.eval_div hzero), if_neg hzero, if_neg hhost]
      exact matches_hiLo hl ha fun i hhi hlo => by rw [set_of_ne _ hhi, set_of_ne _ hlo]
  | divu =>
    by_cases hzero : r (general (Mips.rt raw)) = 0
    · exact absurd (Mips.State.execute_multiply_none (Mips.Multiplication.eval_zero hzero).2) (hreg _ rfl).defined
    · change Matches space ((if _ = 0 then _ else _ : Exec Executed).run _ _)
        ((architectural space r m).execute raw _ _ (.multiply .divu))
      rw [Mips.State.execute_multiply (Mips.Multiplication.eval_divu hzero), if_neg hzero]
      exact matches_hiLo hl ha fun i hhi hlo => by rw [set_of_ne _ hhi, set_of_ne _ hlo]
  | _ => exact absurd hop (by decide)

lemma Executable.branch (h : Executable space r m raw instr) (hop : instr.opCode ∈ branchOps) :
    Follows space r m raw instr := by
  obtain ⟨⟨hrs, hrt, hrd, -, -, hoffset, hindex⟩, hl, ha, hreg⟩ := h
  obtain ⟨opCode, rs, rt, rd, extra⟩ := instr
  dsimp only at *
  subst hrs hrt hrd
  cases opCode with
  | beq | bne | blez | bgtz =>
    obtain rfl := hoffset (by decide)
    exact matches_nothing rfl hl ha rfl
  | bltz =>
    obtain rfl := hoffset (by decide)
    exact matches_nothing rfl hl ha (by rw [negative_eq]; rfl)
  | bgez =>
    obtain rfl := hoffset (by decide)
    exact matches_nothing rfl hl ha (by rw [not_negative_eq]; rfl)
  | bltzal =>
    obtain rfl := hoffset (by decide)
    obtain ⟨h31, hspec⟩ := Mips.State.execute_link (hreg _ rfl).defined
    change Matches space _ ((architectural space r m).execute raw _ _ (.branch .ltz true))
    rw [hspec]
    exact matches_set (d := 31) rfl hl ha (hreg _ rfl).slot rfl
      (by rw [set_of_ne _ (general_ne_retAddrReg h31), negative_eq]; rfl)
  | bgezal =>
    obtain rfl := hoffset (by decide)
    obtain ⟨h31, hspec⟩ := Mips.State.execute_link (hreg _ rfl).defined
    change Matches space _ ((architectural space r m).execute raw _ _ (.branch .gez true))
    rw [hspec]
    exact matches_set (d := 31) rfl hl ha (hreg _ rfl).slot rfl
      (by rw [set_of_ne _ (general_ne_retAddrReg h31), not_negative_eq]; rfl)
  | j =>
    obtain rfl := hindex (by decide)
    exact matches_nothing rfl hl ha (jump_target_of_region ((hreg _ rfl).jump _ rfl) _)
  | jal =>
    obtain rfl := hindex (by decide)
    exact matches_set (d := 31) rfl hl ha (hreg _ rfl).slot rfl (jump_target_of_region ((hreg _ rfl).jump _ rfl) _)
  | jr => exact matches_nothing rfl hl ha rfl
  | jalr =>
    obtain ⟨hne, hspec⟩ := Mips.State.execute_jalr (hreg _ rfl).defined
    have hkept : r.set (general (Mips.rd raw)) (r nextPCReg + 4) (general (Mips.rs raw)) =
        r (general (Mips.rs raw)) :=
      set_of_ne _ (fun h => hne (general_inj h).symm) _
    change Matches space _ ((architectural space r m).execute raw _ (r (general (Mips.rt raw))) .jalr)
    rw [hspec]
    exact matches_set rfl hl ha (hreg _ rfl).slot rfl hkept
  | _ => exact absurd hop (by decide)

lemma Executable.load (h : Executable space r m raw instr) (hop : instr.opCode ∈ loadOps) :
    Follows space r m raw instr := by
  obtain ⟨⟨hrs, hrt, hrd, -, -, hoffset, -⟩, hl, ha, hreg⟩ := h
  obtain ⟨opCode, rs, rt, rd, extra⟩ := instr
  dsimp only at *
  subst hrs hrt hrd
  cases opCode with
  | lb =>
    obtain rfl := hoffset (by decide)
    exact matches_loaded (n := 1) hl ha (.inl rfl) fun _ => signed_byte _
  | lbu =>
    obtain rfl := hoffset (by decide)
    exact matches_loaded (n := 1) hl ha (.inl rfl) fun _ => unsigned_byte _
  | lh =>
    obtain rfl := hoffset (by decide)
    exact matches_loaded_aligned (n := 2) hl ha (.inr (.inl rfl)) odd_of_and_one fun _ => signed_half _
  | lhu =>
    obtain rfl := hoffset (by decide)
    exact matches_loaded_aligned (n := 2) hl ha (.inr (.inl rfl)) odd_of_and_one fun _ => unsigned_half _
  | lw =>
    obtain rfl := hoffset (by decide)
    exact matches_loaded_aligned (n := 4) (g := id) hl ha (.inr (.inr rfl)) unaligned_of_and_three fun _ => rfl
  | lwl =>
    obtain rfl := hoffset (by decide)
    refine matches_loaded (n := 4) hl ha (.inr (.inr rfl)) fun hd => ?_
    rw [mergeBase_eq hl hd]
    exact mergeLeft_word _ _ _
  | lwr =>
    obtain rfl := hoffset (by decide)
    refine matches_loaded (n := 4) hl ha (.inr (.inr rfl)) fun hd => ?_
    rw [mergeBase_eq hl hd]
    exact mergeRight_word _ _ _
  | _ => exact absurd hop (by decide)

lemma Executable.store (h : Executable space r m raw instr) (hop : instr.opCode ∈ storeOps) :
    Follows space r m raw instr := by
  obtain ⟨⟨hrs, hrt, hrd, -, -, hoffset, -⟩, hl, ha, hreg⟩ := h
  obtain ⟨opCode, rs, rt, rd, extra⟩ := instr
  dsimp only at *
  subst hrs hrt hrd
  cases opCode with
  | sb =>
    obtain rfl := hoffset (by decide)
    exact matches_stored (n := 1) hl ha (.inl rfl) rfl
  | sh =>
    obtain rfl := hoffset (by decide)
    exact matches_stored (n := 2) hl ha (.inr (.inl rfl)) rfl
  | sw =>
    obtain rfl := hoffset (by decide)
    exact matches_stored (n := 4) hl ha (.inr (.inr rfl)) rfl
  | swl =>
    obtain rfl := hoffset (by decide)
    exact matches_merged hl ha (stored_storeLeft _ _ _)
  | swr =>
    obtain rfl := hoffset (by decide)
    exact matches_merged hl ha (stored_storeRight _ _ _)
  | _ => exact absurd hop (by decide)

lemma Executable.follows (h : Executable space r m raw instr) : Follows space r m raw instr := by
  cases hop : instr.opCode with
  | addu | subu | and | or | xor | nor | slt | sltu | mfhi |
    mflo | addiu | sltiu | slti | andi | ori | xori | lui =>
      exact h.assignment (by rw [hop]; decide)
  | sll | sra | srl | sllv | srav | srlv => exact h.shifting (by rw [hop]; decide)
  | add | sub | addi => exact h.checked (by rw [hop]; decide)
  | mult | multu | mthi | mtlo | div | divu => exact h.hiLo (by rw [hop]; decide)
  | beq | bne | blez | bgtz | bltz | bgez | bltzal | bgezal | j | jal | jr | jalr =>
    exact h.branch (by rw [hop]; decide)
  | lb | lbu | lh | lhu | lw | lwl | lwr => exact h.load (by rw [hop]; decide)
  | sb | sh | sw | swl | swr => exact h.store (by rw [hop]; decide)
  | syscall | unimp | res =>
    rw [Follows, Instruction.execute, hop]
    exact .traps rfl

end Execution

def RegularNext (s : Mips.State) : Prop :=
  ∀ mn, Mips.Mnemonic.of (s.word s.pc) = some mn →
    Regular s (s.word s.pc) (s.file.reg (Mips.rs (s.word s.pc))) (s.file.reg (Mips.rt (s.word s.pc))) mn

lemma fetch_matches {space : ℕ} {r : Registers} {m : PagedMachine} (hz : r 0 = 0) (hl : (r loadReg).toNat < 32)
    (ha : m.Apart space) (hreg : RegularNext (architectural space r m)) :
    Matches space
    ((Exec.readMem (r pcReg) 4 >>= fun raw => (decode raw).execute r).run (PagedMachine.respond space) m)
      (architectural space r m).step := by
  apply matches_readMem (n := 4) rfl ha (.inr (.inr rfl))
  · intro m' hvalid hs ha'
    have hvalid' : (architectural space r m).Valid (architectural space r m).pc 4 := hvalid
    rw [Mips.State.step, if_pos hvalid']
    dsimp only
    rw [mnemonic_decode, reg_architectural hz, reg_architectural hz, ← hs]
    refine Executable.follows ⟨decoded _, hl, ha', fun mn hmn => ?_⟩
    rw [← mnemonic_decode, hs] at hmn
    have h := hreg mn hmn
    rw [reg_architectural hz, reg_architectural hz, ← hs] at h
    exact h
  · intro hinvalid
    exact if_neg hinvalid

namespace UserMachine

def toMips (σ : UserMachine) : Mips.State := architectural σ.space σ.registers σ.memory

structure Sound (σ : UserMachine) : Prop where
  zero : σ.registers 0 = 0
  small : (σ.registers loadReg).toNat < 32
  apart : σ.memory.Apart σ.space

variable {σ σ' τ : UserMachine} {m : PagedMachine}

lemma run_oneInstruction (r : Registers) (space : ℕ) (m : PagedMachine) :
    (oneInstruction r).run (PagedMachine.respond space) m =
      ((Exec.readMem (r pcReg) 4 >>= fun raw => (decode raw).execute r).run (PagedMachine.respond space) m).map
        fun x => (x.1.advance, x.2) := by
  rw [oneInstruction, Prog.run_bind, Prog.run_bind]
  cases (Exec.readMem (r pcReg) 4).run (PagedMachine.respond space) m with
  | error x => rfl
  | ok x =>
    obtain ⟨raw, m'⟩ := x
    dsimp only
    rw [Prog.run_bind]
    cases ((decode raw).execute r).run (PagedMachine.respond space) m' with
    | error x => rfl
    | ok x => rfl

lemma Sound.step (h : σ.Sound) (hreg : RegularNext σ.toMips) :
    (∀ σ', σ.step = .ok σ' → σ.toMips.step = .ok σ'.toMips ∧ σ'.Sound) ∧
      (∀ which badVAddr m, σ.step = .error (.exception which badVAddr, m) →
        which.trap = none ∨ ∃ t, which.trap = some t ∧ σ.toMips.step = .error t) ∧
      ∀ m, σ.step ≠ .error (.abort, m) := by
  have hm := fetch_matches h.zero h.small h.apart hreg
  have hrun := run_oneInstruction σ.registers σ.space σ.memory
  rw [UserMachine.step, hrun, toMips]
  generalize (Exec.readMem (σ.registers pcReg) 4 >>= fun raw => (decode raw).execute σ.registers).run
    (PagedMachine.respond σ.space) σ.memory = x at hm
  generalize (architectural σ.space σ.registers σ.memory).step = y at hm
  cases hm with
  | completes hs hl ha =>
    subst hs
    refine ⟨fun σ' hσ => ?_, fun which badVAddr m hx => (by cases hx), fun m hx => (by cases hx)⟩
    cases hσ
    refine ⟨rfl, ?_, ?_, ha⟩
    · dsimp only
      rw [Executed.advance_zero]
    · dsimp only
      rw [advance_loadReg]
      exact hl
  | traps ht =>
    refine ⟨fun σ' hσ => (by cases hσ), fun which badVAddr m hx => .inr ?_, fun m hx => (by cases hx)⟩
    cases hx
    exact ⟨_, ht, rfl⟩
  | pages ht =>
    refine ⟨fun σ' hσ => (by cases hσ), fun which badVAddr m hx => .inl ?_, fun m hx => (by cases hx)⟩
    cases hx
    exact ht

lemma toMips_moved (ha : PagedMachine.Alike σ.space m σ.memory) (r : Registers) :
    architectural σ.space r m = architectural σ.space r σ.memory :=
  PagedMachine.architectural_congr ha.numPages fun page hp => ha.contents page (ha.numPages ▸ hp)

lemma Sound.interrupted (h : σ.Sound) (ha : PagedMachine.Alike σ.space m σ.memory) :
    toMips { σ with registers := delayedLoad 0 0 σ.registers, memory := m } = σ.toMips.arrive ∧
      Sound { σ with registers := delayedLoad 0 0 σ.registers, memory := m } := by
  refine ⟨?_, ?_, ?_, ha.apart⟩
  · rw [toMips]
    dsimp only
    rw [toMips_moved ha, architectural_delayedLoad h.small]
    rfl
  · dsimp only
    rw [delayedLoad_of_lt _ _ _ (by decide), if_pos rfl]
  · dsimp only
    rw [delayedLoad_loadReg]
    decide

lemma Sound.faulted (h : σ.Sound) {x : Trap × PagedMachine} (hx : σ.step = .error x) (hr : Repairs σ.space x.2 m)
    (badVAddr : Word) :
    toMips { σ with registers := σ.registers.raised badVAddr, memory := m } = σ.toMips.arrive ∧
      Sound { σ with registers := σ.registers.raised badVAddr, memory := m } := by
  have hsame : Together σ σ := ⟨.refl h.zero h.small, ⟨h.apart, h.apart, rfl, fun _ _ => rfl⟩, rfl⟩
  have hbad : Sound { σ with registers := σ.registers.set badVAddrReg badVAddr } := ⟨h.zero, h.small, h.apart⟩
  have heq : toMips { σ with registers := σ.registers.set badVAddrReg badVAddr } = σ.toMips := by
    refine Mips.State.ext (Mips.File.ext (funext fun i => ?_)) rfl rfl rfl rfl rfl rfl rfl
    simp only [toMips, architectural, set_of_ne _ (general_ne (i := badVAddrReg) (by decide)).symm]
  rw [← heq]
  exact hbad.interrupted (hsame.fault hx hr badVAddr).memory

lemma Disturbed.runs {n : ℕ} (hrun : Disturbed σ n σ') (h : σ.Sound)
    (hreg : ∀ i s, i < n → Mips.State.Runs σ.toMips i s → RegularNext s) :
    Mips.State.Runs σ.toMips n σ'.toMips ∧ σ'.Sound := by
  induction hrun with
  | refl => exact ⟨.refl, h⟩
  | interrupt _ hr ih =>
    obtain ⟨hruns, hτ⟩ := ih hreg
    obtain ⟨heq, hsound⟩ := hτ.interrupted hr.symm
    rw [heq]
    exact ⟨.arrive hruns, hsound⟩
  | fault _ hx hr ih =>
    obtain ⟨hruns, hτ⟩ := ih hreg
    obtain ⟨heq, hsound⟩ := hτ.faulted hx hr _
    rw [heq]
    exact ⟨.arrive hruns, hsound⟩
  | step _ hstep ih =>
    obtain ⟨hruns, hτ⟩ := ih fun i s hi => hreg i s (lt_trans hi (Nat.lt_succ_self _))
    obtain ⟨heq, hsound⟩ := (hτ.step (hreg _ _ (Nat.lt_succ_self _) hruns)).1 _ hstep
    exact ⟨.step hruns heq, hsound⟩

/-- The simulated machine is a MIPS I processor: every run of a user program, with interrupts and with page faults
that are repaired, is one of the architecture, and ends in the trap that the architecture has there. -/
theorem user_program_follows_mips (σ σ' : UserMachine) (n : ℕ) (h : σ.Sound)
    (hreg : ∀ i s, i < n → Mips.State.Runs σ.toMips i s → RegularNext s) (hrun : Disturbed σ n σ') :
    Mips.State.Runs σ.toMips n σ'.toMips ∧ (RegularNext σ'.toMips →
      (∀ which badVAddr m, σ'.step = .error (.exception which badVAddr, m) →
        which.trap = none ∨ ∃ t, which.trap = some t ∧ σ'.toMips.step = .error t) ∧
      ∀ m, σ'.step ≠ .error (.abort, m)) := by
  obtain ⟨hruns, hsound⟩ := hrun.runs h hreg
  exact ⟨hruns, fun hnext => (hsound.step hnext).2⟩

theorem user_program_follows_mips_load : ∃ σ' : UserMachine, Disturbed (onePage loadThenSet true) 1 σ' ∧
    Mips.State.Runs (onePage loadThenSet true).toMips 1 σ'.toMips ∧ σ'.toMips.file.reg 1 = 7 := by
  have hsound : (onePage loadThenSet true).Sound := ⟨rfl, by decide, apart_of_one rfl⟩
  obtain ⟨β, hβ, hspace, hpages, hreg⟩ : ∃ β, (onePage loadThenSet true).step = .ok β ∧ β.space = 0 ∧
      β.memory.numPages = [1] ∧ delayedLoad 0 0 β.registers 1 = 7 := ⟨_, rfl, rfl, rfl, rfl⟩
  have halike : Repairs β.space β.memory β.memory := by
    rw [hspace]
    exact ⟨apart_of_one hpages, apart_of_one hpages, rfl, fun _ _ => rfl⟩
  have hrun := (Disturbed.refl.step hβ).interrupt halike
  have hregular : RegularNext (onePage loadThenSet true).toMips := by
    intro mn hmn
    obtain rfl : mn = .load .word true := (Option.some.inj (hmn.symm.trans rfl))
    refine ⟨fun h => ?_, fun load h => ?_, fun h => (by cases h), fun h => (by cases h), fun h => (by cases h),
      fun link h => (by cases h)⟩
    · simp only [Mips.State.execute, Mips.State.load] at h
      split_ifs at h
      cases h
    · cases h
  have hfirst : ∀ i s, i < 1 → Mips.State.Runs (onePage loadThenSet true).toMips i s → RegularNext s := by
    intro i s hi hs
    obtain rfl : i = 0 := by omega
    rw [hs.eq_of_none rfl]
    exact hregular
  obtain ⟨hruns, -⟩ := user_program_follows_mips (onePage loadThenSet true) _ 1 hsound hfirst hrun
  exact ⟨_, hrun, hruns, hreg⟩

end UserMachine

end NachosFileSys
