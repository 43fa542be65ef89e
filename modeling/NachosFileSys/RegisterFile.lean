import NachosFileSys.Scheduler
import NachosFileSys.Traps

/-! `OneInstruction` and `DelayedLoad` with each of their accesses to `registers`, whose index is a number, and
with the opcodes of `machine/mipssim.h`. -/

namespace NachosFileSys

open Lib.Bytes Lib.Programs

namespace OpCode

def value : OpCode → ℕ
  | .add => 1 | .addi => 2 | .addiu => 3 | .addu => 4 | .and => 5 | .andi => 6 | .beq => 7 | .bgez => 8
  | .bgezal => 9 | .bgtz => 10 | .blez => 11 | .bltz => 12 | .bltzal => 13 | .bne => 14 | .div => 16 | .divu => 17
  | .j => 18 | .jal => 19 | .jalr => 20 | .jr => 21 | .lb => 22 | .lbu => 23 | .lh => 24 | .lhu => 25
  | .lui => 26 | .lw => 27 | .lwl => 28 | .lwr => 29 | .mfhi => 31 | .mflo => 32 | .mthi => 34 | .mtlo => 35
  | .mult => 36 | .multu => 37 | .nor => 38 | .or => 39 | .ori => 40 | .sb => 42 | .sh => 43 | .sll => 44
  | .sllv => 45 | .slt => 46 | .slti => 47 | .sltiu => 48 | .sltu => 49 | .sra => 50 | .srav => 51 | .srl => 52
  | .srlv => 53 | .sub => 54 | .subu => 55 | .sw => 56 | .swl => 57 | .swr => 58 | .xor => 59 | .xori => 60
  | .syscall => 61 | .unimp => 62 | .res => 63

/-- The `case` of a value in the `switch`. `OP_RFE`, which is 41, has none. -/
def ofValue : ℕ → Option OpCode
  | 1 => some .add | 2 => some .addi | 3 => some .addiu | 4 => some .addu | 5 => some .and | 6 => some .andi
  | 7 => some .beq | 8 => some .bgez | 9 => some .bgezal | 10 => some .bgtz | 11 => some .blez | 12 => some .bltz
  | 13 => some .bltzal | 14 => some .bne | 16 => some .div | 17 => some .divu | 18 => some .j | 19 => some .jal
  | 20 => some .jalr | 21 => some .jr | 22 => some .lb | 23 => some .lbu | 24 => some .lh | 25 => some .lhu
  | 26 => some .lui | 27 => some .lw | 28 => some .lwl | 29 => some .lwr | 31 => some .mfhi | 32 => some .mflo
  | 34 => some .mthi | 35 => some .mtlo | 36 => some .mult | 37 => some .multu | 38 => some .nor | 39 => some .or
  | 40 => some .ori | 42 => some .sb | 43 => some .sh | 44 => some .sll | 45 => some .sllv | 46 => some .slt
  | 47 => some .slti | 48 => some .sltiu | 49 => some .sltu | 50 => some .sra | 51 => some .srav | 52 => some .srl
  | 53 => some .srlv | 54 => some .sub | 55 => some .subu | 56 => some .sw | 57 => some .swl | 58 => some .swr
  | 59 => some .xor | 60 => some .xori | 61 => some .syscall | 62 => some .unimp | 63 => some .res
  | _ => none

lemma ofValue_value (c : OpCode) : ofValue c.value = some c := by
  cases c <;> rfl

lemma value_le (c : OpCode) : c.value ≤ 63 := by
  cases c <;> decide

end OpCode

abbrev MaxOpcode : ℕ := 63
abbrev SPECIAL : ℕ := 100
abbrev BCOND : ℕ := 101

def OpInfo.value : OpInfo → ℕ
  | .op opCode => opCode.value
  | .special => SPECIAL
  | .bcond => BCOND

structure RawInstruction where
  opCode : ℕ
  rs : Word
  rt : Word
  rd : Word
  extra : Word

def RawInstruction.decodeExtra (value : Word) : OpFormat → Word
  | .ifmt =>
    let extra := value &&& 0xffff
    if extra &&& 0x8000 ≠ 0 then extra ||| 0xffff0000 else extra
  | .rfmt => (value >>> 6) &&& 0x1f
  | .jfmt => value &&& 0x3ffffff

/-- The opcode of an instruction whose entry in `opTable` is `BCOND`. -/
def RawInstruction.decodeBcond (value : Word) : OpCode :=
  let i := value &&& 0x1f0000
  if i = 0 then .bltz else if i = 0x10000 then .bgez else if i = 0x100000 then .bltzal
  else if i = 0x110000 then .bgezal else .unimp

/-- `Instruction::Decode`; `none` is an entry that a table does not have. -/
def RawInstruction.decode (value : Word) : Option RawInstruction := do
  let rs := (value >>> 21) &&& 0x1f
  let rt := (value >>> 16) &&& 0x1f
  let rd := (value >>> 11) &&& 0x1f
  let opPtr ← opTable[((value >>> 26) &&& 0x3f).toNat]?
  let extra := decodeExtra value opPtr.2
  if opPtr.1.value = SPECIAL then do
    let opCode ← specialTable[(value &&& 0x3f).toNat]?
    some ⟨opCode.value, rs, rt, rd, extra⟩
  else if opPtr.1.value = BCOND then some ⟨(decodeBcond value).value, rs, rt, rd, extra⟩
  else some ⟨opPtr.1.value, rs, rt, rd, extra⟩

/-- What `OneInstruction` does, with the accesses to the table of the registers. -/
inductive RegisterAccess
  | readRegister (num : Word)
  | writeRegister (num value : Word)
  | machine (e : MachineEvent)
  | assertFalse

def RegisterAccess.Reply : RegisterAccess → Type
  | .readRegister _ => Word
  | .writeRegister _ _ => Unit
  | .machine e => e.Reply
  | .assertFalse => Empty

abbrev Accesses := Prog RegisterAccess RegisterAccess.Reply

structure Delayed where
  nextLoadReg : Word
  nextLoadValue : Word
  pcAfter : Word

namespace Accesses

open Registers

def readRegister (num : Word) : Accesses Word := .request (.readRegister num) .pure

def writeRegister (num value : Word) : Accesses Unit := .request (.writeRegister num value) .pure

def readMem (addr : Word) (size : ℤ) : Accesses Word := .request (.machine (.readMem addr size)) .pure

def writeMem (addr : Word) (size : ℤ) (value : Word) : Accesses Unit :=
  .request (.machine (.writeMem addr size value)) .pure

def raise {α : Type} (which : ExceptionType) (badVAddr : Word) : Accesses α :=
  .request (.machine (.raiseException which badVAddr)) Empty.elim

def trap {α : Type} : Accesses α := .request (.machine .abort) Empty.elim

def assertFalse {α : Type} : Accesses α := .request .assertFalse Empty.elim

def numOf (num : Fin NumTotalRegs) : Word := BitVec.ofNat 32 num.val

def assigned (num value pcAfter : Word) : Accesses Delayed := do
  writeRegister num value
  pure ⟨0, 0, pcAfter⟩

def branch (extra : Word) (taken : Bool) (pcAfter : Word) : Accesses Delayed :=
  if taken then do
    let next ← readRegister (numOf nextPCReg)
    pure ⟨0, 0, next + indexToAddr extra⟩
  else pure ⟨0, 0, pcAfter⟩

def link (num : Word) : Accesses Unit := do
  let next ← readRegister (numOf nextPCReg)
  writeRegister num (next + 4)

def readOperands (instr : RawInstruction) : Accesses (Word × Word) := do
  let rs ← readRegister instr.rs
  let rt ← readRegister instr.rt
  pure (rs, rt)

def merged (instr : RawInstruction) : Accesses Word := do
  let pending ← readRegister (numOf loadReg)
  if pending = instr.rt then readRegister (numOf loadValueReg) else readRegister instr.rt

def perform (instr : RawInstruction) (pcAfter : Word) : OpCode → Accesses Delayed
  | .add => do
    let (rs, rt) ← readOperands instr
    let sum := rs + rt
    if !negative (rs ^^^ rt) && negative (rs ^^^ sum) then raise .overflowException 0
    else assigned instr.rd sum pcAfter
  | .addi => do
    let rs ← readRegister instr.rs
    let sum := rs + instr.extra
    if !negative (rs ^^^ instr.extra) && negative (instr.extra ^^^ sum) then raise .overflowException 0
    else assigned instr.rt sum pcAfter
  | .addiu => do
    let rs ← readRegister instr.rs
    assigned instr.rt (rs + instr.extra) pcAfter
  | .addu => do
    let (rs, rt) ← readOperands instr
    assigned instr.rd (rs + rt) pcAfter
  | .and => do
    let (rs, rt) ← readOperands instr
    assigned instr.rd (rs &&& rt) pcAfter
  | .andi => do
    let rs ← readRegister instr.rs
    assigned instr.rt (rs &&& (instr.extra &&& 0xffff)) pcAfter
  | .beq => do
    let (rs, rt) ← readOperands instr
    branch instr.extra (rs = rt) pcAfter
  | .bgezal => do
    link (numOf retAddrReg)
    let rs ← readRegister instr.rs
    branch instr.extra (!negative rs) pcAfter
  | .bgez => do
    let rs ← readRegister instr.rs
    branch instr.extra (!negative rs) pcAfter
  | .bgtz => do
    let rs ← readRegister instr.rs
    branch instr.extra (0 < rs.toInt) pcAfter
  | .blez => do
    let rs ← readRegister instr.rs
    branch instr.extra (rs.toInt ≤ 0) pcAfter
  | .bltzal => do
    link (numOf retAddrReg)
    let rs ← readRegister instr.rs
    branch instr.extra (negative rs) pcAfter
  | .bltz => do
    let rs ← readRegister instr.rs
    branch instr.extra (negative rs) pcAfter
  | .bne => do
    let (rs, rt) ← readOperands instr
    branch instr.extra (rs ≠ rt) pcAfter
  | .div => do
    let (rs, rt) ← readOperands instr
    if rt = 0 then do
      writeRegister (numOf loReg) 0
      assigned (numOf hiReg) 0 pcAfter
    else if rs = signBit ∧ rt = -1 then trap
    else do
      writeRegister (numOf loReg) (rs.sdiv rt)
      assigned (numOf hiReg) (rs.srem rt) pcAfter
  | .divu => do
    let (rs, rt) ← readOperands instr
    if rt = 0 then do
      writeRegister (numOf loReg) 0
      assigned (numOf hiReg) 0 pcAfter
    else do
      writeRegister (numOf loReg) (rs / rt)
      assigned (numOf hiReg) (rs % rt) pcAfter
  | .jal => do
    link (numOf retAddrReg)
    pure ⟨0, 0, (pcAfter &&& 0xf0000000) ||| indexToAddr instr.extra⟩
  | .j => pure ⟨0, 0, (pcAfter &&& 0xf0000000) ||| indexToAddr instr.extra⟩
  | .jalr => do
    link instr.rd
    let rs ← readRegister instr.rs
    pure ⟨0, 0, rs⟩
  | .jr => do
    let rs ← readRegister instr.rs
    pure ⟨0, 0, rs⟩
  | .lb => do
    let rs ← readRegister instr.rs
    let value ← readMem (rs + instr.extra) 1
    pure ⟨instr.rt, if value &&& 0x80 ≠ 0 then value ||| 0xffffff00 else value &&& 0xff, pcAfter⟩
  | .lbu => do
    let rs ← readRegister instr.rs
    let value ← readMem (rs + instr.extra) 1
    pure ⟨instr.rt, value &&& 0xff, pcAfter⟩
  | .lh => do
    let rs ← readRegister instr.rs
    let tmp := rs + instr.extra
    if tmp &&& 1 ≠ 0 then raise .addressErrorException tmp
    else do
      let value ← readMem tmp 2
      pure ⟨instr.rt, if value &&& 0x8000 ≠ 0 then value ||| 0xffff0000 else value &&& 0xffff, pcAfter⟩
  | .lhu => do
    let rs ← readRegister instr.rs
    let tmp := rs + instr.extra
    if tmp &&& 1 ≠ 0 then raise .addressErrorException tmp
    else do
      let value ← readMem tmp 2
      pure ⟨instr.rt, value &&& 0xffff, pcAfter⟩
  | .lui => assigned instr.rt (instr.extra <<< 16) pcAfter
  | .lw => do
    let rs ← readRegister instr.rs
    let tmp := rs + instr.extra
    if tmp &&& 3 ≠ 0 then raise .addressErrorException tmp
    else do
      let value ← readMem tmp 4
      pure ⟨instr.rt, value, pcAfter⟩
  | .lwl => do
    let rs ← readRegister instr.rs
    let tmp := rs + instr.extra
    let byte := tmp &&& 3
    let value ← readMem (tmp - byte) 4
    let old ← merged instr
    pure ⟨instr.rt, mergeLeft old value (3 - byte).toNat, pcAfter⟩
  | .lwr => do
    let rs ← readRegister instr.rs
    let tmp := rs + instr.extra
    let byte := tmp &&& 3
    let value ← readMem (tmp - byte) 4
    let old ← merged instr
    pure ⟨instr.rt, mergeRight old value (3 - byte).toNat, pcAfter⟩
  | .mfhi => do
    let hi ← readRegister (numOf hiReg)
    assigned instr.rd hi pcAfter
  | .mflo => do
    let lo ← readRegister (numOf loReg)
    assigned instr.rd lo pcAfter
  | .mthi => do
    let rs ← readRegister instr.rs
    assigned (numOf hiReg) rs pcAfter
  | .mtlo => do
    let rs ← readRegister instr.rs
    assigned (numOf loReg) rs pcAfter
  | .mult => do
    let (rs, rt) ← readOperands instr
    writeRegister (numOf hiReg) (mult rs rt true).1
    assigned (numOf loReg) (mult rs rt true).2 pcAfter
  | .multu => do
    let (rs, rt) ← readOperands instr
    writeRegister (numOf hiReg) (mult rs rt false).1
    assigned (numOf loReg) (mult rs rt false).2 pcAfter
  | .nor => do
    let (rs, rt) ← readOperands instr
    assigned instr.rd (~~~(rs ||| rt)) pcAfter
  | .or => do
    let (rs, rt) ← readOperands instr
    assigned instr.rd (rs ||| rt) pcAfter
  | .ori => do
    let rs ← readRegister instr.rs
    assigned instr.rt (rs ||| (instr.extra &&& 0xffff)) pcAfter
  | .sb => do
    let (rs, rt) ← readOperands instr
    writeMem (rs + instr.extra) 1 rt
    pure ⟨0, 0, pcAfter⟩
  | .sh => do
    let (rs, rt) ← readOperands instr
    writeMem (rs + instr.extra) 2 rt
    pure ⟨0, 0, pcAfter⟩
  | .sll => do
    let rt ← readRegister instr.rt
    assigned instr.rd (rt <<< instr.extra.toNat) pcAfter
  | .sllv => do
    let (rs, rt) ← readOperands instr
    assigned instr.rd (rt <<< (rs &&& 0x1f).toNat) pcAfter
  | .slt => do
    let (rs, rt) ← readOperands instr
    assigned instr.rd (if rs.toInt < rt.toInt then 1 else 0) pcAfter
  | .slti => do
    let rs ← readRegister instr.rs
    assigned instr.rt (if rs.toInt < instr.extra.toInt then 1 else 0) pcAfter
  | .sltiu => do
    let rs ← readRegister instr.rs
    assigned instr.rt (if rs < instr.extra then 1 else 0) pcAfter
  | .sltu => do
    let (rs, rt) ← readOperands instr
    assigned instr.rd (if rs < rt then 1 else 0) pcAfter
  | .sra => do
    let rt ← readRegister instr.rt
    assigned instr.rd (rt.sshiftRight instr.extra.toNat) pcAfter
  | .srav => do
    let (rs, rt) ← readOperands instr
    assigned instr.rd (rt.sshiftRight (rs &&& 0x1f).toNat) pcAfter
  | .srl => do
    let rt ← readRegister instr.rt
    assigned instr.rd (rt.sshiftRight instr.extra.toNat) pcAfter
  | .srlv => do
    let (rs, rt) ← readOperands instr
    assigned instr.rd (rt.sshiftRight (rs &&& 0x1f).toNat) pcAfter
  | .sub => do
    let (rs, rt) ← readOperands instr
    let diff := rs - rt
    if negative (rs ^^^ rt) && negative (rs ^^^ diff) then raise .overflowException 0
    else assigned instr.rd diff pcAfter
  | .subu => do
    let (rs, rt) ← readOperands instr
    assigned instr.rd (rs - rt) pcAfter
  | .sw => do
    let (rs, rt) ← readOperands instr
    writeMem (rs + instr.extra) 4 rt
    pure ⟨0, 0, pcAfter⟩
  | .swl => do
    let rs ← readRegister instr.rs
    let tmp := rs + instr.extra
    let byte := tmp &&& 3
    let value ← readMem (tmp - byte) 4
    let rt ← readRegister instr.rt
    writeMem (tmp - byte) 4 (storeLeft value rt (3 - byte).toNat)
    pure ⟨0, 0, pcAfter⟩
  | .swr => do
    let rs ← readRegister instr.rs
    let tmp := rs + instr.extra
    let byte := tmp &&& 3
    let value ← readMem (tmp - byte) 4
    let rt ← readRegister instr.rt
    writeMem (tmp - byte) 4 (storeRight value rt (3 - byte).toNat)
    pure ⟨0, 0, pcAfter⟩
  | .syscall => raise .syscallException 0
  | .xor => do
    let (rs, rt) ← readOperands instr
    assigned instr.rd (rs ^^^ rt) pcAfter
  | .xori => do
    let rs ← readRegister instr.rs
    assigned instr.rt (rs ^^^ (instr.extra &&& 0xffff)) pcAfter
  | .unimp => raise .illegalInstrException 0
  | .res => raise .illegalInstrException 0

def delayedLoad (nextReg nextValue : Word) : Accesses Unit := do
  let num ← readRegister (numOf loadReg)
  let value ← readRegister (numOf loadValueReg)
  writeRegister num value
  writeRegister (numOf loadReg) nextReg
  writeRegister (numOf loadValueReg) nextValue
  writeRegister 0 0

/-- `Machine::OneInstruction` up to the update of the program counters; the result is `pcAfter`. -/
def execute : Accesses Word := do
  let pc ← readRegister (numOf pcReg)
  let raw ← readMem pc 4
  match RawInstruction.decode raw with
  | none => assertFalse
  | some instr => do
    let next ← readRegister (numOf nextPCReg)
    let delayed ←
      match OpCode.ofValue instr.opCode with
      | some opCode => perform instr (next + 4) opCode
      | none => assertFalse
    delayedLoad delayed.nextLoadReg delayed.nextLoadValue
    pure delayed.pcAfter

def oneInstruction : Accesses Unit := do
  let pcAfter ← execute
  let pc ← readRegister (numOf pcReg)
  writeRegister (numOf prevPCReg) pc
  let next ← readRegister (numOf nextPCReg)
  writeRegister (numOf pcReg) next
  writeRegister (numOf nextPCReg) pcAfter

def raiseException (badVAddr : Word) : Accesses Unit := do
  writeRegister (numOf badVAddrReg) badVAddr
  delayedLoad 0 0

end Accesses

/-- An event as it is seen from outside, with the registers at that time; `stray` is an access outside the table
or to a register that may not be assigned. -/
inductive Observed
  | machine (e : MachineEvent) (r : Registers)
  | stray (num : Word)
  | assertFalse

def Observed.Reply : Observed → Type
  | .machine e _ => e.Reply
  | .stray _ => Empty
  | .assertFalse => Empty

def Observed.Proper : Observed → Prop
  | .machine _ _ => True
  | .stray _ => False
  | .assertFalse => False

def Observed.stop {α : Type} (e : Observed) (h : e.Reply → Empty) : Prog Observed Observed.Reply α :=
  .request e fun x => (h x).elim

def onRegisters {α : Type} (writable : Finset (Fin NumTotalRegs)) :
    Accesses α → Registers → Prog Observed Observed.Reply (α × Registers)
  | .pure a, r => .pure (a, r)
  | .request (.readRegister num) k, r =>
    if h : num.toNat < NumTotalRegs then onRegisters writable (k (r ⟨num.toNat, h⟩)) r
    else Observed.stop (.stray num) id
  | .request (.writeRegister num value) k, r =>
    if num.toNat ∈ writable.image Fin.val then onRegisters writable (k ()) (r.assign num value)
    else Observed.stop (.stray num) id
  | .request (.machine e) k, r => .request (.machine e r) fun x => onRegisters writable (k x) r
  | .request .assertFalse _, _ => Observed.stop .assertFalse id

def Exec.seen {α : Type} (r : Registers) : Exec α → Prog Observed Observed.Reply α
  | .pure a => .pure a
  | .request e k => .request (.machine e r) fun x => Exec.seen r (k x)

section

open Registers Accesses

variable {α β : Type} {writable : Finset (Fin NumTotalRegs)} {r : Registers}

lemma Observed.stop_bind (e : Observed) (h : e.Reply → Empty) (f : α → Prog Observed Observed.Reply β) :
    Observed.stop e h >>= f = Observed.stop e h := by
  rw [Observed.stop, Observed.stop, Prog.request_bind]
  congr 1
  funext x
  exact (h x).elim

lemma onRegisters_bind (p : Accesses α) (f : α → Accesses β) :
    onRegisters writable (p >>= f) r = onRegisters writable p r >>= fun x => onRegisters writable (f x.1) x.2 := by
  induction p generalizing r with
  | pure a => rfl
  | request e k ih =>
    rw [Prog.request_bind]
    cases e with
    | readRegister num =>
      rw [onRegisters, onRegisters]
      split
      · exact ih _
      · exact (Observed.stop_bind _ _ _).symm
    | writeRegister num value =>
      rw [onRegisters, onRegisters]
      split
      · exact ih _
      · exact (Observed.stop_bind _ _ _).symm
    | machine e =>
      rw [onRegisters, onRegisters, Prog.request_bind]
      congr 1
      funext x
      exact ih x
    | assertFalse =>
      rw [onRegisters, onRegisters]
      exact (Observed.stop_bind _ _ _).symm

lemma seen_bind (p : Exec α) (f : α → Exec β) :
    Exec.seen r (p >>= f) = Exec.seen r p >>= fun a => Exec.seen r (f a) := by
  induction p with
  | pure a => rfl
  | request e k ih =>
    rw [Prog.request_bind, Exec.seen, Exec.seen, Prog.request_bind]
    congr 1
    funext x
    exact ih x

lemma seen_all (p : Exec α) : (Exec.seen r p).All fun o => ∃ e, o = .machine e r := by
  induction p with
  | pure a => exact Prog.all_pure a
  | request e k ih => exact ⟨⟨e, rfl⟩, ih⟩

lemma seen_proper (p : Exec α) : (Exec.seen r p).All Observed.Proper := by
  refine (seen_all p).mono fun o ho => ?_
  obtain ⟨e, rfl⟩ := ho
  trivial

lemma asks_seen {p : Exec α} {e : MachineEvent} {r₁ : Registers} (h : Prog.Asks (Exec.seen r p) (.machine e r₁)) :
    r₁ = r := by
  obtain ⟨e', he⟩ := (seen_all p).asks h
  cases he
  rfl

lemma returns_of_seen {p : Exec α} {a : α} (h : Prog.Returns (Exec.seen r p) a) : Prog.Returns p a := by
  induction p with
  | pure b =>
    cases h
    exact .pure a
  | request e k ih =>
    cases h with
    | request x h => exact .request x (ih x h)

lemma numOf_toNat (num : Fin NumTotalRegs) : (numOf num).toNat = num.val := by
  rw [numOf, BitVec.toNat_ofNat, Nat.mod_eq_of_lt (lt_trans num.isLt (by decide))]

lemma numOf_general (num : BitVec 5) : numOf (general num) = num.setWidth 32 := by
  apply BitVec.eq_of_toNat_eq
  rw [numOf_toNat, BitVec.toNat_setWidth, Nat.mod_eq_of_lt (lt_trans num.isLt (by decide))]
  rfl

lemma assign_numOf (num : Fin NumTotalRegs) (value : Word) : r.assign (numOf num) value = r.set num value := by
  funext i
  rw [Registers.assign, numOf_toNat, Registers.set, Function.update_apply]
  exact if_congr Fin.val_inj rfl rfl

@[simp] lemma onRegisters_read (num : Fin NumTotalRegs) (f : Word → Accesses α) :
    onRegisters writable (readRegister (numOf num) >>= f) r = onRegisters writable (f (r num)) r := by
  have hlt : (numOf num).toNat < NumTotalRegs := by
    rw [numOf_toNat]
    exact num.isLt
  have hnum : (⟨(numOf num).toNat, hlt⟩ : Fin NumTotalRegs) = num := Fin.ext (numOf_toNat num)
  change (if h : (numOf num).toNat < NumTotalRegs then onRegisters writable
      (f (r ⟨(numOf num).toNat, h⟩)) r else _) = _
  rw [dif_pos hlt, hnum]

lemma onRegisters_write {num : Fin NumTotalRegs} (h : num ∈ writable) (value : Word) (f : Unit → Accesses α) :
    onRegisters writable (writeRegister (numOf num) value >>= f) r =
    onRegisters writable (f ()) (r.set num value) := by
  have hmem : (numOf num).toNat ∈ writable.image Fin.val := by
    rw [numOf_toNat]
    exact Finset.mem_image_of_mem _ h
  change (if (numOf num).toNat ∈ writable.image Fin.val then onRegisters writable
    (f ()) (r.assign (numOf num) value)
    else _) = _
  rw [if_pos hmem, assign_numOf]

def Instruction.raw (instr : Instruction) : RawInstruction :=
  ⟨instr.opCode.value, numOf (general instr.rs), numOf (general instr.rt), numOf (general instr.rd), instr.extra⟩

def Executed.delayed (e : Executed) : Delayed × Registers :=
  (⟨e.nextLoadReg, e.nextLoadValue, e.pcAfter⟩, e.registers)

def assignable : Finset (Fin NumTotalRegs) := Finset.univ.filter fun num => num.val < 34

lemma onRegisters_assigned {num : Fin NumTotalRegs} (h : num ∈ writable) (value pcAfter : Word) :
    onRegisters writable (assigned (numOf num) value pcAfter) r = pure (⟨0, 0, pcAfter⟩, r.set num value) :=
  onRegisters_write h value _

lemma onRegisters_readOperands (instr : Instruction) (f : Word × Word → Accesses α) :
    onRegisters writable (readOperands instr.raw >>= f) r =
      onRegisters writable (f (r (general instr.rs), r (general instr.rt))) r := by
  rw [readOperands, bind_assoc]
  simp only [Instruction.raw, onRegisters_read, bind_assoc, pure_bind]

lemma onRegisters_branch (extra : Word) (taken : Bool) (pcAfter : Word) :
    onRegisters writable (branch extra taken pcAfter) r =
      pure (⟨0, 0, if taken then r nextPCReg + indexToAddr extra else pcAfter⟩, r) := by
  rw [branch]
  cases taken with
  | true => exact onRegisters_read _ _
  | false => rfl

lemma onRegisters_link {num : Fin NumTotalRegs} (h : num ∈ writable) (f : Unit → Accesses α) :
    onRegisters writable (link (numOf num) >>= f) r =
    onRegisters writable (f ()) (r.set num (r nextPCReg + 4)) := by
  rw [link, bind_assoc, onRegisters_read, onRegisters_write h]

lemma onRegisters_merged (instr : Instruction) (f : Word → Accesses α) :
    onRegisters writable (merged instr.raw >>= f) r = onRegisters writable (f (mergeBase r instr.rt)) r := by
  rw [merged, bind_assoc, onRegisters_read]
  have hrt : instr.raw.rt = instr.rt.setWidth 32 := numOf_general instr.rt
  by_cases h : r loadReg = instr.raw.rt
  · rw [if_pos h, mergeBase, if_pos (h.trans hrt)]
    exact onRegisters_read _ _
  · rw [if_neg h, mergeBase, if_neg (fun h' => h (h'.trans hrt.symm))]
    exact onRegisters_read _ _

lemma onRegisters_readMem {addr : Word} {size : ℤ} {f : Word → Accesses α} {g : Word → Exec (α × Registers)}
    (h : ∀ value, onRegisters writable (f value) r = Exec.seen r (g value)) :
    onRegisters writable (readMem addr size >>= f) r = Exec.seen r (Exec.readMem addr size >>= g) :=
  congrArg (Prog.request (Observed.machine (.readMem addr size) r)) (funext h)

lemma onRegisters_writeMem {addr value : Word} {size : ℤ} {f : Unit → Accesses α} {g : Unit → Exec (α × Registers)}
    (h : ∀ u, onRegisters writable (f u) r = Exec.seen r (g u)) :
    onRegisters writable (writeMem addr size value >>= f) r = Exec.seen r (Exec.writeMem addr size value >>= g) :=
  congrArg (Prog.request (Observed.machine (.writeMem addr size value) r)) (funext h)

lemma onRegisters_load (rt : BitVec 5) (value pcAfter : Word) :
    onRegisters writable (pure ⟨numOf (general rt), value, pcAfter⟩) r =
      Exec.seen r (Instruction.load r rt value pcAfter >>= fun e => pure e.delayed) := by
  rw [numOf_general]
  rfl

lemma onRegisters_raise (which : ExceptionType) (badVAddr : Word) (g : Executed → Exec (α × Registers)) :
    onRegisters writable (raise which badVAddr) r = Exec.seen r (Exec.raiseException which badVAddr >>= g) :=
  congrArg (Prog.request (Observed.machine (.raiseException which badVAddr) r)) (funext fun x => x.elim)

lemma onRegisters_trap (g : Executed → Exec (α × Registers)) :
    onRegisters writable trap r = Exec.seen r (Exec.abort >>= g) :=
  congrArg (Prog.request (Observed.machine .abort r)) (funext fun x => x.elim)

lemma onRegisters_ite {c : Prop} [Decidable c] {p q : Accesses α} {p' q' : Exec β} {g : β → Exec (α × Registers)}
    (hp : onRegisters writable p r = Exec.seen r (p' >>= g))
    (hq : onRegisters writable q r = Exec.seen r (q' >>= g)) :
    onRegisters writable (if c then p else q) r = Exec.seen r ((if c then p' else q') >>= g) := by
  by_cases hc : c
  · rwa [if_pos hc, if_pos hc]
  · rwa [if_neg hc, if_neg hc]

/-- A case of the `switch` on the table of the registers: every index is in the table, and no register has been
assigned before a trap. -/
lemma onRegisters_perform (instr : Instruction) (hw : assignable ⊆ writable) :
    onRegisters writable (perform instr.raw (r nextPCReg + 4) instr.opCode) r =
      Exec.seen r (instr.execute r >>= fun e => pure e.delayed) := by
  have hmem {num : Fin NumTotalRegs} (h : num.val < 34) : num ∈ writable :=
    hw (Finset.mem_filter.mpr ⟨Finset.mem_univ _, h⟩)
  have hgeneral (num : BitVec 5) : general num ∈ writable := hmem (lt_trans num.isLt (by decide))
  have hlo : loReg ∈ writable := hmem (by decide)
  have hhi : hiReg ∈ writable := hmem (by decide)
  have hret : retAddrReg ∈ writable := hmem (by decide)
  have hquotient (v w : Word) :=
    (onRegisters_write hlo v fun _ => assigned (numOf hiReg) w (r nextPCReg + 4)).trans
    (onRegisters_assigned (r := r.set loReg v) hhi w (r nextPCReg + 4))
  obtain ⟨opCode, rs, rt, rd, extra⟩ := instr
  cases opCode with
  | addu | and | nor | or | slt | sltu | sllv | srav | srlv | subu | xor =>
    rw [perform, onRegisters_readOperands]
    exact onRegisters_assigned (hgeneral rd) _ _
  | add | sub =>
    rw [perform, onRegisters_readOperands]
    exact onRegisters_ite (onRegisters_raise _ _ _) (onRegisters_assigned (hgeneral rd) _ _)
  | addi =>
    refine (onRegisters_read _ _).trans ?_
    exact onRegisters_ite (onRegisters_raise _ _ _) (onRegisters_assigned (hgeneral rt) _ _)
  | addiu | andi | ori | slti | sltiu | xori =>
    exact (onRegisters_read _ _).trans (onRegisters_assigned (hgeneral rt) _ _)
  | sll | sra | srl => exact (onRegisters_read _ _).trans (onRegisters_assigned (hgeneral rd) _ _)
  | lui => exact onRegisters_assigned (hgeneral rt) _ _
  | mfhi | mflo => exact (onRegisters_read _ _).trans (onRegisters_assigned (hgeneral rd) _ _)
  | mthi => exact (onRegisters_read _ _).trans (onRegisters_assigned hhi _ _)
  | mtlo => exact (onRegisters_read _ _).trans (onRegisters_assigned hlo _ _)
  | mult | multu =>
    rw [perform, onRegisters_readOperands]
    exact (onRegisters_write hhi _ _).trans (onRegisters_assigned hlo _ _)
  | div =>
    rw [perform, onRegisters_readOperands]
    exact onRegisters_ite (hquotient _ _) (onRegisters_ite (onRegisters_trap _) (hquotient _ _))
  | divu =>
    rw [perform, onRegisters_readOperands]
    exact onRegisters_ite (hquotient _ _) (hquotient _ _)
  | beq | bne =>
    rw [perform, onRegisters_readOperands]
    exact onRegisters_branch _ _ _
  | bgez | bgtz | blez | bltz => exact (onRegisters_read _ _).trans (onRegisters_branch _ _ _)
  | bgezal | bltzal =>
    refine (onRegisters_link hret _).trans ((onRegisters_read _ _).trans ((onRegisters_branch _ _ _).trans ?_))
    rw [set_of_ne _ (by decide : nextPCReg ≠ retAddrReg)]
    rfl
  | j => rfl
  | jal => exact onRegisters_link hret _
  | jr => exact onRegisters_read _ _
  | jalr => exact (onRegisters_link (hgeneral rd) _).trans (onRegisters_read _ _)
  | lb | lbu => exact (onRegisters_read _ _).trans (onRegisters_readMem fun value => onRegisters_load rt _ _)
  | lh | lhu | lw =>
    refine (onRegisters_read _ _).trans ?_
    exact onRegisters_ite (onRegisters_raise _ _ _) (onRegisters_readMem fun value => onRegisters_load rt _ _)
  | lwl | lwr =>
    refine (onRegisters_read _ _).trans (onRegisters_readMem fun value => ?_)
    exact (onRegisters_merged ⟨_, rs, rt, rd, extra⟩ _).trans (onRegisters_load rt _ _)
  | sb | sh | sw =>
    rw [perform, onRegisters_readOperands]
    exact onRegisters_writeMem fun _ => rfl
  | swl | swr =>
    refine (onRegisters_read _ _).trans (onRegisters_readMem fun value => ?_)
    exact (onRegisters_read _ _).trans (onRegisters_writeMem fun _ => rfl)
  | syscall | unimp | res => exact onRegisters_raise _ _ _

lemma shift_mask (w : Word) (start len : ℕ) (hlen : len ≤ 32) :
    (w >>> start) &&& BitVec.ofNat 32 (2 ^ len - 1) = (w.extractLsb' start len).setWidth 32 := by
  have hle : 2 ^ len ≤ 2 ^ 32 := Nat.pow_le_pow_right (by decide) hlen
  have hpos : 0 < 2 ^ len := by positivity
  apply BitVec.eq_of_toNat_eq
  rw [BitVec.toNat_and, BitVec.toNat_ushiftRight, BitVec.toNat_ofNat,
    Nat.mod_eq_of_lt (by omega : 2 ^ len - 1 < 2 ^ 32),
    Nat.and_two_pow_sub_one_eq_mod, BitVec.toNat_setWidth, BitVec.extractLsb'_toNat,
    Nat.mod_eq_of_lt (lt_of_lt_of_le (Nat.mod_lt _ hpos) hle)]

lemma shift_mask_general (w : Word) (start : ℕ) :
    (w >>> start) &&& 0x1f = numOf (general (w.extractLsb' start 5)) :=
  (shift_mask w start 5 (by decide)).trans (numOf_general _).symm

lemma shift_mask_six (w : Word) (start : ℕ) : ((w >>> start) &&& 0x3f).toNat = (w.extractLsb' start 6).toNat := by
  rw [show (w >>> start) &&& 0x3f = (w.extractLsb' start 6).setWidth 32 from shift_mask w start 6 (by decide),
    BitVec.toNat_setWidth, Nat.mod_eq_of_lt (lt_trans (BitVec.isLt _) (by decide))]

lemma sign_extended (w : Word) :
    (if (w &&& 0xffff) &&& 0x8000 ≠ 0 then (w &&& 0xffff) ||| 0xffff0000 else w &&& 0xffff) =
      (w.extractLsb' 0 16).signExtend 32 := by
  have hlow : w &&& 0xffff = (w.extractLsb' 0 16).setWidth 32 := by
    rw [← shift_mask w 0 16 (by decide), BitVec.ushiftRight_zero]
    rfl
  rw [hlow]
  generalize w.extractLsb' 0 16 = imm
  have hbit : (0x8000 : Word) = BitVec.twoPow 32 15 := by decide
  have hhigh : (0xffff0000 : Word) = BitVec.allOnes 16 ++ 0#16 := by decide
  have hmsb : (imm.setWidth 32).getLsbD 15 = imm.msb := by
    rw [BitVec.getLsbD_setWidth, BitVec.msb_eq_getLsbD_last]
    rfl
  rw [hbit, BitVec.and_twoPow, hmsb]
  cases hm : imm.msb with
  | false =>
    rw [if_neg (by simp), BitVec.signExtend_eq_setWidth_of_msb_false hm]
  | true =>
    rw [if_pos (by decide), hhigh]
    apply BitVec.eq_of_getLsbD_eq
    intro i hi
    rw [BitVec.getLsbD_or, BitVec.getLsbD_setWidth, BitVec.getLsbD_append, BitVec.getLsbD_signExtend]
    by_cases h : i < 16
    · simp [h, hi]
    · have hlow : i - 16 < 16 := by omega
      rw [if_neg h, if_neg h, BitVec.getLsbD_allOnes, decide_eq_true hlow, Bool.or_true, hm, decide_eq_true hi,
        Bool.true_and]

lemma bcond_iff (w : Word) (num : BitVec 5) :
    w &&& (0x1f0000 : Word) = (num.setWidth 32 <<< 16 : Word) ↔ w.extractLsb' 16 5 = num := by
  have hplace : w &&& (0x1f0000 : Word) = ((w.extractLsb' 16 5).setWidth 32 <<< 16 : Word) := by
    apply BitVec.eq_of_getLsbD_eq
    intro i hi
    have hmask : (0x1f0000 : Word) = (BitVec.allOnes 5).setWidth 32 <<< 16 := by decide
    rw [hmask, BitVec.getLsbD_and, BitVec.getLsbD_shiftLeft, BitVec.getLsbD_shiftLeft, BitVec.getLsbD_setWidth,
      BitVec.getLsbD_setWidth, BitVec.getLsbD_allOnes, BitVec.getLsbD_extractLsb']
    by_cases h : i < 16
    · simp [h]
    · by_cases h' : i - 16 < 5
      · have hi' : 16 + (i - 16) = i := by omega
        simp [h, h', hi, hi', Bool.and_comm]
      · simp [h, h']
  have hinj (x y : BitVec 5) (h : x.setWidth 32 <<< 16 = (y.setWidth 32 <<< 16 : Word)) : x = y := by
    have hnat (z : BitVec 5) : (z.setWidth 32 <<< 16 : Word).toNat = z.toNat * 65536 := by
      have hz := z.isLt
      rw [BitVec.toNat_shiftLeft, BitVec.toNat_setWidth, Nat.shiftLeft_eq]
      omega
    have heq := congrArg BitVec.toNat h
    rw [hnat, hnat] at heq
    exact BitVec.eq_of_toNat_eq (by omega)
  rw [hplace]
  exact ⟨hinj _ _, fun h => by rw [h]⟩

lemma getElem?_of_lt {α : Type} {l : List α} (d : α) {k : ℕ} (h : k < l.length) : l[k]? = some (l.getD k d) := by
  rw [List.getD_eq_getElem?_getD, List.getElem?_eq_getElem h, Option.getD_some]

lemma decodeExtra_eq (value : Word) (format : OpFormat) :
    RawInstruction.decodeExtra value format =
      match format with
      | .ifmt => (value.extractLsb' 0 16).signExtend 32
      | .rfmt => (value.extractLsb' 6 5).setWidth 32
      | .jfmt => (value.extractLsb' 0 26).setWidth 32 := by
  cases format with
  | ifmt => exact sign_extended value
  | rfmt => exact shift_mask value 6 5 (by decide)
  | jfmt =>
    have h := shift_mask value 0 26 (by decide)
    rwa [BitVec.ushiftRight_zero] at h

lemma decodeBcond_eq (value : Word) :
    RawInstruction.decodeBcond value =
      if value.extractLsb' 16 5 = 0 then .bltz else if value.extractLsb' 16 5 = 1 then .bgez
      else if value.extractLsb' 16 5 = 0x10 then .bltzal else
      if value.extractLsb' 16 5 = 0x11 then .bgezal else .unimp := by
  rw [RawInstruction.decodeBcond]
  exact if_congr (bcond_iff value 0) rfl (if_congr (bcond_iff value 1) rfl (if_congr (bcond_iff value 0x10) rfl
    (if_congr (bcond_iff value 0x11) rfl rfl)))

lemma RawInstruction.decode_eq (value : Word) :
    RawInstruction.decode value = some (NachosFileSys.decode value).raw := by
  have hop : ((value >>> 26) &&& 0x3f).toNat < opTable.length := by
    rw [shift_mask_six]
    exact BitVec.isLt _
  have hlow : (value &&& 0x3f).toNat = (value.extractLsb' 0 6).toNat := by
    rw [← shift_mask_six, BitVec.ushiftRight_zero]
  have hspecial : (value.extractLsb' 0 6).toNat < specialTable.length := BitVec.isLt _
  rw [RawInstruction.decode, getElem?_of_lt (.op .res, .ifmt) hop,
      shift_mask_six, hlow, getElem?_of_lt .res hspecial]
  dsimp only [Option.bind_eq_bind, Option.bind_some]
  rw [shift_mask_general, shift_mask_general, shift_mask_general,
      decodeExtra_eq, decodeBcond_eq, NachosFileSys.decode]
  generalize opTable.getD (value.extractLsb' 26 6).toNat (.op .res, .ifmt) = entry
  obtain ⟨info, format⟩ := entry
  cases info with
  | op c =>
    have hc := c.value_le
    rw [if_neg (by change c.value ≠ 100; omega), if_neg (by change c.value ≠ 101; omega)]
    rfl
  | special => rfl
  | bcond => rfl

def exceptPC : Finset (Fin NumTotalRegs) :=
  Finset.univ.filter fun num => num ≠ pcReg ∧ num ≠ nextPCReg ∧ num ≠ prevPCReg

lemma mem_exceptPC : ∀ {num : Fin NumTotalRegs}, num.val < 34 → num ∈ exceptPC := by
  decide

lemma assignable_subset : assignable ⊆ exceptPC := fun _ h => mem_exceptPC (Finset.mem_filter.mp h).2

lemma onRegisters_delayedLoad (hs : (r loadReg).toNat < 32) (hw : exceptPC ⊆ writable) (nextReg nextValue : Word) :
    onRegisters writable (Accesses.delayedLoad nextReg nextValue) r =
      pure ((), Registers.delayedLoad nextReg nextValue r) := by
  obtain ⟨num, hnum⟩ : ∃ num : BitVec 5, r loadReg = numOf (general num) := by
    refine ⟨(r loadReg).setWidth 5, ?_⟩
    rw [numOf_general]
    apply BitVec.eq_of_toNat_eq
    rw [BitVec.toNat_setWidth, BitVec.toNat_setWidth]
    omega
  have hgeneral : general num ∈ writable := hw (mem_exceptPC (lt_trans num.isLt (by decide)))
  have hmem {i : Fin NumTotalRegs} (h : i ∈ exceptPC) : i ∈ writable := hw h
  rw [Accesses.delayedLoad, onRegisters_read, onRegisters_read, hnum, onRegisters_write hgeneral,
    onRegisters_write (hmem (by decide)), onRegisters_write (hmem (by decide))]
  have hzero : (0 : Fin NumTotalRegs) ∈ writable := hmem (by decide)
  refine (onRegisters_write hzero 0 pure).trans ?_
  rw [Registers.delayedLoad, hnum, assign_numOf]
  rfl

lemma seen_rel {P : α → α → Prop} {p q : Exec α} (h : Prog.Rel P p q) {f g : α → Prog Observed Observed.Reply β}
    (hfg : ∀ a b, P a b → f a = g b) : Exec.seen r p >>= f = Exec.seen r q >>= g := by
  induction h with
  | pure hab => exact hfg _ _ hab
  | request e _ ih => exact congrArg (Prog.request (Observed.machine e r)) (funext ih)

lemma execute_self (instr : Instruction) (r : Registers) :
    Prog.Rel (Parallel (fun _ => False) r r) (instr.execute r) (instr.execute r) :=
  execute_rel instr (fun _ _ _ => rfl) (fun _ h => h.elim) (fun _ _ h => h) (fun _ _ h => h) fun _ => rfl

lemma onRegisters_execute (hs : (r loadReg).toNat < 32) (hw : exceptPC ⊆ writable) :
    onRegisters writable Accesses.execute r = Exec.seen r (do
      let raw ← Exec.readMem (r pcReg) 4
      let e ← (decode raw).execute r
      pure (e.pcAfter, Registers.delayedLoad e.nextLoadReg e.nextLoadValue e.registers)) := by
  rw [Accesses.execute, onRegisters_read]
  refine onRegisters_readMem fun raw => ?_
  rw [RawInstruction.decode_eq]
  dsimp only
  rw [onRegisters_read, show (decode raw).raw.opCode = (decode raw).opCode.value from rfl, OpCode.ofValue_value]
  dsimp only
  rw [onRegisters_bind, onRegisters_perform _ (assignable_subset.trans hw), seen_bind, bind_assoc, seen_bind]
  refine seen_rel (execute_self (decode raw) r).diag fun e e' h => ?_
  obtain ⟨rfl, hp⟩ := h
  change onRegisters writable (Accesses.delayedLoad e.nextLoadReg e.nextLoadValue >>= fun _ => pure e.pcAfter)
      e.registers = _
  have hload : e.registers loadReg = r loadReg := hp.left loadReg (.inr (by decide))
  rw [onRegisters_bind, onRegisters_delayedLoad (by rw [hload]; exact hs) hw]
  rfl

lemma onRegisters_oneInstruction (hs : (r loadReg).toNat < 32) :
    onRegisters Finset.univ Accesses.oneInstruction r =
      Exec.seen r (NachosFileSys.oneInstruction r >>= fun r' => pure ((), r')) := by
  have hright : Exec.seen r (NachosFileSys.oneInstruction r >>= fun r' => pure ((), r')) =
      Exec.seen r (Exec.readMem (r pcReg) 4) >>= fun raw =>
        Exec.seen r ((decode raw).execute r) >>= fun e => pure ((), e.advance) := by
    rw [NachosFileSys.oneInstruction, bind_assoc, seen_bind]
    congr 1
    funext raw
    rw [bind_assoc, seen_bind]
    rfl
  rw [hright, Accesses.oneInstruction, onRegisters_bind, onRegisters_execute hs (Finset.subset_univ _),
      seen_bind, bind_assoc]
  congr 1
  funext raw
  rw [seen_bind, bind_assoc]
  congr 1
  funext e
  change onRegisters Finset.univ (readRegister (numOf pcReg) >>= _)
    (Registers.delayedLoad e.nextLoadReg e.nextLoadValue e.registers) = _
  rw [onRegisters_read, onRegisters_write (Finset.mem_univ _),
      onRegisters_read, onRegisters_write (Finset.mem_univ _)]
  exact onRegisters_write (Finset.mem_univ _) _ pure

lemma onRegisters_raiseException (hs : (r loadReg).toNat < 32) (hw : exceptPC ⊆ writable) (badVAddr : Word) :
    onRegisters writable (Accesses.raiseException badVAddr) r = pure ((), r.raised badVAddr) := by
  have hload : (r.set badVAddrReg badVAddr) loadReg = r loadReg := set_of_ne _ (by decide) _
  rw [Accesses.raiseException, onRegisters_write (hw (by decide)),
      onRegisters_delayedLoad (by rw [hload]; exact hs) hw]
  rfl

def MachineEvent.badVAddr : MachineEvent → Option Word
  | .readMem addr _ => some addr
  | .writeMem addr _ _ => some addr
  | .raiseException _ badVAddr => some badVAddr
  | .abort => none

def Kept (r r' : Registers) : Prop := r' 0 = r 0 ∧ r' loadReg = r loadReg ∧ r' loadValueReg = r loadValueReg

/-- The registers between two instructions of a run in the address space, with any words fetched and any answers
of the memory. -/
inductive Boundary (space : Space) : Registers → Prop
  | start : Boundary space (Processor.initRegisters space)
  | instruction {r r' : Registers} : Boundary space r →
    Prog.Returns (onRegisters Finset.univ Accesses.oneInstruction r) ((), r') → Boundary space r'
  | exception {r r₁ r₂ r₃ : Registers} {e : MachineEvent} {badVAddr : Word} : Boundary space r →
    Prog.Asks (onRegisters Finset.univ Accesses.oneInstruction r) (.machine e r₁) → e.badVAddr = some badVAddr →
    Prog.Returns (onRegisters Finset.univ (Accesses.raiseException badVAddr) r₁) ((), r₂) →
    Kept r₂ r₃ → Boundary space r₃
  | interrupt {r r₁ r₂ : Registers} : Boundary space r →
    Prog.Returns (onRegisters Finset.univ (Accesses.delayedLoad 0 0) r) ((), r₁) → Kept r₁ r₂ → Boundary space r₂

structure Settled (r : Registers) : Prop where
  zero : r 0 = 0
  small : (r loadReg).toNat < 32

lemma Settled.delayedLoad {nextReg : Word} (h : nextReg.toNat < 32) (nextValue : Word) (r : Registers) :
    Settled (Registers.delayedLoad nextReg nextValue r) := by
  refine ⟨?_, ?_⟩
  · rw [delayedLoad_of_lt _ _ _ (by decide), if_pos rfl]
  · rw [delayedLoad_loadReg]
    exact h

lemma Settled.advance {e : Executed} (h : e.nextLoadReg.toNat < 32) : Settled e.advance := by
  have hd := Settled.delayedLoad h e.nextLoadValue e.registers
  refine ⟨?_, ?_⟩
  · rw [Executed.advance, set_of_ne _ (by decide), set_of_ne _ (by decide), set_of_ne _ (by decide)]
    exact hd.zero
  · rw [Executed.advance, set_of_ne _ (by decide), set_of_ne _ (by decide), set_of_ne _ (by decide)]
    exact hd.small

lemma Settled.kept {r r' : Registers} (h : Settled r) (hk : Kept r r') : Settled r' := by
  refine ⟨hk.1.trans h.zero, ?_⟩
  rw [hk.2.1]
  exact h.small

lemma Settled.initRegisters (space : Space) : Settled (Processor.initRegisters space) := by
  have hset (i : Fin NumTotalRegs) (h₁ : i ≠ stackReg) (h₂ : i ≠ nextPCReg) (h₃ : i ≠ pcReg) :
      Processor.initRegisters space i = 0 := by
    rw [Processor.initRegisters, set_of_ne _ h₁, set_of_ne _ h₂, set_of_ne _ h₃]
  refine ⟨hset 0 (by decide) (by decide) (by decide), ?_⟩
  rw [hset loadReg (by decide) (by decide) (by decide)]
  decide

lemma oneInstruction_settled (r : Registers) :
    Prog.Rel (fun x _ => Settled x.2) (NachosFileSys.oneInstruction r >>= fun r' => pure ((), r'))
      (NachosFileSys.oneInstruction r >>= fun r' => pure ((), r')) := by
  have hone :
      Prog.Rel (fun r₁ _ => Settled r₁) (NachosFileSys.oneInstruction r) (NachosFileSys.oneInstruction r) :=
    .request _ fun raw => (execute_self (decode raw) r).diag.bind fun e e' h => .pure (.advance (h.1 ▸ h.2.small))
  exact hone.bind fun r₁ r₂ h => .pure h

lemma returns_pure {p : Prog Observed Observed.Reply α} {a b : α} (hp : p = pure a) (h : Prog.Returns p b) :
    b = a := by
  subst hp
  cases h
  rfl

lemma Boundary.settled {space : Space} (h : Boundary space r) : Settled r := by
  induction h with
  | start => exact .initRegisters space
  | instruction _ hr ih =>
    rw [onRegisters_oneInstruction ih.small] at hr
    obtain ⟨_, hsettled⟩ := (oneInstruction_settled _).returns (returns_of_seen hr)
    exact hsettled
  | exception _ ha _ hr hk ih =>
    rw [onRegisters_oneInstruction ih.small] at ha
    obtain rfl := asks_seen ha
    have hdone := returns_pure (onRegisters_raiseException ih.small (Finset.subset_univ _) _) hr
    obtain rfl := congrArg Prod.snd hdone
    exact (Settled.delayedLoad (by decide) 0 _).kept hk
  | interrupt _ hr hk ih =>
    have hdone := returns_pure (onRegisters_delayedLoad ih.small (Finset.subset_univ _) 0 0) hr
    obtain rfl := congrArg Prod.snd hdone
    exact (Settled.delayedLoad (by decide) 0 _).kept hk

/-- At every instruction boundary of every run, register 0 is 0 and a delayed load is into a general
register; every index is in the table, the `switch` has a case for every opcode, and no program
counter is assigned but by the update at the end. -/
theorem register_file (space : Space) (r : Registers) (h : Boundary space r) :
    r 0 = 0 ∧ 0 ≤ (r loadReg).toInt ∧ (r loadReg).toInt ≤ 31 ∧
      (onRegisters Finset.univ Accesses.oneInstruction r).All Observed.Proper ∧
      (onRegisters exceptPC Accesses.execute r).All Observed.Proper ∧
      (onRegisters exceptPC (Accesses.delayedLoad 0 0) r).All Observed.Proper ∧
      (∀ e r₁ badVAddr, Prog.Asks (onRegisters Finset.univ Accesses.oneInstruction r) (.machine e r₁) →
        (onRegisters exceptPC (Accesses.raiseException badVAddr) r₁).All Observed.Proper) ∧
      ∀ value, ∃ instr, RawInstruction.decode value = some instr ∧ instr.opCode ≤ MaxOpcode ∧
        (OpCode.ofValue instr.opCode).isSome := by
  have hs := h.settled
  refine ⟨hs.zero, ?_, ?_, ?_, ?_, ?_, fun e r₁ badVAddr ha => ?_, fun value => ?_⟩
  · rw [BitVec.toInt_eq_toNat_of_lt (by have := hs.small; omega)]
    exact Int.natCast_nonneg _
  · rw [BitVec.toInt_eq_toNat_of_lt (by have := hs.small; omega)]
    have := hs.small
    omega
  · rw [onRegisters_oneInstruction hs.small]
    exact seen_proper _
  · rw [onRegisters_execute hs.small (subset_refl _)]
    exact seen_proper _
  · rw [onRegisters_delayedLoad hs.small (subset_refl _)]
    exact Prog.all_pure _
  · rw [onRegisters_oneInstruction hs.small] at ha
    obtain rfl := asks_seen ha
    rw [onRegisters_raiseException hs.small (subset_refl _)]
    exact Prog.all_pure _
  · refine ⟨(decode value).raw, RawInstruction.decode_eq value, OpCode.value_le _, ?_⟩
    change (OpCode.ofValue (decode value).opCode.value).isSome
    rw [OpCode.ofValue_value]
    rfl

/-- `LW $1, 8($0)` is executed, and the memory answers 7; the next instruction is not in memory when
it is fetched. -/
theorem register_file_loaded : ∃ r₁ r, Boundary ⟨0, 10⟩ r₁ ∧ r₁ loadReg = 1 ∧ r₁ loadValueReg = 7 ∧
    Boundary ⟨0, 10⟩ r ∧ r 1 = 7 ∧ r 0 = 0 ∧ 0 ≤ (r loadReg).toInt ∧ (r loadReg).toInt ≤ 31 ∧
    (onRegisters Finset.univ Accesses.oneInstruction r).All Observed.Proper := by
  have hsmall : (Processor.initRegisters ⟨0, 10⟩ loadReg).toNat < 32 := (Settled.initRegisters ⟨0, 10⟩).small
  obtain ⟨r₁, hreturns, hreg, hvalue⟩ : ∃ r₁, Prog.Returns (onRegisters Finset.univ Accesses.oneInstruction
      (Processor.initRegisters ⟨0, 10⟩)) ((), r₁) ∧ r₁ loadReg = 1 ∧ r₁ loadValueReg = 7 := by
    rw [onRegisters_oneInstruction hsmall]
    exact ⟨_, .request (0x8c010008 : Word) (.request (7 : Word) (.pure _)), rfl, rfl⟩
  have h₁ : Boundary ⟨0, 10⟩ r₁ := .instruction .start hreturns
  have hsmall₁ : (r₁ loadReg).toNat < 32 := h₁.settled.small
  have hasks :
      Prog.Asks (onRegisters Finset.univ Accesses.oneInstruction r₁) (.machine (.readMem (r₁ pcReg) 4) r₁) := by
    rw [onRegisters_oneInstruction hsmall₁]
    exact .now
  have hraised := onRegisters_raiseException hsmall₁ (Finset.subset_univ _) (r₁ pcReg)
  have hb : Boundary ⟨0, 10⟩ (r₁.raised (r₁ pcReg)) := by
    refine .exception h₁ hasks rfl ?_ ⟨rfl, rfl, rfl⟩
    rw [hraised]
    exact .pure _
  have hloaded : r₁.raised (r₁ pcReg) 1 = 7 := by
    rw [Registers.raised, delayedLoad_of_lt _ _ _ (by decide),
      set_of_ne _ (by decide), set_of_ne _ (by decide), hreg,
      hvalue]
    rfl
  obtain ⟨hzero, hlow, hhigh, hproper, -⟩ := register_file ⟨0, 10⟩ _ hb
  exact ⟨r₁, _, h₁, hreg, hvalue, hb, hloaded, hzero, hlow, hhigh, hproper⟩

end

end NachosFileSys
