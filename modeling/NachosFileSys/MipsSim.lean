import NachosFileSys.Lib.Programs
import NachosFileSys.Machine
import NachosFileSys.Registers

/-! `machine/mipssim.cc`: what one instruction of a user program does to the registers, and which accesses to
virtual memory it asks for. No instruction assigns a register before its last access, so that an access that
raises an exception leaves the registers as they were. -/

namespace NachosFileSys

open Lib.Bytes Lib.Programs

inductive OpCode
  | add | addi | addiu | addu | and | andi | beq | bgez | bgezal | bgtz | blez | bltz | bltzal | bne | div | divu
  | j | jal | jalr | jr | lb | lbu | lh | lhu | lui | lw | lwl | lwr | mfhi | mflo | mthi | mtlo | mult | multu
  | nor | or | ori | sb | sh | sll | sllv | slt | slti | sltiu | sltu | sra | srav | srl | srlv | sub | subu
  | sw | swl | swr | xor | xori | syscall | unimp | res
  deriving DecidableEq

inductive OpFormat
  | ifmt | jfmt | rfmt

/-- An entry of `opTable`: an opcode, or a value for further decoding. -/
inductive OpInfo
  | op (opCode : OpCode)
  | special
  | bcond

def opTable : List (OpInfo × OpFormat) :=
  [(.special, .rfmt), (.bcond, .ifmt), (.op .j, .jfmt), (.op .jal, .jfmt),
    (.op .beq, .ifmt), (.op .bne, .ifmt), (.op .blez, .ifmt), (.op .bgtz, .ifmt),
    (.op .addi, .ifmt), (.op .addiu, .ifmt), (.op .slti, .ifmt), (.op .sltiu, .ifmt),
    (.op .andi, .ifmt), (.op .ori, .ifmt), (.op .xori, .ifmt), (.op .lui, .ifmt),
    (.op .unimp, .ifmt), (.op .unimp, .ifmt), (.op .unimp, .ifmt), (.op .unimp, .ifmt),
    (.op .res, .ifmt), (.op .res, .ifmt), (.op .res, .ifmt), (.op .res, .ifmt),
    (.op .res, .ifmt), (.op .res, .ifmt), (.op .res, .ifmt), (.op .res, .ifmt),
    (.op .res, .ifmt), (.op .res, .ifmt), (.op .res, .ifmt), (.op .res, .ifmt),
    (.op .lb, .ifmt), (.op .lh, .ifmt), (.op .lwl, .ifmt), (.op .lw, .ifmt),
    (.op .lbu, .ifmt), (.op .lhu, .ifmt), (.op .lwr, .ifmt), (.op .res, .ifmt),
    (.op .sb, .ifmt), (.op .sh, .ifmt), (.op .swl, .ifmt), (.op .sw, .ifmt),
    (.op .res, .ifmt), (.op .res, .ifmt), (.op .swr, .ifmt), (.op .res, .ifmt),
    (.op .unimp, .ifmt), (.op .unimp, .ifmt), (.op .unimp, .ifmt), (.op .unimp, .ifmt),
    (.op .res, .ifmt), (.op .res, .ifmt), (.op .res, .ifmt), (.op .res, .ifmt),
    (.op .unimp, .ifmt), (.op .unimp, .ifmt), (.op .unimp, .ifmt), (.op .unimp, .ifmt),
    (.op .res, .ifmt), (.op .res, .ifmt), (.op .res, .ifmt), (.op .res, .ifmt)]

def specialTable : List OpCode :=
  [.sll, .res, .srl, .sra, .sllv, .res, .srlv, .srav, .jr, .jalr, .res, .res, .syscall, .unimp, .res, .res,
    .mfhi, .mthi, .mflo, .mtlo, .res, .res, .res, .res, .mult, .multu, .div, .divu, .res, .res, .res, .res,
    .add, .addu, .sub, .subu, .and, .or, .xor, .nor, .res, .res, .slt, .sltu, .res, .res, .res, .res,
    .res, .res, .res, .res, .res, .res, .res, .res, .res, .res, .res, .res, .res, .res, .res, .res]

structure Instruction where
  opCode : OpCode
  rs : BitVec 5
  rt : BitVec 5
  rd : BitVec 5
  extra : Word

def decode (value : Word) : Instruction :=
  let rt := value.extractLsb' 16 5
  let (info, format) := opTable.getD (value.extractLsb' 26 6).toNat (.op .res, .ifmt)
  let extra : Word :=
    match format with
    | .ifmt => (value.extractLsb' 0 16).signExtend 32
    | .rfmt => (value.extractLsb' 6 5).setWidth 32
    | .jfmt => (value.extractLsb' 0 26).setWidth 32
  let opCode : OpCode :=
    match info with
    | .op opCode => opCode
    | .special => specialTable.getD (value.extractLsb' 0 6).toNat .res
    | .bcond =>
      if rt = 0 then .bltz else if rt = 1 then .bgez else if rt = 0x10 then .bltzal else if rt = 0x11 then .bgezal
      else .unimp
  ⟨opCode, value.extractLsb' 21 5, rt, value.extractLsb' 11 5, extra⟩

def general (num : BitVec 5) : Fin NumTotalRegs := ⟨num.toNat, lt_trans num.isLt (by norm_num)⟩

inductive MachineEvent
  | readMem (addr : Word) (size : ℤ)
  | writeMem (addr : Word) (size : ℤ) (value : Word)
  | raiseException (which : ExceptionType) (badVAddr : Word)
  -- an assertion fails, or the division of the host traps
  | abort

def MachineEvent.Reply : MachineEvent → Type
  | .readMem _ _ => Word
  | .writeMem _ _ _ => Unit
  | .raiseException _ _ => Empty
  | .abort => Empty

abbrev Exec := Prog MachineEvent MachineEvent.Reply

namespace Exec

def readMem (addr : Word) (size : ℤ) : Exec Word :=
  .request (.readMem addr size) .pure

def writeMem (addr : Word) (size : ℤ) (value : Word) : Exec Unit :=
  .request (.writeMem addr size value) .pure

def raiseException {α : Type} (which : ExceptionType) (badVAddr : Word) : Exec α :=
  .request (.raiseException which badVAddr) Empty.elim

def abort {α : Type} : Exec α := .request .abort Empty.elim

end Exec

structure Executed where
  registers : Registers
  nextLoadReg : Word
  nextLoadValue : Word
  pcAfter : Word

def signBit : Word := 0x80000000

def negative (w : Word) : Bool := w &&& signBit ≠ 0

def indexToAddr (x : Word) : Word := x <<< 2

def multLoop : ℕ → (a bLo bHi lo hi : Word) → Word × Word
  | 0, _, _, _, lo, hi => (hi, lo)
  | n + 1, a, bLo, bHi, lo, hi =>
    let lo' := if a &&& 1 ≠ 0 then lo + bLo else lo
    let hi' := if a &&& 1 ≠ 0 then (if lo' < bLo then hi + 1 else hi) + bHi else hi
    if a &&& 1 ≠ 0 ∧ a &&& 0xfffffffe = 0 then (hi', lo')
    else
      let bHi := bHi <<< 1
      let bHi := if negative bLo then bHi ||| 1 else bHi
      multLoop n (a.sshiftRight 1) (bLo <<< 1) bHi lo' hi'

def mult (a b : Word) (signedArith : Bool) : Word × Word :=
  if a = 0 ∨ b = 0 then (0, 0)
  else
    let negA := signedArith && decide (a.toInt < 0)
    let negB := signedArith && decide (b.toInt < 0)
    let (hi, lo) := multLoop 32 (if negA then -a else a) (if negB then -b else b) 0 0 0
    if negA != negB then
      let lo := ~~~lo + 1
      (if lo = 0 then ~~~hi + 1 else ~~~hi, lo)
    else (hi, lo)

/-- The value into which `LWL` and `LWR` merge: that of a load that is still pending, if there is one. -/
def mergeBase (r : Registers) (rt : BitVec 5) : Word :=
  if r Registers.loadReg = rt.setWidth 32 then r Registers.loadValueReg else r (general rt)

def mergeLeft (old value : Word) : ℕ → Word
  | 0 => value
  | 1 => (old &&& 0xff) ||| (value <<< 8)
  | 2 => (old &&& 0xffff) ||| (value <<< 16)
  | _ => (old &&& 0xffffff) ||| (value <<< 24)

def mergeRight (old value : Word) : ℕ → Word
  | 0 => (old &&& 0xffffff00) ||| (value.sshiftRight 24 &&& 0xff)
  | 1 => (old &&& 0xffff0000) ||| (value.sshiftRight 16 &&& 0xffff)
  | 2 => (old &&& 0xff000000) ||| (value.sshiftRight 8 &&& 0xffffff)
  | _ => value

def storeLeft (old value : Word) : ℕ → Word
  | 0 => value
  | 1 => (old &&& 0xff000000) ||| (value.sshiftRight 8 &&& 0xffffff)
  | 2 => (old &&& 0xffff0000) ||| (value.sshiftRight 16 &&& 0xffff)
  | _ => (old &&& 0xffffff00) ||| (value.sshiftRight 24 &&& 0xff)

def storeRight (old value : Word) : ℕ → Word
  | 0 => (old &&& 0xffffff) ||| (value <<< 24)
  | 1 => (old &&& 0xffff) ||| (value <<< 16)
  | 2 => (old &&& 0xff) ||| (value <<< 8)
  | _ => value

namespace Instruction

open Registers Exec

variable (instr : Instruction) (r : Registers)

def finish (pcAfter : Word) : Exec Executed := pure ⟨r, 0, 0, pcAfter⟩

def load (rt : BitVec 5) (value pcAfter : Word) : Exec Executed := pure ⟨r, rt.setWidth 32, value, pcAfter⟩

def execute : Exec Executed :=
  let rs := r (general instr.rs)
  let rt := r (general instr.rt)
  let extra := instr.extra
  let pcAfter := r nextPCReg + 4
  let target := r nextPCReg + indexToAddr extra
  let toRd (value : Word) : Exec Executed := finish (r.set (general instr.rd) value) pcAfter
  let toRt (value : Word) : Exec Executed := finish (r.set (general instr.rt) value) pcAfter
  let branch (r : Registers) (taken : Bool) : Exec Executed := finish r (if taken then target else pcAfter)
  let link : Registers := r.set retAddrReg pcAfter
  let tmp := rs + extra
  let byte := tmp &&& 3
  let place := (3 - byte).toNat
  match instr.opCode with
  | .add =>
    let sum := rs + rt
    if !negative (rs ^^^ rt) && negative (rs ^^^ sum) then raiseException .overflowException 0 else toRd sum
  | .addi =>
    let sum := rs + extra
    if !negative (rs ^^^ extra) && negative (extra ^^^ sum) then raiseException .overflowException 0 else toRt sum
  | .addiu => toRt (rs + extra)
  | .addu => toRd (rs + rt)
  | .and => toRd (rs &&& rt)
  | .andi => toRt (rs &&& (extra &&& 0xffff))
  | .beq => branch r (rs = rt)
  | .bgezal => branch link (!negative (link (general instr.rs)))
  | .bgez => branch r (!negative rs)
  | .bgtz => branch r (0 < rs.toInt)
  | .blez => branch r (rs.toInt ≤ 0)
  | .bltzal => branch link (negative (link (general instr.rs)))
  | .bltz => branch r (negative rs)
  | .bne => branch r (rs ≠ rt)
  | .div =>
    if rt = 0 then finish ((r.set loReg 0).set hiReg 0) pcAfter
    else if rs = signBit ∧ rt = -1 then abort
    else finish ((r.set loReg (rs.sdiv rt)).set hiReg (rs.srem rt)) pcAfter
  | .divu =>
    if rt = 0 then finish ((r.set loReg 0).set hiReg 0) pcAfter
    else finish ((r.set loReg (rs / rt)).set hiReg (rs % rt)) pcAfter
  | .jal => finish link ((pcAfter &&& 0xf0000000) ||| indexToAddr extra)
  | .j => finish r ((pcAfter &&& 0xf0000000) ||| indexToAddr extra)
  | .jalr =>
    let r := r.set (general instr.rd) pcAfter
    finish r (r (general instr.rs))
  | .jr => finish r rs
  | .lb => do
    let value ← readMem tmp 1
    load r instr.rt (if value &&& 0x80 ≠ 0 then value ||| 0xffffff00 else value &&& 0xff) pcAfter
  | .lbu => do
    let value ← readMem tmp 1
    load r instr.rt (value &&& 0xff) pcAfter
  | .lh =>
    if tmp &&& 1 ≠ 0 then raiseException .addressErrorException tmp
    else do
      let value ← readMem tmp 2
      load r instr.rt (if value &&& 0x8000 ≠ 0 then value ||| 0xffff0000 else value &&& 0xffff) pcAfter
  | .lhu =>
    if tmp &&& 1 ≠ 0 then raiseException .addressErrorException tmp
    else do
      let value ← readMem tmp 2
      load r instr.rt (value &&& 0xffff) pcAfter
  | .lui => toRt (extra <<< 16)
  | .lw =>
    if tmp &&& 3 ≠ 0 then raiseException .addressErrorException tmp
    else do
      let value ← readMem tmp 4
      load r instr.rt value pcAfter
  | .lwl => do
    let value ← readMem (tmp - byte) 4
    load r instr.rt (mergeLeft (mergeBase r instr.rt) value place) pcAfter
  | .lwr => do
    let value ← readMem (tmp - byte) 4
    load r instr.rt (mergeRight (mergeBase r instr.rt) value place) pcAfter
  | .mfhi => toRd (r hiReg)
  | .mflo => toRd (r loReg)
  | .mthi => finish (r.set hiReg rs) pcAfter
  | .mtlo => finish (r.set loReg rs) pcAfter
  | .mult => finish ((r.set hiReg (mult rs rt true).1).set loReg (mult rs rt true).2) pcAfter
  | .multu => finish ((r.set hiReg (mult rs rt false).1).set loReg (mult rs rt false).2) pcAfter
  | .nor => toRd (~~~(rs ||| rt))
  | .or => toRd (rs ||| rt)
  | .ori => toRt (rs ||| (extra &&& 0xffff))
  | .sb => do
    writeMem tmp 1 rt
    finish r pcAfter
  | .sh => do
    writeMem tmp 2 rt
    finish r pcAfter
  | .sll => toRd (rt <<< extra.toNat)
  | .sllv => toRd (rt <<< (rs &&& 0x1f).toNat)
  | .slt => toRd (if rs.toInt < rt.toInt then 1 else 0)
  | .slti => toRt (if rs.toInt < extra.toInt then 1 else 0)
  | .sltiu => toRt (if rs < extra then 1 else 0)
  | .sltu => toRd (if rs < rt then 1 else 0)
  | .sra => toRd (rt.sshiftRight extra.toNat)
  | .srav => toRd (rt.sshiftRight (rs &&& 0x1f).toNat)
  -- the shift is one of an `int`, as it is for `SRA`
  | .srl => toRd (rt.sshiftRight extra.toNat)
  | .srlv => toRd (rt.sshiftRight (rs &&& 0x1f).toNat)
  | .sub =>
    let diff := rs - rt
    if negative (rs ^^^ rt) && negative (rs ^^^ diff) then raiseException .overflowException 0 else toRd diff
  | .subu => toRd (rs - rt)
  | .sw => do
    writeMem tmp 4 rt
    finish r pcAfter
  | .swl => do
    let value ← readMem (tmp - byte) 4
    writeMem (tmp - byte) 4 (storeLeft value rt place)
    finish r pcAfter
  | .swr => do
    let value ← readMem (tmp - byte) 4
    writeMem (tmp - byte) 4 (storeRight value rt place)
    finish r pcAfter
  | .syscall => raiseException .syscallException 0
  | .xor => toRd (rs ^^^ rt)
  | .xori => toRt (rs ^^^ (extra &&& 0xffff))
  | .unimp | .res => raiseException .illegalInstrException 0

end Instruction

namespace Executed

open Registers

/-- The end of `OneInstruction`: the pending load is done, and the program counters advance. -/
def advance (e : Executed) : Registers :=
  let r := delayedLoad e.nextLoadReg e.nextLoadValue e.registers
  let r := r.set prevPCReg (r pcReg)
  let r := r.set pcReg (r nextPCReg)
  r.set nextPCReg e.pcAfter

end Executed

def oneInstruction (r : Registers) : Exec Registers := do
  let raw ← Exec.readMem (r Registers.pcReg) 4
  let e ← (decode raw).execute r
  pure e.advance

inductive Trap
  | exception (which : ExceptionType) (badVAddr : Word)
  | abort
  deriving DecidableEq

namespace PagedMachine

def respond (space : ℕ) : Handler MachineEvent MachineEvent.Reply PagedMachine (Trap × PagedMachine)
  | .readMem addr size, m =>
    match m.translate space addr.toInt size false with
    | .error which => .error (.exception which addr, m)
    | .ok (physicalAddress, m) =>
      match fetchData m.mainMemory physicalAddress size with
      | .error _ => .error (.abort, m)
      | .ok data => .ok (BitVec.ofInt 32 data, m)
  | .writeMem addr size value, m =>
    match m.translate space addr.toInt size true with
    | .error which => .error (.exception which addr, m)
    | .ok (physicalAddress, m) =>
      match storeData m.mainMemory physicalAddress size value.toInt with
      | .error _ => .error (.abort, m)
      | .ok memory => .ok ((), { m with mainMemory := memory })
  | .raiseException which badVAddr, m => .error (.exception which badVAddr, m)
  | .abort, m => .error (.abort, m)

end PagedMachine

def Registers.raised (badVAddr : Word) (r : Registers) : Registers :=
  delayedLoad 0 0 (r.set badVAddrReg badVAddr)

end NachosFileSys
