import NachosFileSys.Lib.Bytes

/-! The integer instructions of a little-endian MIPS I processor. The instruction after a branch is executed before
the target, and the instruction after a load still sees the old value of the register, unless an interrupt lets the
load arrive before. -/

namespace NachosFileSys.Lib.Mips

open Lib.Bytes

section Fields

variable (raw : Word)

def opcode : BitVec 6 := raw.extractLsb' 26 6

def rs : BitVec 5 := raw.extractLsb' 21 5

def rt : BitVec 5 := raw.extractLsb' 16 5

def rd : BitVec 5 := raw.extractLsb' 11 5

def amount : BitVec 5 := raw.extractLsb' 6 5

def funct : BitVec 6 := raw.extractLsb' 0 6

def offset : BitVec 16 := raw.extractLsb' 0 16

def index : BitVec 26 := raw.extractLsb' 0 26

end Fields

inductive Operation
  | addu | subu | and | or | xor | nor | slt | sltu | sllv | srlv | srav
  deriving DecidableEq

namespace Operation

def eval (a b : Word) : Operation → Word
  | addu => a + b
  | subu => a - b
  | and => a &&& b
  | or => a ||| b
  | xor => a ^^^ b
  | nor => ~~~(a ||| b)
  | slt => if a.toInt < b.toInt then 1 else 0
  | sltu => if a.toNat < b.toNat then 1 else 0
  | sllv => b <<< (a.extractLsb' 0 5).toNat
  | srlv => b >>> (a.extractLsb' 0 5).toNat
  | srav => b.sshiftRight (a.extractLsb' 0 5).toNat

end Operation

inductive Immediate
  | addiu | slti | sltiu | andi | ori | xori | lui
  deriving DecidableEq

namespace Immediate

def eval (a : Word) (imm : BitVec 16) : Immediate → Word
  | addiu => a + imm.signExtend 32
  | slti => if a.toInt < imm.toInt then 1 else 0
  | sltiu => if a.toNat < (imm.signExtend 32).toNat then 1 else 0
  | andi => a &&& imm.setWidth 32
  | ori => a ||| imm.setWidth 32
  | xori => a ^^^ imm.setWidth 32
  | lui => imm ++ (0 : BitVec 16)

end Immediate

inductive Shift
  | sll | srl | sra
  deriving DecidableEq

namespace Shift

def eval (b : Word) (n : ℕ) : Shift → Word
  | sll => b <<< n
  | srl => b >>> n
  | sra => b.sshiftRight n

end Shift

inductive Multiplication
  | mult | multu | div | divu
  deriving DecidableEq

namespace Multiplication

def eval (a b : Word) : Multiplication → Option (Word × Word)
  | mult =>
    let product := BitVec.ofInt 64 (a.toInt * b.toInt)
    some (product.extractLsb' 32 32, product.extractLsb' 0 32)
  | multu =>
    let product := BitVec.ofNat 64 (a.toNat * b.toNat)
    some (product.extractLsb' 32 32, product.extractLsb' 0 32)
  | div => if b = 0 then none else some (a.srem b, a.sdiv b)
  | divu => if b = 0 then none else some (a % b, a / b)

variable {a b : Word}

lemma eval_zero (h : b = 0) : eval a b div = none ∧ eval a b divu = none := ⟨if_pos h, if_pos h⟩

lemma eval_div (h : b ≠ 0) : eval a b div = some (a.srem b, a.sdiv b) := if_neg h

lemma eval_divu (h : b ≠ 0) : eval a b divu = some (a % b, a / b) := if_neg h

end Multiplication

inductive Condition
  | eq | ne | lez | gtz | ltz | gez
  deriving DecidableEq

namespace Condition

def holds (a b : Word) : Condition → Bool
  | eq => a = b
  | ne => a ≠ b
  | lez => a.toInt ≤ 0
  | gtz => 0 < a.toInt
  | ltz => a.toInt < 0
  | gez => 0 ≤ a.toInt

end Condition

inductive Width
  | byte | half | word
  deriving DecidableEq

def Width.bytes : Width → ℕ
  | byte => 1
  | half => 2
  | word => 4

inductive Mnemonic
  | operate (op : Operation)
  | operateImmediate (op : Immediate)
  | shift (op : Shift)
  | add | addi | sub
  | multiply (op : Multiplication)
  | mfhi | mflo | mthi | mtlo
  | branch (condition : Condition) (link : Bool)
  | jump (link : Bool)
  | jr | jalr
  | load (width : Width) (signed : Bool)
  | lwl | lwr
  | store (width : Width)
  | swl | swr
  | syscall
  deriving DecidableEq

namespace Mnemonic

def special (funct : BitVec 6) : Option Mnemonic :=
  match funct with
  | 0x00 => some (shift .sll)
  | 0x02 => some (shift .srl)
  | 0x03 => some (shift .sra)
  | 0x04 => some (operate .sllv)
  | 0x06 => some (operate .srlv)
  | 0x07 => some (operate .srav)
  | 0x08 => some jr
  | 0x09 => some jalr
  | 0x0c => some syscall
  | 0x10 => some mfhi
  | 0x11 => some mthi
  | 0x12 => some mflo
  | 0x13 => some mtlo
  | 0x18 => some (multiply .mult)
  | 0x19 => some (multiply .multu)
  | 0x1a => some (multiply .div)
  | 0x1b => some (multiply .divu)
  | 0x20 => some add
  | 0x21 => some (operate .addu)
  | 0x22 => some sub
  | 0x23 => some (operate .subu)
  | 0x24 => some (operate .and)
  | 0x25 => some (operate .or)
  | 0x26 => some (operate .xor)
  | 0x27 => some (operate .nor)
  | 0x2a => some (operate .slt)
  | 0x2b => some (operate .sltu)
  | _ => none

def regimm (rt : BitVec 5) : Option Mnemonic :=
  match rt with
  | 0x00 => some (branch .ltz false)
  | 0x01 => some (branch .gez false)
  | 0x10 => some (branch .ltz true)
  | 0x11 => some (branch .gez true)
  | _ => none

def primary (opcode : BitVec 6) : Option Mnemonic :=
  match opcode with
  | 0x02 => some (jump false)
  | 0x03 => some (jump true)
  | 0x04 => some (branch .eq false)
  | 0x05 => some (branch .ne false)
  | 0x06 => some (branch .lez false)
  | 0x07 => some (branch .gtz false)
  | 0x08 => some addi
  | 0x09 => some (operateImmediate .addiu)
  | 0x0a => some (operateImmediate .slti)
  | 0x0b => some (operateImmediate .sltiu)
  | 0x0c => some (operateImmediate .andi)
  | 0x0d => some (operateImmediate .ori)
  | 0x0e => some (operateImmediate .xori)
  | 0x0f => some (operateImmediate .lui)
  | 0x20 => some (load .byte true)
  | 0x21 => some (load .half true)
  | 0x22 => some lwl
  | 0x23 => some (load .word true)
  | 0x24 => some (load .byte false)
  | 0x25 => some (load .half false)
  | 0x26 => some lwr
  | 0x28 => some (store .byte)
  | 0x29 => some (store .half)
  | 0x2a => some swl
  | 0x2b => some (store .word)
  | 0x2e => some swr
  | _ => none

def of (raw : Word) : Option Mnemonic :=
  if opcode raw = 0 then special (funct raw) else if opcode raw = 1 then regimm (rt raw) else primary (opcode raw)

/-- The register that the instruction assigns at once, so not one that it loads; 0 is no register. -/
def destination (raw : Word) : Mnemonic → BitVec 5
  | operate _ | shift _ | add | sub | mfhi | mflo | jalr => rd raw
  | operateImmediate _ | addi => rt raw
  | branch _ true | jump true => 31
  | _ => 0

end Mnemonic

@[ext]
structure File where
  reg : BitVec 5 → Word
  zero : reg 0 = 0

def File.write (f : File) (d : BitVec 5) (value : Word) : File where
  reg i := if i = d ∧ i ≠ 0 then value else f.reg i
  zero := (if_neg fun h => h.2 rfl).trans f.zero

@[ext]
structure State where
  file : File
  hi : Word
  lo : Word
  -- the instruction to be executed, and the one after it
  pc : Word
  next : Word
  -- a load that has not arrived
  slot : Option (BitVec 5 × Word)
  memory : Word → Byte
  size : ℕ

inductive Trap
  | addressError | overflow | syscall | reserved
  -- the architecture does not say what happens
  | unpredictable
  deriving DecidableEq

namespace State

variable (s : State)

def arrived : File := s.slot.elim s.file fun load => s.file.write load.1 load.2

def arrive : State := { s with file := s.arrived, slot := none }

/-- The instruction completes: the load before it arrives, and after that its own destination gets its value. -/
def complete (d : BitVec 5) (value next : Word) : State :=
  { s with file := s.arrived.write d value, slot := none, pc := s.next, next := next }

def Valid (address : Word) (n : ℕ) : Prop := address.toNat % n = 0 ∧ address.toNat + n ≤ s.size

instance (address : Word) (n : ℕ) : Decidable (s.Valid address n) := inferInstanceAs (Decidable (_ ∧ _))

def word (address : Word) : Word := wordOf fun c => s.memory (address + BitVec.ofNat 32 c)

def half (address : Word) : BitVec 16 := s.memory (address + 1) ++ s.memory address

def read (address : Word) (signed : Bool) : Width → Word
  | .byte => if signed then (s.memory address).signExtend 32 else (s.memory address).setWidth 32
  | .half => if signed then (s.half address).signExtend 32 else (s.half address).setWidth 32
  | .word => s.word address

def stored (address : Word) (n : ℕ) (b : ℕ → Byte) : Word → Byte := fun x =>
  if address.toNat ≤ x.toNat ∧ x.toNat < address.toNat + n then b (x.toNat - address.toNat) else s.memory x

def base (address : Word) : Word := address - (address &&& 3)

def load (address : Word) (n : ℕ) (d : BitVec 5) (value : Word) : Except Trap State :=
  if s.Valid address n then
    .ok { s.complete 0 0 (s.next + 4) with slot := if d = 0 then none else some (d, value) }
  else .error .addressError

def store (address : Word) (n : ℕ) (memory : Word → Byte) : Except Trap State :=
  if s.Valid address n then .ok { s.complete 0 0 (s.next + 4) with memory := memory } else .error .addressError

def checked (d : BitVec 5) (x : ℤ) : Except Trap State :=
  if -2 ^ 31 ≤ x ∧ x < 2 ^ 31 then .ok (s.complete d (BitVec.ofInt 32 x) (s.next + 4)) else .error .overflow

def execute (raw a b : Word) (m : Mnemonic) : Except Trap State :=
  let imm := offset raw
  let after := s.next + 4
  let address := a + imm.signExtend 32
  let k := address.toNat % 4
  match m with
  | .operate op => .ok (s.complete (rd raw) (op.eval a b) after)
  | .operateImmediate op => .ok (s.complete (rt raw) (op.eval a imm) after)
  | .shift op => .ok (s.complete (rd raw) (op.eval b (amount raw).toNat) after)
  | .add => s.checked (rd raw) (a.toInt + b.toInt)
  | .addi => s.checked (rt raw) (a.toInt + imm.toInt)
  | .sub => s.checked (rd raw) (a.toInt - b.toInt)
  | .multiply op =>
    (op.eval a b).elim (.error .unpredictable) fun result =>
      .ok { s.complete 0 0 after with hi := result.1, lo := result.2 }
  | .mfhi => .ok (s.complete (rd raw) s.hi after)
  | .mflo => .ok (s.complete (rd raw) s.lo after)
  | .mthi => .ok { s.complete 0 0 after with hi := a }
  | .mtlo => .ok { s.complete 0 0 after with lo := a }
  | .branch condition link =>
    if link ∧ rs raw = 31 then .error .unpredictable
    else
      .ok (s.complete (if link then 31 else 0) after
        (if condition.holds a b then s.next + imm.signExtend 32 <<< 2 else after))
  | .jump link =>
    .ok (s.complete (if link then 31 else 0) after (s.next.extractLsb' 28 4 ++ index raw ++ (0 : BitVec 2)))
  | .jr => .ok (s.complete 0 0 a)
  | .jalr => if rd raw = rs raw then .error .unpredictable else .ok (s.complete (rd raw) after a)
  | .load width signed => s.load address width.bytes (rt raw) (s.read address signed width)
  -- the bytes of the word from its first one up to this one go to the upper end of the register
  | .lwl =>
    s.load (base address) 4 (rt raw) (wordOf fun c =>
      if 3 ≤ c + k then s.memory (base address + BitVec.ofNat 32 (c + k - 3)) else
          byteOf (s.arrived.reg (rt raw)) c)
  -- those from this one on go to its lower end
  | .lwr =>
    s.load (base address) 4 (rt raw) (wordOf fun c =>
      if c + k < 4 then s.memory (base address + BitVec.ofNat 32 (c + k)) else byteOf (s.arrived.reg (rt raw)) c)
  | .store width => s.store address width.bytes (s.stored address width.bytes (byteOf b))
  | .swl => s.store (base address) 4 (s.stored (base address) (k + 1) fun c => byteOf b (c + 3 - k))
  | .swr => s.store (base address) 4 (s.stored address (4 - k) (byteOf b))
  | .syscall => .error .syscall

def step : Except Trap State :=
  if s.Valid s.pc 4 then
    let raw := s.word s.pc
    (Mnemonic.of raw).elim (.error .reserved) fun m => s.execute raw (s.file.reg (rs raw)) (s.file.reg (rt raw)) m
  else .error .addressError

inductive Runs : ℕ → State → Prop
  | refl : Runs 0 s
  | arrive {n : ℕ} {t : State} : Runs n t → Runs n t.arrive
  | step {n : ℕ} {t t' : State} : Runs n t → t.step = .ok t' → Runs (n + 1) t'

end State

namespace File

variable (f : File) {d e : BitVec 5} {v w : Word}

@[simp] lemma write_zero (v : Word) : f.write 0 v = f := by
  ext i : 2
  simp only [write]
  split_ifs with h
  · exact absurd h.1 h.2
  · rfl

lemma write_comm (h : d ≠ e) : (f.write d v).write e w = (f.write e w).write d v := by
  ext i : 2
  simp only [write]
  split_ifs with h₁ h₂
  · exact absurd (h₂.1.symm.trans h₁.1) h
  · rfl
  · rfl
  · rfl

end File

namespace State

variable {s : State} {d : BitVec 5} {v : Word}

lemma arrived_of_none (h : s.slot = none) : s.arrived = s.file := by
  rw [arrived, h]
  rfl

lemma arrive_of_none (h : s.slot = none) : s.arrive = s := by
  rw [arrive, arrived_of_none h, ← h]

lemma arrived_write (h : ∀ load, s.slot = some load → load.1 ≠ d) :
    arrived { s with file := s.file.write d v } = s.arrived.write d v := by
  cases hs : s.slot with
  | none => simp [arrived, hs]
  | some load =>
    simp only [arrived, hs, Option.elim]
    exact File.write_comm _ (h load hs).symm

variable {raw a b : Word}

lemma execute_multiply {op : Multiplication} {result : Word × Word} (h : op.eval a b = some result) :
    s.execute raw a b (.multiply op) =
      .ok { s.complete 0 0 (s.next + 4) with hi := result.1, lo := result.2 } := by
  simp only [execute, h, Option.elim]

lemma execute_multiply_none {op : Multiplication} (h : op.eval a b = none) :
    s.execute raw a b (.multiply op) = .error .unpredictable := by
  simp only [execute, h, Option.elim]

lemma execute_link {condition : Condition}
    (h : s.execute raw a b (.branch condition true) ≠ .error .unpredictable) :
    rs raw ≠ 31 ∧ s.execute raw a b (.branch condition true) =
      .ok (s.complete 31 (s.next + 4)
        (if condition.holds a b then s.next + (offset raw).signExtend 32 <<< 2 else s.next + 4)) := by
  have hne : rs raw ≠ 31 := fun h31 => h (if_pos ⟨rfl, h31⟩)
  exact ⟨hne, if_neg fun h31 => hne h31.2⟩

lemma execute_jalr (h : s.execute raw a b .jalr ≠ .error .unpredictable) :
    rd raw ≠ rs raw ∧ s.execute raw a b .jalr = .ok (s.complete (rd raw) (s.next + 4) a) := by
  have hne : rd raw ≠ rs raw := fun hsame => h (if_pos hsame)
  exact ⟨hne, if_neg hne⟩

lemma Runs.eq_of_none {t : State} (hr : Runs s 0 t) (h : s.slot = none) : t = s := by
  generalize hn : 0 = n at hr
  induction hr with
  | refl => rfl
  | arrive _ ih => rw [ih hn, arrive_of_none h]
  | step _ _ _ => cases hn

end State

end NachosFileSys.Lib.Mips
