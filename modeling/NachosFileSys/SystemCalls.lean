import NachosFileSys.DemandPaging
import NachosFileSys.FileTable
import NachosFileSys.Writing

/-! The file calls of `ExceptionHandler`, with `userprog/ksyscall.h`. -/

namespace NachosFileSys

open Lib.Programs Lib.Bytes

abbrev PCReg : ℕ := 34
abbrev NextPCReg : ℕ := 35
abbrev PrevPCReg : ℕ := 36
abbrev ConsoleOutputID : ℤ := 1

structure UserState where
  registers : ℕ → ℤ
  machine : PagedMachine
  space : ℕ
  fileVector : FileVector
  fileTable : FileTable
  openFiles : Pointer → OpenFile
  fileSystem : FileSystem
  console : List Byte

inductive FileCall
  | write | read | seek | close
  deriving DecidableEq, Repr

def sysAdd (op1 op2 : ℤ) : ℤ := int32 (op1 + op2)

namespace UserState

def writeRegister (s : UserState) (num : ℕ) (value : ℤ) : UserState :=
  { s with registers := Function.update s.registers num value }

def finish (s : UserState) (result : ℤ) : UserState :=
  let s := s.writeRegister 2 result
  let s := s.writeRegister PrevPCReg (s.registers PCReg)
  let s := s.writeRegister PCReg (int32 (s.registers PCReg + 4))
  s.writeRegister NextPCReg (int32 (s.registers PCReg + 4))

def loadStringLoop (space : ℕ) (addr : ℤ) : ℕ → ℕ → ℤ → List Byte →
  PagedMachine → Nachos (List Byte × PagedMachine)
  | 0, i, _, _, m => do
    let _ ← lift (m.read space (int32 (addr + i)) 1)
    stop .index
  | room + 1, i, value, name, m => do
    let (data, m) ← lift (m.read space (int32 (addr + i)) 1)
    let value := data.getD value
    let name := name.set i (BitVec.ofInt 8 value)
    if BitVec.ofInt 8 value = 0 then pure (name, m) else loadStringLoop space addr room (i + 1) value name m

def loadStringFromMemory (s : UserState) (addr : ℤ) : Nachos (List Byte × UserState) := do
  let name ← malloc 100
  let (name, m) ← loadStringLoop s.space addr 100 0 0 name s.machine
  pure (name, { s with machine := m })

def sysWriteCall (s : UserState) (addr size id : ℤ) : Nachos (Option (Pointer × List Byte × ℤ) × UserState) := do
  let (buffer, s) ← s.loadStringFromMemory addr
  if id = ConsoleOutputID then do
    let chars ← lift (slice buffer 0 (max size 0))
    pure (none, { s with console := s.console ++ chars })
  else
    match s.fileVector.resolve s.fileTable id with
    | none => pure (none, s)
    | some file => pure (some (file, buffer, size), s)

def sysWrite (s : UserState) (addr size id : ℤ) : Nachos (ℤ × UserState) := do
  let (call, s) ← s.sysWriteCall addr size id
  match call with
  | none => pure (0, s)
  | some (file, buffer, size) => do
    let (_, f) ← OpenFile.write s.fileSystem.freeMapFile (s.openFiles file) buffer size
    pure (0, { s with openFiles := Function.update s.openFiles file f })

/-- The cases of `ExceptionHandler` for the file calls. All but `SC_Write` call `SysAdd`. -/
def exceptionHandler (s : UserState) : FileCall → Nachos UserState
  | .write => do
    let (result, s) ← s.sysWrite (s.registers 4) (s.registers 5) (s.registers 6)
    pure (s.finish result)
  | .read => pure (s.finish (sysAdd (s.registers 4) (s.registers 5)))
  | .seek => pure (s.finish (sysAdd (s.registers 4) (s.registers 5)))
  | .close => pure (s.finish (sysAdd (s.registers 4) (s.registers 5)))

/-- No page fault is under way; the memory of the thread is `flat`. `Load` makes no address space that is
larger than an `int` can address. -/
structure Running (s : UserState) (flat : FlatMemory) : Prop where
  consistent : World.Consistent ⟨s.machine, fun _ => none⟩ flat
  pages : s.machine.numPages.getD s.space 0 ≤ 2 ^ 24
  ints : ∀ num, int32 (s.registers num) = s.registers num

structure Opened (s : UserState) (k : Kernel) (id : ℤ) (file : Pointer) : Prop where
  resolved : s.fileVector.resolve s.fileTable id = some file
  position : int32 (s.openFiles file).seekPosition = (s.openFiles file).seekPosition
  semaphoreRead : k.maps .semaphoreRead (s.openFiles file).hdrSector = some 1
  semaphoreWrite : k.maps .semaphoreWrite (s.openFiles file).hdrSector = some 1
  readerCount : k.maps .readerCount (s.openFiles file).hdrSector = some 0

def Mapped (s : UserState) (addr size : ℤ) : Prop :=
  ∀ i : ℕ, i < size → InRange (s.machine.numPages.getD s.space 0) (addr + i) 1

end UserState

def FileCall.idRegister : FileCall → ℕ
  | .write | .read => 6
  | .seek => 5
  | .close => 4

namespace UserState

variable {s s' : UserState} {flat : FlatMemory} {k k' : Kernel}

@[simp] lemma finish_result (s : UserState) (result : ℤ) : (s.finish result).registers 2 = result := by
  simp [finish, writeRegister, Function.update]

lemma finish_counters (s : UserState) (result : ℤ) :
    (s.finish result).registers PCReg = int32 (s.registers PCReg + 4) ∧
    (s.finish result).registers NextPCReg = int32 (int32 (s.registers PCReg + 4) + 4) := by
  simp [finish, writeRegister, Function.update]

lemma read_byte {m : PagedMachine} {a : ℕ} {v : ℤ} (hc : World.Consistent ⟨m, fun _ => none⟩ flat)
    (hr : InRange (m.numPages.getD a 0) v 1) :
    ∃ m', m.read a v 1 = .ok (some (flat a v).toInt, m') ∧ World.Consistent ⟨m', fun _ => none⟩ flat ∧
      m'.numPages = m.numPages := by
  obtain ⟨data, m', hread, hd, hc', hp⟩ := hc.read (fun _ => rfl) hr
  obtain rfl : (flat a v).toInt = data := Except.ok.inj hd
  exact ⟨m', hread, hc', hp⟩

lemma read_inv {m m' : PagedMachine} {a : ℕ} {v : ℤ} {data : Option ℤ} (hp : m.numPages.getD a 0 ≤ 2 ^ 24)
    (hl : -2147483648 ≤ v) (hu : v < 2147483648) (he : m.read a v 1 = .ok (data, m')) :
    InRange (m.numPages.getD a 0) v 1 := by
  by_contra hout
  have hpage : m.numPages.getD a 0 ≤ (v % 2 ^ 32 / 128).toNat := by
    by_contra hlt
    exact hout ⟨by omega, by omega, by omega, .inl rfl⟩
  have hfault : m.translate a v 1 false = .error .addressErrorException := by
    rw [PagedMachine.translate, if_neg (by omega)]
    dsimp only
    rw [if_pos hpage]
  rw [PagedMachine.read, PagedMachine.readMem, hfault] at he
  exact absurd he (by simp [PagedMachine.exceptionHandler, bind, Except.bind])

structure StringFrom (numPages : ℕ) (memory : ℤ → Byte) (addr : ℤ) (i n : ℕ) : Prop where
  le : i ≤ n
  mapped : ∀ j : ℕ, i ≤ j → j ≤ n → InRange numPages (addr + j) 1
  zero : memory (addr + n) = 0
  nonzero : ∀ j : ℕ, i ≤ j → j < n → memory (addr + j) ≠ 0

lemma InRange.int32_eq {numPages : ℕ} {v size : ℤ} (h : InRange numPages v size) : int32 v = v := by
  have h0 := h.nonneg
  have h1 := h.int
  exact int32_of_bounds (by omega) (by omega)

lemma exec_loadStringLoop {a n : ℕ} {addr : ℤ} (room : ℕ) :
    ∀ {i : ℕ} (value : ℤ) {name : List Byte} {m : PagedMachine},
    World.Consistent ⟨m, fun _ => none⟩ flat → StringFrom (m.numPages.getD a 0) (flat a) addr i n → n < i + room →
    i + room = name.length →
    ∃ name' m', exec (loadStringLoop a addr room i value name m) k = .ok ((name', m'), k) ∧
    name'.length = name.length ∧
      World.Consistent ⟨m', fun _ => none⟩ flat ∧
      ∀ j : ℕ, name'.getD j 0 = if i ≤ j ∧ j ≤ n then flat a (addr + j) else name.getD j 0 := by
  induction room with
  | zero =>
    intro i value name m _ hs hn
    exact absurd hs.le (by omega)
  | succ room ih =>
    intro i value name m hc hs hn hlen
    obtain ⟨m₁, hread, hc₁, hp₁⟩ := read_byte hc (hs.mapped i le_rfl hs.le)
    rw [loadStringLoop, InRange.int32_eq (hs.mapped i le_rfl hs.le), hread, exec_bind_of_ok (exec_lift_ok _ _)]
    dsimp only
    rw [Option.getD_some, BitVec.ofInt_toInt]
    have hset : ∀ j : ℕ, (name.set i (flat a (addr + i))).getD j 0 =
        if j = i then flat a (addr + i) else name.getD j 0 := by
      intro j
      rw [List.getD_eq_getElem?_getD, List.getD_eq_getElem?_getD, List.getElem?_set]
      by_cases hj : i = j
      · rw [if_pos hj, if_pos (by omega), if_pos hj.symm]
        rfl
      · rw [if_neg hj, if_neg (Ne.symm hj)]
    by_cases hz : flat a (addr + i) = 0
    · have hni : n = i := by
        by_contra hne
        exact hs.nonzero i le_rfl (lt_of_le_of_ne hs.le (Ne.symm hne)) hz
      rw [if_pos hz]
      refine ⟨_, m₁, rfl, List.length_set, hc₁, fun j => ?_⟩
      rw [hset, hni]
      by_cases hj : j = i
      · rw [if_pos hj, if_pos (by omega), hj]
      · rw [if_neg hj, if_neg (by omega)]
    · have hlt : i < n := by
        refine lt_of_le_of_ne hs.le fun heq => hz ?_
        rw [heq]
        exact hs.zero
      have hs₁ : StringFrom (m₁.numPages.getD a 0) (flat a) addr (i + 1) n := by
        rw [hp₁]
        exact ⟨hlt, fun j hj => hs.mapped j (by omega), hs.zero, fun j hj => hs.nonzero j (by omega)⟩
      obtain ⟨name', m', he, hlen', hc', hbytes⟩ := ih (flat a (addr + i)).toInt hc₁ hs₁ (by omega)
        (by rw [List.length_set]; omega : i + 1 + room = (name.set i (flat a (addr + i))).length)
      rw [if_neg hz]
      refine ⟨name', m', he, hlen'.trans List.length_set, hc', fun j => ?_⟩
      rw [hbytes, hset]
      by_cases hj : j = i
      · rw [if_neg (by omega), if_pos hj, if_pos (by omega), hj]
      · rw [if_neg hj]
        by_cases hin : i + 1 ≤ j ∧ j ≤ n
        · rw [if_pos hin, if_pos (by omega)]
        · rw [if_neg hin, if_neg (by omega)]

lemma loadStringLoop_inv {a : ℕ} {addr : ℤ} (haddr : int32 addr = addr) (room : ℕ) :
    ∀ {i : ℕ} {value : ℤ} {name name' : List Byte}
    {m m' : PagedMachine}, World.Consistent ⟨m, fun _ => none⟩ flat →
    m.numPages.getD a 0 ≤ 2 ^ 24 → i + room ≤ 100 →
    exec (loadStringLoop a addr room i value name m) k = .ok ((name', m'), k') →
    ∃ n, StringFrom (m.numPages.getD a 0) (flat a) addr i n ∧ n < i + room := by
  have hb := int32_bounds addr
  rw [haddr] at hb
  induction room with
  | zero =>
    intro i value name name' m m' _ _ _ he
    rw [loadStringLoop] at he
    obtain ⟨data, k₁, -, he⟩ := exec_bind_ok.mp he
    exact absurd he (by simp)
  | succ room ih =>
    intro i value name name' m m' hc hp hroom he
    rw [loadStringLoop] at he
    obtain ⟨⟨data, m₁⟩, k₁, hlift, he⟩ := exec_bind_ok.mp he
    obtain ⟨hread, rfl⟩ := exec_lift_eq_ok.mp hlift
    have hv := int32_bounds (addr + i)
    have hr := read_inv hp hv.1 hv.2 hread
    have hi : int32 (addr + i) = addr + i := by
      by_cases hsmall : addr + i < 2147483648
      · exact int32_of_bounds (by omega) hsmall
      · have h0 := hr.nonneg
        rw [int32_wrap (by omega) (by omega)] at h0
        omega
    rw [hi] at hr hread
    obtain ⟨m₂, hread₂, hc₂, hp₂⟩ := read_byte hc hr
    obtain ⟨rfl, rfl⟩ := Prod.mk.inj (Except.ok.inj (hread.symm.trans hread₂))
    dsimp only at he
    rw [Option.getD_some, BitVec.ofInt_toInt] at he
    by_cases hz : flat a (addr + i) = 0
    · exact ⟨i, ⟨le_rfl, fun j hj hj' => by rw [le_antisymm hj' hj]; exact hr,
          hz, fun j hj hj' => absurd hj' (not_lt.mpr hj)⟩, by omega⟩
    · rw [if_neg hz] at he
      rw [← hp₂] at hp
      obtain ⟨n, hs, hn⟩ := ih hc₂ hp (by omega) he
      rw [hp₂] at hs
      refine ⟨n, ⟨by have := hs.le; omega, fun j hj hj' => ?_, hs.zero, fun j hj hj' => ?_⟩, by omega⟩
      · rcases eq_or_lt_of_le hj with rfl | hj
        · exact hr
        · exact hs.mapped j hj hj'
      · rcases eq_or_lt_of_le hj with rfl | hj
        · exact hz
        · exact hs.nonzero j hj hj'

def storedBytes (memory : ℤ → Byte) (addr : ℤ) (bytes : List Byte) : ℤ → Byte :=
  fun v => if addr ≤ v ∧ v < addr + bytes.length then bytes.getD (v - addr).toNat 0 else memory v

def Moves (s : UserState) (flat : FlatMemory) (file : Pointer) (k : Kernel) : FileCall → Prop
  | .write => ∃ buffer s' k', exec (s.sysWriteCall (s.registers 4) (s.registers 5) (s.registers 6)) k =
        .ok ((some (file, buffer, s.registers 5), s'), k') ∧ s.registers 5 ≤ buffer.length ∧
      ∀ i : ℕ, i < s.registers 5 → buffer.getD i 0 = flat s.space (s.registers 4 + i)
  | .read => ∃ bytes f s' k', exec ((s.openFiles file).read (s.registers 5)) k = .ok ((bytes, f), k') ∧
      exec (s.exceptionHandler .read) k = .ok (s', k') ∧ s'.openFiles file = f ∧ s'.registers 2 = bytes.length ∧
      World.Consistent ⟨s'.machine, fun _ => none⟩
      (Function.update flat s.space (storedBytes (flat s.space) (s.registers 4) bytes))
  | .seek => ∃ s' k', exec (s.exceptionHandler .seek) k = .ok (s', k') ∧
      (s'.openFiles file).seekPosition = s.registers 4
  | .close => ∃ s' k', exec (s.exceptionHandler .close) k = .ok (s', k') ∧
      s'.fileVector.resolve s'.fileTable (s.registers 4) = none

def Advances (s : UserState) (k : Kernel) (call : FileCall) : Prop :=
  ∀ s' k', exec (s.exceptionHandler call) k = .ok (s', k') → s'.registers PCReg = int32 (s.registers PCReg + 4) ∧
    s'.registers NextPCReg = int32 (int32 (s.registers PCReg + 4) + 4)

def Harmless (s : UserState) (flat : FlatMemory) (file : Pointer) : FileCall → Prop
  | .write => s.registers 6 ≠ ConsoleOutputID ∧ ∃ n : ℕ, n < 100 ∧ s.registers 5 ≤ n + 1 ∧
      StringFrom (s.machine.numPages.getD s.space 0) (flat s.space) (s.registers 4) 0 n
  | .read => s.registers 4 = 0 ∧ s.registers 5 = 0
  | .seek => (s.openFiles file).seekPosition = s.registers 4
  | .close => False

lemma registers_of_machine {addr size id : ℤ} {result : ℤ}
    (he : exec (s.sysWrite addr size id) k = .ok ((result, s'), k')) :
    s'.registers = s.registers := by
  rw [sysWrite, sysWriteCall, loadStringFromMemory] at he
  obtain ⟨⟨call, s₁⟩, k₁, hcall, he⟩ := exec_bind_ok.mp he
  have hs₁ : s₁.registers = s.registers := by
    obtain ⟨⟨buffer, s₂⟩, k₂, hload, hcall⟩ := exec_bind_ok.mp hcall
    obtain ⟨name, k₃, -, hload⟩ := exec_bind_ok.mp hload
    obtain ⟨⟨name', m⟩, k₄, -, hload⟩ := exec_bind_ok.mp hload
    cases hload
    dsimp only at hcall
    split at hcall
    · obtain ⟨chars, k₅, -, hcall⟩ := exec_bind_ok.mp hcall
      cases hcall
      rfl
    · split at hcall
      · cases hcall
        rfl
      · cases hcall
        rfl
  dsimp only at he
  split at he
  · cases he
    exact hs₁
  · obtain ⟨⟨r, f⟩, k₂, -, he⟩ := exec_bind_ok.mp he
    cases he
    exact hs₁

lemma advances (s : UserState) (k : Kernel) (call : FileCall) : s.Advances k call := by
  intro s' k' he
  cases call with
  | write =>
    obtain ⟨⟨result, s₁⟩, k₁, hw, he⟩ := exec_bind_ok.mp he
    cases he
    rw [← registers_of_machine hw]
    exact finish_counters s₁ result
  | read =>
    cases he
    exact finish_counters s _
  | seek =>
    cases he
    exact finish_counters s _
  | close =>
    cases he
    exact finish_counters s _

lemma exec_loadStringFromMemory {n : ℕ} {addr : ℤ} (hr : s.Running flat)
    (hs : StringFrom (s.machine.numPages.getD s.space 0) (flat s.space) addr 0 n) (hn : n < 100) (k : Kernel) :
    ∃ name m, exec (s.loadStringFromMemory addr) k =
        .ok ((name, { s with machine := m }), { k with heap := fun i => k.heap (i + 100) }) ∧
      name.length = 100 ∧ World.Consistent ⟨m, fun _ => none⟩ flat ∧
      ∀ j < 100, name.getD j 0 = if j ≤ n then flat s.space (addr + j) else k.heap j := by
  obtain ⟨name, m, he, hlen, hc, hbytes⟩ :=
    exec_loadStringLoop (k := { k with heap := fun i => k.heap (i + 100) }) 100 0
    hr.consistent hs (by omega)
    (by rw [List.length_map, List.length_range] : 0 + 100 = ((List.range 100).map k.heap).length)
  refine ⟨name, m, ?_, by rw [hlen]; simp, hc, fun j hj => ?_⟩
  · rw [loadStringFromMemory, exec_bind_of_ok (exec_malloc 100 k), exec_bind_of_ok he]
    rfl
  · rw [hbytes]
    by_cases hjn : j ≤ n
    · rw [if_pos ⟨Nat.zero_le j, hjn⟩, if_pos hjn]
    · rw [if_neg (fun h => hjn h.2), if_neg hjn, List.getD_eq_getElem?_getD,
          List.getElem?_map, List.getElem?_range hj]
      rfl

lemma loadStringFromMemory_inv {addr : ℤ} {name : List Byte} (hr : s.Running flat) (haddr : int32 addr = addr)
    (he : exec (s.loadStringFromMemory addr) k = .ok ((name, s'), k')) :
    ∃ n, n < 100 ∧ StringFrom (s.machine.numPages.getD s.space 0) (flat s.space) addr 0 n := by
  rw [loadStringFromMemory] at he
  obtain ⟨fresh, k₁, -, he⟩ := exec_bind_ok.mp he
  obtain ⟨⟨name', m⟩, k₂, hloop, -⟩ := exec_bind_ok.mp he
  obtain ⟨n, hs, hn⟩ := loadStringLoop_inv haddr 100 hr.consistent hr.pages (by omega) hloop
  exact ⟨n, by omega, hs⟩

lemma exec_sysWriteCall {file : Pointer} {n : ℕ} {addr id : ℤ} (size : ℤ) (hr : s.Running flat)
    (hres : s.fileVector.resolve s.fileTable id = some file) (hid : id ≠ ConsoleOutputID)
    (hs : StringFrom (s.machine.numPages.getD s.space 0) (flat s.space) addr 0 n) (hn : n < 100) (k : Kernel) :
    ∃ buffer s' k', exec (s.sysWriteCall addr size id) k = .ok ((some (file, buffer, size), s'), k') ∧
    buffer.length = 100 ∧
      ∀ j < 100, buffer.getD j 0 = if j ≤ n then flat s.space (addr + j) else k.heap j := by
  obtain ⟨buffer, m, he, hlen, -, hbytes⟩ := exec_loadStringFromMemory hr hs hn k
  refine ⟨buffer, { s with machine := m }, { k with heap := fun i => k.heap (i + 100) }, ?_, hlen, hbytes⟩
  rw [sysWriteCall, exec_bind_of_ok he]
  dsimp only
  rw [if_neg hid, hres]
  rfl

lemma sysWriteCall_inv {file : Pointer} {addr size id : ℤ} {buffer : List Byte}
    (hr : s.Running flat) (haddr : int32 addr = addr)
    (he : exec (s.sysWriteCall addr size id) k = .ok ((some (file, buffer, size), s'), k')) :
    id ≠ ConsoleOutputID ∧ ∃ n, n < 100 ∧
    StringFrom (s.machine.numPages.getD s.space 0) (flat s.space) addr 0 n := by
  rw [sysWriteCall] at he
  obtain ⟨⟨buffer', s₁⟩, k₁, hload, he⟩ := exec_bind_ok.mp he
  obtain ⟨n, hn, hs⟩ := loadStringFromMemory_inv hr haddr hload
  refine ⟨fun hid => ?_, n, hn, hs⟩
  dsimp only at he
  rw [if_pos hid] at he
  obtain ⟨chars, k₄, -, he⟩ := exec_bind_ok.mp he
  cases he

lemma moves_write_iff {file : Pointer} (hr : s.Running flat)
    (hres : s.fileVector.resolve s.fileTable (s.registers 6) = some file) :
    (∀ heap, s.Moves flat file { k with heap := heap } .write) ↔ s.Harmless flat file .write := by
  constructor
  · intro h
    obtain ⟨buffer, s', k', he, -⟩ := h k.heap
    obtain ⟨hid, n, hn, hs⟩ := sysWriteCall_inv hr (hr.ints 4) he
    refine ⟨hid, n, hn, ?_, hs⟩
    by_contra hsize
    -- fresh memory that differs from the first byte after the string
    set c := flat s.space (s.registers 4 + ((n + 1 : ℕ) : ℤ)) with hc
    obtain ⟨buffer', s₁, k₁, he₁, hlen, hbytes⟩ := h fun _ => c + 1
    obtain ⟨buffer₂, s₂, k₂, he₂, hlen₂, hbytes₂⟩ :=
      exec_sysWriteCall (s.registers 5) hr hres hid hs hn { k with heap := fun _ => c + 1 }
    obtain rfl : buffer' = buffer₂ := by
      have hsame := Except.ok.inj (he₁.symm.trans he₂)
      simp only [Prod.mk.injEq, Option.some.injEq] at hsame
      exact hsame.1.1.2.1
    have hbyte := hbytes (n + 1) (by push_cast; omega)
    rw [hbytes₂ (n + 1) (by omega), if_neg (by omega)] at hbyte
    exact byte_succ_ne c hbyte
  · rintro ⟨hid, n, hn, hsize, hs⟩ heap
    obtain ⟨buffer, s', k', he, hlen, hbytes⟩ :=
      exec_sysWriteCall (s.registers 5) hr hres hid hs hn { k with heap := heap }
    refine ⟨buffer, s', k', he, by omega, fun i hi => ?_⟩
    rw [hbytes i (by omega), if_pos (by omega)]

lemma exec_read_nothing {file : Pointer} {id : ℤ} (ho : s.Opened k id file) :
    exec ((s.openFiles file).read 0) k = .ok (([], s.openFiles file), k) := by
  have hread := OpenFile.exec_read ho.semaphoreRead ho.semaphoreWrite ho.readerCount (n := 0) fun k₁ _ => by
    rw [OpenFile.readAt]
    dsimp only
    rw [if_pos (.inl le_rfl)]
    exact exec_pure [] k₁
  rw [hread, List.length_nil, Nat.cast_zero, add_zero, ho.position]

lemma storedBytes_nil (memory : ℤ → Byte) (addr : ℤ) : storedBytes memory addr [] = memory := by
  funext v
  exact if_neg (by simp)

lemma read_result {f f' : OpenFile} {n : ℤ} {bytes : List Byte} (he : exec (f.read n) k = .ok ((bytes, f'), k')) :
    f' = { f with seekPosition := int32 (f.seekPosition + bytes.length) } := by
  rw [OpenFile.read] at he
  obtain ⟨u, k₁, -, he⟩ := exec_bind_ok.mp he
  obtain ⟨result, k₂, -, he⟩ := exec_bind_ok.mp he
  obtain ⟨u', k₃, -, he⟩ := exec_bind_ok.mp he
  cases he
  rfl

lemma int32_add_eq_self {x n : ℤ} (h : int32 (x + n) = x) (h0 : 0 ≤ n) (h1 : n < 4294967296) : n = 0 := by
  rw [int32, BitVec.toInt_ofInt, Int.bmod_def] at h
  norm_num at h
  split at h
  · omega
  · omega

lemma moves_read_iff {file : Pointer} (hr : s.Running flat) (ho : s.Opened k (s.registers 6) file)
    (h0 : 0 ≤ s.registers 5)
    (hm : s.Mapped (s.registers 4) (s.registers 5)) :
    s.Moves flat file k .read ↔ s.Harmless flat file .read := by
  constructor
  · rintro ⟨bytes, f, s', k', hread, he, hf, hcount, -⟩
    cases he
    rw [finish_result, sysAdd] at hcount
    have hb := int32_bounds (s.registers 4 + s.registers 5)
    rw [hcount] at hb
    have hsame : (s.openFiles file).seekPosition = int32 ((s.openFiles file).seekPosition + bytes.length) := by
      conv_lhs => rw [show s.openFiles file = f from hf, read_result hread]
    have hnone := int32_add_eq_self hsame.symm (by positivity) (by omega)
    rw [hnone] at hcount
    have h4 := int32_bounds (s.registers 4)
    have h5 := int32_bounds (s.registers 5)
    rw [hr.ints] at h4 h5
    -- the sum of an address and a positive size is not zero
    have hsize : s.registers 5 = 0 := by
      by_contra hne
      have hpos := (hm 0 (by push_cast; omega)).nonneg
      push_cast at hpos
      by_cases hsmall : s.registers 4 + s.registers 5 < 2147483648
      · rw [int32_of_bounds (by omega) hsmall] at hcount
        omega
      · rw [int32_wrap (by omega) (by omega)] at hcount
        omega
    rw [hsize, add_zero, hr.ints] at hcount
    exact ⟨hcount, hsize⟩
  · rintro ⟨h4, h5⟩
    refine ⟨[], s.openFiles file, s.finish (sysAdd (s.registers 4) (s.registers 5)), k, ?_, rfl, rfl, ?_, ?_⟩
    · rw [h5]
      exact exec_read_nothing ho
    · rw [finish_result, h4, h5]
      decide
    · rw [storedBytes_nil, Function.update_eq_self]
      exact hr.consistent

/-- The file calls move exactly the requested bytes, and advance the program counters, only where they do. -/
theorem file_calls_iff (s : UserState) (flat : FlatMemory) (k : Kernel)
    (file : Pointer) (call : FileCall) (hr : s.Running flat)
    (ho : s.Opened k (s.registers call.idRegister) file)
    (hbuffer : call = .write ∨ call = .read → 0 ≤ s.registers 5 ∧ s.Mapped (s.registers 4) (s.registers 5)) :
    (∀ heap, s.Moves flat file { k with heap := heap } call ∧ s.Advances { k with heap := heap } call) ↔
      s.Harmless flat file call := by
  have hadvance :
      (∀ heap, s.Moves flat file { k with heap := heap } call ∧ s.Advances { k with heap := heap } call) ↔
      ∀ heap, s.Moves flat file { k with heap := heap } call :=
    forall_congr' fun heap => and_iff_left (s.advances _ call)
  rw [hadvance]
  cases call with
  | write => exact moves_write_iff hr ho.resolved
  | read =>
    obtain ⟨h0, hm⟩ := hbuffer (.inr rfl)
    have hiff : ∀ heap, s.Moves flat file { k with heap := heap } .read ↔ s.Harmless flat file .read := fun heap =>
      moves_read_iff hr ⟨ho.resolved, ho.position, ho.semaphoreRead, ho.semaphoreWrite, ho.readerCount⟩ h0 hm
    exact ⟨fun h => (hiff k.heap).mp (h k.heap), fun h heap => (hiff heap).mpr h⟩
  | seek =>
    constructor
    · intro h
      obtain ⟨s', k', he, hpos⟩ := h k.heap
      cases he
      exact hpos
    · intro h heap
      exact ⟨_, _, rfl, h⟩
  | close =>
    refine ⟨fun h => ?_, False.elim⟩
    obtain ⟨s', k', he, hnone⟩ := h k.heap
    cases he
    exact absurd (ho.resolved.symm.trans hnone) (by simp)

def StringMapped (s : UserState) (flat : FlatMemory) (addr : ℤ) : Prop :=
  ∀ n : ℕ, (∀ j < n, flat s.space (addr + j) ≠ 0) → InRange (s.machine.numPages.getD s.space 0) (addr + n) 1

/-- The call returns a buffer with the bytes up to the first zero, and changes only the pages that are present. -/
def LoadsString (s : UserState) (flat : FlatMemory) (addr : ℤ) (k : Kernel) : Prop :=
  ∃ name m n, exec (s.loadStringFromMemory addr) k =
      .ok ((name, { s with machine := m }), { k with heap := fun i => k.heap (i + 100) }) ∧
    World.Consistent ⟨m, fun _ => none⟩ flat ∧ n < name.length ∧ flat s.space (addr + n) = 0 ∧
    (∀ j < n, flat s.space (addr + j) ≠ 0) ∧ ∀ j ≤ n, name.getD j 0 = flat s.space (addr + j)

lemma loadStringLoop_overrun {a : ℕ} {addr : ℤ} (room : ℕ) :
    ∀ {i : ℕ} (value : ℤ) (name : List Byte) {m : PagedMachine},
    World.Consistent ⟨m, fun _ => none⟩ flat →
    (∀ j : ℕ, j ≤ i + room → InRange (m.numPages.getD a 0) (addr + j) 1) →
    (∀ j < i + room, flat a (addr + j) ≠ 0) →
    exec (loadStringLoop a addr room i value name m) k = .error .index := by
  induction room with
  | zero =>
    intro i value name m hc hm _
    obtain ⟨m₁, hread, -, -⟩ := read_byte hc (hm i le_rfl)
    rw [loadStringLoop, InRange.int32_eq (hm i le_rfl), hread, exec_bind_of_ok (exec_lift_ok _ _)]
    rfl
  | succ room ih =>
    intro i value name m hc hm hne
    obtain ⟨m₁, hread, hc₁, hp₁⟩ := read_byte hc (hm i (by omega))
    rw [loadStringLoop, InRange.int32_eq (hm i (by omega)), hread, exec_bind_of_ok (exec_lift_ok _ _)]
    dsimp only
    rw [Option.getD_some, BitVec.ofInt_toInt, if_neg (hne i (by omega))]
    rw [← hp₁] at hm
    exact ih _ _ hc₁ (fun j hj => hm j (by omega)) fun j hj => hne j (by omega)

lemma StringMapped.exists_string {addr : ℤ} {n : ℕ} (hm : s.StringMapped flat addr)
    (hz : flat s.space (addr + n) = 0) :
    ∃ n₀ ≤ n, StringFrom (s.machine.numPages.getD s.space 0) (flat s.space) addr 0 n₀ := by
  classical
  have hex : ∃ n : ℕ, flat s.space (addr + n) = 0 := ⟨n, hz⟩
  have hmin : ∀ j < Nat.find hex, flat s.space (addr + j) ≠ 0 := fun j hj => Nat.find_min hex hj
  refine ⟨Nat.find hex, Nat.find_min' hex hz, Nat.zero_le _,
      fun j _ hj => ?_, Nat.find_spec hex, fun j _ => hmin j⟩
  exact hm j fun i hi => hmin i (lt_of_lt_of_le hi hj)

/-- A mapped string is loaded, and stays in the buffer, only if it ends within 100 bytes; a longer
one is written past it. -/
theorem load_string_iff (s : UserState) (flat : FlatMemory) (k : Kernel) (addr : ℤ) (hr : s.Running flat)
    (haddr : int32 addr = addr) (hm : s.StringMapped flat addr) :
    (s.LoadsString flat addr k ↔ ∃ n : ℕ, n < 100 ∧ flat s.space (addr + n) = 0) ∧
      ((∀ n : ℕ, n < 100 → flat s.space (addr + n) ≠ 0) →
      exec (s.loadStringFromMemory addr) k = .error .index) := by
  refine ⟨⟨fun h => ?_, fun h => ?_⟩, fun h => ?_⟩
  · obtain ⟨name, m, -, he, -⟩ := h
    obtain ⟨n, hn, hs⟩ := loadStringFromMemory_inv hr haddr he
    exact ⟨n, hn, hs.zero⟩
  · obtain ⟨n, hn, hz⟩ := h
    obtain ⟨n₀, hle, hs⟩ := hm.exists_string hz
    obtain ⟨name, m, he, hlen, hc, hbytes⟩ := exec_loadStringFromMemory hr hs (lt_of_le_of_lt hle hn) k
    refine ⟨name, m, n₀, he, hc, by omega, hs.zero, fun j hj => hs.nonzero j (Nat.zero_le j) hj, fun j hj => ?_⟩
    rw [hbytes j (by omega), if_pos hj]
  · rw [loadStringFromMemory, exec_bind_of_ok (exec_malloc 100 k), exec_bind]
    rw [loadStringLoop_overrun 100 0 _ hr.consistent (fun j hj => hm j fun i hi => h i (by omega))
        fun j hj => h j (by omega)]

def sample (bytes : List Byte) (size : ℤ) : UserState where
  registers := fun num => if num = 5 then size else if num = 6 then 2 else 0
  machine := (PagedMachine.start fun _ _ => 0).load [fun j => bytes.getD j 0]
  space := 0
  fileVector := ⟨[0, 1, 0]⟩
  fileTable := ⟨[some ⟨7, 2⟩], []⟩
  openFiles := fun _ => ⟨⟨0, 0, 0, []⟩, 9, 5⟩
  fileSystem := ⟨⟨⟨0, 0, 0, []⟩, 0, 0⟩, ⟨⟨0, 0, 0, []⟩, 0, 1⟩⟩
  console := []

def sampleMemory (bytes : List Byte) : FlatMemory :=
  Function.update (fun _ _ => 0) 0 (imageByte [fun j => bytes.getD j 0])

def sampleKernel : Kernel where
  disk := Kernel.blank.disk
  maps
    | .semaphoreRead, _ => some 1
    | .semaphoreWrite, _ => some 1
    | .readerCount, _ => some 0
    | .openFileCount, _ => some 1
  heap := fun _ => 0

lemma sample_running (bytes : List Byte) {size : ℤ} (h0 : 0 ≤ size) (h1 : size ≤ 128) :
    (sample bytes size).Running (sampleMemory bytes) := by
  refine ⟨(World.start_consistent _ _).load _, (by decide : 1 ≤ 2 ^ 24), fun num => ?_⟩
  change int32 (if num = 5 then size else if num = 6 then 2 else 0) =
      if num = 5 then size else if num = 6 then 2 else 0
  split
  · exact int32_of_bounds (by omega) (by omega)
  · split
    · decide
    · decide

lemma sample_opened (bytes : List Byte) (size : ℤ) {id : ℤ} (hid : id = 0 ∨ id = 2) :
    (sample bytes size).Opened sampleKernel id 7 := by
  refine ⟨?_, (by decide : int32 9 = 9), rfl, rfl, rfl⟩
  rcases hid with rfl | rfl
  · rfl
  · rfl

lemma sample_mapped (bytes : List Byte) {n : ℤ} (h1 : n ≤ 128) : (sample bytes n).Mapped 0 n := by
  intro i hi
  exact ⟨by omega, by omega, by change (0 : ℤ) + i + 1 ≤ 128 * ((1 : ℕ) : ℤ); omega, .inl rfl⟩

lemma sampleMemory_byte (bytes : List Byte) {n : ℕ} (hn : n < 128) :
    sampleMemory bytes 0 (0 + (n : ℤ)) = bytes.getD n 0 := by
  have hbyte := imageByte_page [fun j => bytes.getD j 0] (k := 0) Nat.zero_lt_one ⟨n, hn⟩
  rwa [Nat.cast_zero, zero_mul] at hbyte

lemma sample_stringMapped {bytes : List Byte} {n : ℕ} (hn : n < 128) (hz : bytes.getD n 0 = 0) :
    (sample bytes 0).StringMapped (sampleMemory bytes) 0 := by
  intro i hi
  have hle : i ≤ n := by
    by_contra hlt
    exact hi n (by omega) ((sampleMemory_byte bytes hn).trans hz)
  exact sample_mapped (n := 128) bytes (by decide) i (by omega)

theorem load_string_short : (sample [0x68, 0x69] 0).LoadsString (sampleMemory [0x68, 0x69]) 0 sampleKernel := by
  have hiff := load_string_iff _ (sampleMemory [0x68, 0x69]) sampleKernel 0
    (sample_running _ (by decide) (by decide)) (by decide)
    (sample_stringMapped (n := 2) (by decide) rfl)
  exact hiff.1.mpr ⟨2, by decide, by decide⟩

/-- A string of 100 characters, mapped with its end, is written past the buffer. -/
theorem load_string_long : (sample (List.replicate 100 0x61) 0).Running (sampleMemory (List.replicate 100 0x61)) ∧
    (sample (List.replicate 100 0x61) 0).StringMapped (sampleMemory (List.replicate 100 0x61)) 0 ∧
    exec ((sample (List.replicate 100 0x61) 0).loadStringFromMemory 0) sampleKernel = .error .index ∧
    ¬(sample (List.replicate 100 0x61) 0).LoadsString (sampleMemory (List.replicate 100 0x61)) 0 sampleKernel := by
  have hm : (sample (List.replicate 100 0x61) 0).StringMapped (sampleMemory (List.replicate 100 0x61)) 0 := by
    apply sample_stringMapped (n := 100) (by decide)
    rw [List.getD_eq_getElem?_getD, List.getElem?_replicate]
    rfl
  have hne : ∀ n : ℕ, n < 100 → sampleMemory (List.replicate 100 0x61) 0 (0 + (n : ℤ)) ≠ 0 := by
    intro n hn
    rw [sampleMemory_byte _ (by omega), List.getD_eq_getElem?_getD, List.getElem?_replicate, if_pos hn]
    decide
  have hr := sample_running (List.replicate 100 0x61) le_rfl (by decide : (0 : ℤ) ≤ 128)
  have hiff := load_string_iff _ _ sampleKernel 0 hr (by decide) hm
  refine ⟨hr, hm, hiff.2 hne, fun h => ?_⟩
  obtain ⟨n, hn, hz⟩ := hiff.1.mp h
  exact hne n hn hz

theorem file_calls_string : (sample [0x68, 0x69] 3).Moves (sampleMemory [0x68, 0x69]) 7 sampleKernel .write ∧
    (sample [0x68, 0x69] 3).Advances sampleKernel .write := by
  have hm := sample_mapped [0x68, 0x69] (by decide : (3 : ℤ) ≤ 128)
  have hiff :=
    file_calls_iff _ (sampleMemory [0x68, 0x69]) sampleKernel 7 .write (sample_running _ (by decide) (by decide))
    (sample_opened _ _ (.inr rfl)) fun _ => ⟨by decide, hm⟩
  refine hiff.mpr ⟨by decide, 2, by decide, by decide, ?_⟩ sampleKernel.heap
  refine ⟨by decide, fun j _ hj => hm j (by omega), by decide, fun j _ hj => ?_⟩
  interval_cases j
  · decide
  · decide

/-- With the bytes 0 and 5 in the buffer, no call does what it is asked for. -/
theorem file_calls_fail : (sample [0, 5] 2).Running (sampleMemory [0, 5]) ∧
    (sample [0, 5] 2).Mapped 0 2 ∧ ∀ call : FileCall,
    (sample [0, 5] 2).Opened sampleKernel ((sample [0, 5] 2).registers call.idRegister) 7 ∧
      ¬(sample [0, 5] 2).Moves (sampleMemory [0, 5]) 7 sampleKernel call := by
  have hr : (sample [0, 5] 2).Running (sampleMemory [0, 5]) := sample_running _ (by decide) (by decide)
  have hm : (sample [0, 5] 2).Mapped 0 2 := sample_mapped _ (by decide)
  refine ⟨hr, hm, fun call => ?_⟩
  cases call with
  | write =>
    have ho := sample_opened [0, 5] 2 (.inr rfl)
    refine ⟨ho, ?_⟩
    rintro ⟨buffer, s', k', he, -, hbytes⟩
    have hs : StringFrom 1 (sampleMemory [0, 5] 0) 0 0 0 :=
      ⟨le_rfl, fun j _ hj => hm j (by omega), by decide, fun j _ hj => absurd hj (Nat.not_lt_zero j)⟩
    obtain ⟨buffer₂, s₂, k₂, he₂, -, hbytes₂⟩ :=
      exec_sysWriteCall 2 hr ho.resolved (by decide) hs (by decide) sampleKernel
    have hsame := Except.ok.inj (he.symm.trans he₂)
    simp only [Prod.mk.injEq, Option.some.injEq] at hsame
    have hbyte := hbytes 1 (by decide)
    rw [hsame.1.1.2.1, hbytes₂ 1 (by decide)] at hbyte
    exact absurd hbyte (by decide)
  | read =>
    have ho := sample_opened [0, 5] 2 (.inr rfl)
    refine ⟨ho, fun h => ?_⟩
    exact absurd ((moves_read_iff hr ho (by decide) hm).mp h).2 (by decide)
  | seek =>
    refine ⟨sample_opened [0, 5] 2 (.inr rfl), ?_⟩
    rintro ⟨s', k', he, hpos⟩
    cases he
    exact absurd hpos (by decide)
  | close =>
    have ho := sample_opened [0, 5] 2 (.inl rfl)
    refine ⟨ho, ?_⟩
    rintro ⟨s', k', he, hnone⟩
    cases he
    exact absurd (ho.resolved.symm.trans hnone) (by simp)

end UserState

end NachosFileSys
