import NachosFileSys.Lib.Relational
import NachosFileSys.MipsSim
import NachosFileSys.VirtualMemory

namespace NachosFileSys

open Lib.Bytes Lib.Programs

namespace Instruction

open Registers

def reads (instr : Instruction) : List (Fin NumTotalRegs) :=
  let rs := general instr.rs
  let rt := general instr.rt
  match instr.opCode with
  | .add | .addu | .and | .nor | .or | .slt | .sltu | .sllv | .srav | .srlv | .sub | .subu | .xor => [rs, rt]
  | .addi | .addiu | .andi | .ori | .slti | .sltiu | .xori => [rs]
  | .beq | .bne | .div | .divu | .mult | .multu => [rs, rt]
  | .bgez | .bgezal | .bgtz | .blez | .bltz | .bltzal | .jalr | .jr | .mthi | .mtlo => [rs]
  | .lb | .lbu | .lh | .lhu | .lw | .lwl | .lwr => [rs]
  | .sb | .sh | .sw | .swl | .swr => [rs, rt]
  | .sll | .sra | .srl => [rt]
  | .j | .jal | .lui | .mfhi | .mflo | .syscall | .unimp | .res => []

def writes (instr : Instruction) : List (Fin NumTotalRegs) :=
  match instr.opCode with
  | .add | .addu | .and | .nor | .or | .slt | .sltu | .sll | .sllv | .sra | .srav | .srl | .srlv | .sub | .subu
  | .xor | .mfhi | .mflo | .jalr => [general instr.rd]
  | .addi | .addiu | .andi | .ori | .slti | .sltiu | .xori | .lui => [general instr.rt]
  | .bgezal | .bltzal | .jal => [retAddrReg]
  | _ => []

end Instruction

def Agree (X : Fin NumTotalRegs → Prop) (ra rb : Registers) : Prop :=
  ∀ i : Fin NumTotalRegs, i.val < 37 → ¬ X i → ra i = rb i

structure Parallel (X : Fin NumTotalRegs → Prop) (ra rb : Registers) (a b : Executed) : Prop where
  agree : Agree X a.registers b.registers
  left (i : Fin NumTotalRegs) (hi : X i ∨ 37 ≤ i.val) : a.registers i = ra i
  right (i : Fin NumTotalRegs) (hi : X i ∨ 37 ≤ i.val) : b.registers i = rb i
  loadReg : a.nextLoadReg = b.nextLoadReg
  small : b.nextLoadReg.toNat < 32
  loadValue (h : b.nextLoadReg ≠ 0) : a.nextLoadValue = b.nextLoadValue
  pcAfter : a.pcAfter = b.pcAfter

section

open Registers Instruction

variable {X : Fin NumTotalRegs → Prop} {ra rb : Registers}

lemma Agree.set (h : Agree X ra rb) (d : Fin NumTotalRegs) (v : Word) : Agree X (ra.set d v) (rb.set d v) := by
  intro i hi hX
  by_cases hd : i = d
  · rw [hd, set_self, set_self]
  · rw [set_of_ne _ hd, set_of_ne _ hd]
    exact h i hi hX

structure Assigned (X : Fin NumTotalRegs → Prop) (ra rb ra' rb' : Registers) : Prop where
  agree : Agree X ra' rb'
  left (i : Fin NumTotalRegs) (hi : X i ∨ 37 ≤ i.val) : ra' i = ra i
  right (i : Fin NumTotalRegs) (hi : X i ∨ 37 ≤ i.val) : rb' i = rb i

lemma Agree.assigned (h : Agree X ra rb) : Assigned X ra rb ra rb := ⟨h, fun _ _ => rfl, fun _ _ => rfl⟩

lemma Assigned.set {ra' rb' : Registers} (h : Assigned X ra rb ra' rb') {d : Fin NumTotalRegs} (hX : ¬ X d)
    (hd : d.val < 37) (v : Word) : Assigned X ra rb (ra'.set d v) (rb'.set d v) := by
  have hne (i : Fin NumTotalRegs) (hi : X i ∨ 37 ≤ i.val) : i ≠ d := by
    rintro rfl
    obtain hi | hi := hi
    · exact hX hi
    · omega
  refine ⟨h.agree.set d v, fun i hi => ?_, fun i hi => ?_⟩
  · rw [set_of_ne _ (hne i hi), h.left i hi]
  · rw [set_of_ne _ (hne i hi), h.right i hi]

lemma Assigned.finish {ra' rb' : Registers} (h : Assigned X ra rb ra' rb') (pcAfter : Word) :
    Prog.Rel (Parallel X ra rb) (Instruction.finish ra' pcAfter) (Instruction.finish rb' pcAfter) :=
  .pure ⟨h.agree, h.left, h.right, rfl, by simp, fun _ => rfl, rfl⟩

lemma Agree.load (h : Agree X ra rb) {rt : BitVec 5} {va vb : Word} (hv : rt ≠ 0 → va = vb) (pcAfter : Word) :
    Prog.Rel (Parallel X ra rb) (Instruction.load ra rt va pcAfter) (Instruction.load rb rt vb pcAfter) := by
  refine .pure ⟨h, fun _ _ => rfl, fun _ _ => rfl, rfl, ?_, fun hne => hv ?_, rfl⟩
  · change (rt.setWidth 32).toNat < 32
    rw [BitVec.toNat_setWidth]
    have := rt.isLt
    omega
  · rintro rfl
    exact hne rfl

lemma rel_raiseException (which : ExceptionType) (badVAddr : Word) :
    Prog.Rel (Parallel X ra rb) (Exec.raiseException which badVAddr) (Exec.raiseException which badVAddr) :=
  .request _ fun r => r.elim

lemma rel_readMem {addr : Word} {size : ℤ} {f g : Word → Exec Executed}
    (h : ∀ value, Prog.Rel (Parallel X ra rb) (f value) (g value)) :
    Prog.Rel (Parallel X ra rb) (Exec.readMem addr size >>= f) (Exec.readMem addr size >>= g) :=
  .request _ h

lemma rel_writeMem {addr value : Word} {size : ℤ} {f g : Unit → Exec Executed}
    (h : ∀ u, Prog.Rel (Parallel X ra rb) (f u) (g u)) :
    Prog.Rel (Parallel X ra rb) (Exec.writeMem addr size value >>= f) (Exec.writeMem addr size value >>= g) :=
  .request _ h

lemma general_lt (num : BitVec 5) : (general num).val < 37 := by
  have := num.isLt
  simp only [general]
  omega

lemma execute_rel (instr : Instruction) (h : Agree X ra rb) (hX : ∀ i, X i → i.val < 32)
    (hreads : ∀ i ∈ instr.reads, ¬ X i) (hwrites : ∀ i ∈ instr.writes, ¬ X i)
    (hmerge : instr.rt ≠ 0 → mergeBase ra instr.rt = mergeBase rb instr.rt) :
    Prog.Rel (Parallel X ra rb) (instr.execute ra) (instr.execute rb) := by
  have hspecial (i : Fin NumTotalRegs) (hi : 32 ≤ i.val) : ¬ X i := fun hx => absurd (hX i hx) (not_lt.mpr hi)
  have hnext : ra nextPCReg = rb nextPCReg := h _ (by decide) (hspecial _ (by decide))
  have hhi : ra hiReg = rb hiReg := h _ (by decide) (hspecial _ (by decide))
  have hlo : ra loReg = rb loReg := h _ (by decide) (hspecial _ (by decide))
  have hread {i : Fin NumTotalRegs} (hi : i ∈ instr.reads) (hlt : i.val < 37) : ra i = rb i :=
    h i hlt (hreads i hi)
  obtain ⟨opCode, rs, rt, rd, extra⟩ := instr
  cases opCode with
  | addu | and | nor | or | slt | sltu | sllv | srav | srlv | subu | xor =>
    have hrs := hread (i := general rs) (by simp [reads]) (general_lt rs)
    have hrt := hread (i := general rt) (by simp [reads]) (general_lt rt)
    simp only [execute, hrs, hrt, hnext]
    exact (h.assigned.set (hwrites _ (by simp [writes])) (general_lt rd) _).finish _
  | add | sub =>
    have hrs := hread (i := general rs) (by simp [reads]) (general_lt rs)
    have hrt := hread (i := general rt) (by simp [reads]) (general_lt rt)
    simp only [execute, hrs, hrt, hnext]
    split
    · exact rel_raiseException _ _
    · exact (h.assigned.set (hwrites _ (by simp [writes])) (general_lt rd) _).finish _
  | sll | sra | srl =>
    have hrt := hread (i := general rt) (by simp [reads]) (general_lt rt)
    simp only [execute, hrt, hnext]
    exact (h.assigned.set (hwrites _ (by simp [writes])) (general_lt rd) _).finish _
  | addiu | andi | ori | slti | sltiu | xori =>
    have hrs := hread (i := general rs) (by simp [reads]) (general_lt rs)
    simp only [execute, hrs, hnext]
    exact (h.assigned.set (hwrites _ (by simp [writes])) (general_lt rt) _).finish _
  | addi =>
    have hrs := hread (i := general rs) (by simp [reads]) (general_lt rs)
    simp only [execute, hrs, hnext]
    split
    · exact rel_raiseException _ _
    · exact (h.assigned.set (hwrites _ (by simp [writes])) (general_lt rt) _).finish _
  | lui =>
    simp only [execute, hnext]
    exact (h.assigned.set (hwrites _ (by simp [writes])) (general_lt rt) _).finish _
  | mfhi | mflo =>
    simp only [execute, hhi, hlo, hnext]
    exact (h.assigned.set (hwrites _ (by simp [writes])) (general_lt rd) _).finish _
  | mthi | mtlo =>
    have hrs := hread (i := general rs) (by simp [reads]) (general_lt rs)
    simp only [execute, hrs, hnext]
    exact (h.assigned.set (hspecial _ (by decide)) (by decide) _).finish _
  | mult | multu =>
    have hrs := hread (i := general rs) (by simp [reads]) (general_lt rs)
    have hrt := hread (i := general rt) (by simp [reads]) (general_lt rt)
    simp only [execute, hrs, hrt, hnext]
    exact ((h.assigned.set (hspecial _ (by decide)) (by decide) _).set
        (hspecial _ (by decide)) (by decide) _).finish _
  | div | divu =>
    have hrs := hread (i := general rs) (by simp [reads]) (general_lt rs)
    have hrt := hread (i := general rt) (by simp [reads]) (general_lt rt)
    have hset (v w : Word) := (h.assigned.set (hspecial loReg (by decide)) (by decide) v).set
      (hspecial hiReg (by decide)) (by decide) w
    simp only [execute, hrs, hrt, hnext]
    repeat' split
    all_goals first | exact (hset _ _).finish _ | exact .request _ fun r => r.elim
  | beq | bne =>
    have hrs := hread (i := general rs) (by simp [reads]) (general_lt rs)
    have hrt := hread (i := general rt) (by simp [reads]) (general_lt rt)
    simp only [execute, hrs, hrt, hnext]
    exact h.assigned.finish _
  | bgez | bgtz | blez | bltz | jr =>
    have hrs := hread (i := general rs) (by simp [reads]) (general_lt rs)
    simp only [execute, hrs, hnext]
    exact h.assigned.finish _
  | bgezal | bltzal =>
    have hlink := h.assigned.set (hwrites retAddrReg (by simp [writes])) (by decide) (rb nextPCReg + 4)
    have hrs := hlink.agree (general rs) (general_lt rs) (hreads _ (by simp [reads]))
    simp only [execute, hnext, hrs]
    exact hlink.finish _
  | jalr =>
    have hlink := h.assigned.set (hwrites (general rd) (by simp [writes])) (general_lt rd) (rb nextPCReg + 4)
    have hrs := hlink.agree (general rs) (general_lt rs) (hreads _ (by simp [reads]))
    simp only [execute, hnext, hrs]
    exact hlink.finish _
  | j =>
    simp only [execute, hnext]
    exact h.assigned.finish _
  | jal =>
    simp only [execute, hnext]
    exact (h.assigned.set (hwrites retAddrReg (by simp [writes])) (by decide) _).finish _
  | lb | lbu =>
    have hrs := hread (i := general rs) (by simp [reads]) (general_lt rs)
    simp only [execute, hrs, hnext]
    exact rel_readMem fun value => h.load (fun _ => rfl) _
  | lh | lhu | lw =>
    have hrs := hread (i := general rs) (by simp [reads]) (general_lt rs)
    simp only [execute, hrs, hnext]
    split
    · exact rel_raiseException _ _
    · exact rel_readMem fun value => h.load (fun _ => rfl) _
  | lwl | lwr =>
    have hrs := hread (i := general rs) (by simp [reads]) (general_lt rs)
    simp only [execute, hrs, hnext]
    exact rel_readMem fun value => h.load (fun hne => by rw [hmerge hne]) _
  | sb | sh | sw =>
    have hrs := hread (i := general rs) (by simp [reads]) (general_lt rs)
    have hrt := hread (i := general rt) (by simp [reads]) (general_lt rt)
    simp only [execute, hrs, hrt, hnext]
    exact rel_writeMem fun _ => h.assigned.finish _
  | swl | swr =>
    have hrs := hread (i := general rs) (by simp [reads]) (general_lt rs)
    have hrt := hread (i := general rt) (by simp [reads]) (general_lt rt)
    simp only [execute, hrs, hrt, hnext]
    exact rel_readMem fun value => rel_writeMem fun _ => h.assigned.finish _
  | syscall | unimp | res => exact rel_raiseException _ _

def harmless : MachineEvent → Prop
  | .writeMem _ _ _ => False
  | _ => True

lemma execute_retryable (instr : Instruction) (r : Registers) : Prog.Retryable harmless (instr.execute r) := by
  obtain ⟨opCode, rs, rt, rd, extra⟩ := instr
  have hraise (which : ExceptionType) (badVAddr : Word) :
      Prog.Retryable harmless (Exec.raiseException which badVAddr : Exec Executed) :=
    .request trivial fun x => x.elim
  cases opCode with
  | add | addi | sub =>
    simp only [execute]
    split
    · exact hraise _ _
    · exact .pure _
  | div | divu =>
    simp only [execute]
    repeat' split
    all_goals first | exact .pure _ | exact .request trivial fun x => x.elim
  | lb | lbu | lwl | lwr => exact .request trivial fun value => .pure _
  | lh | lhu | lw =>
    simp only [execute]
    split
    · exact hraise _ _
    · exact .request trivial fun value => .pure _
  | sb | sh | sw => exact .last _ _
  | swl | swr => exact .request trivial fun value => .last _ _
  | syscall | unimp | res => exact hraise _ _
  | _ => exact .pure _

lemma oneInstruction_retryable (r : Registers) : Prog.Retryable harmless (oneInstruction r) :=
  .request trivial fun raw => (execute_retryable (decode raw) r).map _

end

namespace PagedMachine

/-- A page of the virtual memory of an address space, in its frame or in its slot. -/
def contentsOf (m : PagedMachine) (space page : ℕ) : Page :=
  let entry := m.pageTable (space, page)
  if entry.valid then m.frame entry.physicalPage else m.swapSpace entry.virtualPage

def Apart (m : PagedMachine) (space : ℕ) : Prop :=
  ∀ p q, m.Resident (space, p) → m.Resident (space, q) →
    (m.pageTable (space, p)).physicalPage = (m.pageTable (space, q)).physicalPage → p = q

structure Alike (space : ℕ) (m m' : PagedMachine) : Prop where
  apart : m.Apart space
  apart' : m'.Apart space
  numPages : m.numPages.getD space 0 = m'.numPages.getD space 0
  contents (page : ℕ) (h : page < m.numPages.getD space 0) : m.contentsOf space page = m'.contentsOf space page

lemma contentsOf_eq {m : PagedMachine} {flat : FlatMemory} (h : World.Consistent ⟨m, fun _ => none⟩ flat)
    {space page : ℕ}
    (hm : m.Mapped (space, page)) (j : Fin 128) : m.contentsOf space page j = flat space (page * 128 + j.val) := by
  rw [contentsOf]
  split
  · exact h.inMemory ⟨hm, ‹_›⟩ (World.not_fetching rfl) j
  · exact h.inSwap hm (.inl (Bool.eq_false_iff.mpr ‹_›)) j

lemma Alike.of_consistent {m m' : PagedMachine} {flat : FlatMemory}
    {space : ℕ} (h : World.Consistent ⟨m, fun _ => none⟩ flat)
    (h' : World.Consistent ⟨m', fun _ => none⟩ flat) (hn : m'.numPages = m.numPages) : Alike space m m' := by
  have hapart : ∀ {m : PagedMachine}, World.Consistent ⟨m, fun _ => none⟩ flat → m.Apart space :=
    fun hc p q hp hq he => by
    cases hc.frames hp hq he
    rfl
  refine ⟨hapart h, hapart h', by rw [hn], fun page hp => funext fun j => ?_⟩
  have hp' : m'.Mapped (space, page) := by
    rw [Mapped, hn]
    exact hp
  rw [contentsOf_eq h hp, contentsOf_eq h' hp']

structure Located (m : PagedMachine) (space : ℕ) (addr size : ℤ) (physicalAddress : ℤ) (m' : PagedMachine) :
    Prop where
  resident : m.Resident (space, (addr % 2 ^ 32 / 128).toNat)
  address : physicalAddress =
    (m.pageTable (space, (addr % 2 ^ 32 / 128).toNat)).physicalPage * 128 + addr % 2 ^ 32 % 128
  inside : size = 1 ∨ size = 2 ∨ size = 4 → addr % 2 ^ 32 % 128 + size ≤ 128
  memory : m'.mainMemory = m.mainMemory
  swap : m'.swapSpace = m.swapSpace
  numPages : m'.numPages = m.numPages
  entry (x : EntryPtr) : (m'.pageTable x).valid = (m.pageTable x).valid ∧
    (m'.pageTable x).physicalPage = (m.pageTable x).physicalPage ∧
    (m'.pageTable x).virtualPage = (m.pageTable x).virtualPage

variable {m m' m₁ m₁' : PagedMachine} {space : ℕ} {addr size : ℤ} {writing : Bool} {physicalAddress : ℤ}

lemma translate_located (h : m.translate space addr size writing = .ok (physicalAddress, m')) :
    m.Located space addr size physicalAddress m' := by
  unfold translate at h
  split at h
  · cases h
  · rename_i halign
    simp only at h
    split at h
    · cases h
    · rename_i hpage
      split at h
      · cases h
      · rename_i hvalid
        split at h
        · cases h
        · split at h
          · cases h
          · cases h
            refine ⟨⟨not_le.mp hpage, by simpa using hvalid⟩, rfl, ?_, rfl, rfl, rfl, fun x => ?_⟩
            · rintro (rfl | rfl | rfl) <;> omega
            · by_cases hx : x = (space, (addr % 2 ^ 32 / 128).toNat)
              · subst hx
                simp [setEntry]
              · simp only [setEntry, Function.update_of_ne hx]
                trivial

lemma Located.contents_eq (h : m.Located space addr size physicalAddress m') (page : ℕ) :
    m'.contentsOf space page = m.contentsOf space page := by
  obtain ⟨hv, hp, hs⟩ := h.entry (space, page)
  have hframe : m'.frame = m.frame := by
    funext ppn j
    rw [frame, h.memory, frame]
  simp only [PagedMachine.contentsOf, hframe, hv, hp, hs, h.swap]

lemma Located.apart (h : m.Located space addr size physicalAddress m') (ha : m.Apart space) : m'.Apart space := by
  intro p q hp hq he
  simp only [Resident, Mapped, h.numPages, (h.entry _).1, (h.entry _).2.1] at hp hq he
  exact ha p q hp hq he

lemma contentsOf_resident {page : ℕ} (h : m.Resident (space, page)) :
    m.contentsOf space page = m.frame (m.pageTable (space, page)).physicalPage := by
  simp [PagedMachine.contentsOf, h.2]

lemma Located.byte (h : m.Located space addr size physicalAddress m') (hs : size = 1 ∨ size = 2 ∨ size = 4) {i : ℤ}
    (h₀ : 0 ≤ i) (hi : i < size) :
    m'.mainMemory (physicalAddress + i) = m.contentsOf space (addr % 2 ^ 32 / 128).toNat
      ⟨(addr % 2 ^ 32 % 128 + i).toNat, by have := h.inside hs; omega⟩ := by
  have hoffset : 0 ≤ addr % 2 ^ 32 % 128 := Int.emod_nonneg _ (by norm_num)
  rw [contentsOf_resident h.resident, frame, h.memory]
  dsimp only
  rw [Int.toNat_of_nonneg (by omega), ← add_assoc, ← h.address]

lemma fetchData_sizes {memory : ℤ → Byte} {address data : ℤ} (h : fetchData memory address size = .ok data) :
    size = 1 ∨ size = 2 ∨ size = 4 := by
  unfold fetchData at h
  split at h
  · exact .inl ‹_›
  · split at h
    · exact .inr (.inl ‹_›)
    · split at h
      · exact .inr (.inr ‹_›)
      · cases h

def patched (page : Page) (offset size value : ℤ) : Page := fun j =>
  if offset ≤ j.val ∧ (j.val : ℤ) < offset + size then
    byteOf (BitVec.ofInt 32 value) (j.val - offset).toNat else page j

lemma Located.store (h : m.Located space addr size physicalAddress m') (ha : m.Apart space)
    (hs : size = 1 ∨ size = 2 ∨ size = 4) (value : ℤ) {page : ℕ} (hp : page < m.numPages.getD space 0) :
    PagedMachine.contentsOf { m' with mainMemory := stored m'.mainMemory physicalAddress size value } space page =
      if page = (addr % 2 ^ 32 / 128).toNat then
        patched (m.contentsOf space page) (addr % 2 ^ 32 % 128) size value
      else m.contentsOf space page := by
  have hinside := h.inside hs
  have hoffset : 0 ≤ addr % 2 ^ 32 % 128 := Int.emod_nonneg _ (by norm_num)
  obtain ⟨hv, hpp, hvp⟩ := h.entry (space, page)
  by_cases hres : (m.pageTable (space, page)).valid = true
  · have hresident : m.Resident (space, page) := ⟨hp, hres⟩
    rw [contentsOf_resident hresident, PagedMachine.contentsOf]
    simp only [hv, hres, if_true, hpp]
    funext j
    have hj := j.isLt
    split
    · rename_i hpage
      subst hpage
      simp only [frame, stored, patched, h.address, h.memory]
      congr 1
      · exact propext ⟨fun _ => ⟨by omega, by omega⟩, fun _ => ⟨by omega, by omega⟩⟩
      · congr 2
        omega
    · rename_i hpage
      have hne : (m.pageTable (space, page)).physicalPage ≠
          (m.pageTable (space, (addr % 2 ^ 32 / 128).toNat)).physicalPage :=
        fun heq => hpage (ha _ _ hresident h.resident heq)
      simp only [frame, stored, h.address, h.memory]
      rw [if_neg (by omega)]
  · have hne : page ≠ (addr % 2 ^ 32 / 128).toNat := by
      rintro rfl
      exact hres h.resident.2
    simp only [PagedMachine.contentsOf, hv, hres, hne, hvp, h.swap, if_false, Bool.false_eq_true]

lemma respond_readMem_ok {addr : Word} {value : Word}
    (h : respond space (.readMem addr size) m = .ok (value, m')) :
    ∃ physicalAddress data, m.Located space addr.toInt size physicalAddress m' ∧
      fetchData m'.mainMemory physicalAddress size = .ok data ∧ value = BitVec.ofInt 32 data := by
  simp only [respond] at h
  split at h
  · cases h
  · rename_i physicalAddress m₁ ht
    split at h
    · cases h
    · rename_i data hd
      cases h
      exact ⟨physicalAddress, data, translate_located ht, hd, rfl⟩

lemma respond_writeMem_ok {addr value : Word} {u : Unit}
    (h : respond space (.writeMem addr size value) m = .ok (u, m')) :
    ∃ physicalAddress m₁, m.Located space addr.toInt size physicalAddress m₁ ∧ (size = 1 ∨ size = 2 ∨ size = 4) ∧
      m' = { m₁ with mainMemory := stored m₁.mainMemory physicalAddress size value.toInt } := by
  simp only [respond] at h
  split at h
  · cases h
  · rename_i physicalAddress m₁ ht
    split at h
    · cases h
    · rename_i memory hstore
      cases h
      unfold storeData at hstore
      split at hstore
      · rename_i hs
        cases hstore
        exact ⟨physicalAddress, m₁, translate_located ht, hs, rfl⟩
      · cases hstore

lemma Alike.located (h : Alike space m m₁) (hl : m.Located space addr size physicalAddress m') :
    Alike space m' m₁ := by
  refine ⟨hl.apart h.apart, h.apart', by rw [hl.numPages, h.numPages], fun page hp => ?_⟩
  rw [hl.numPages] at hp
  rw [hl.contents_eq, h.contents page hp]

lemma Alike.symm (h : Alike space m m') : Alike space m' m :=
  ⟨h.apart', h.apart, h.numPages.symm, fun page hp => (h.contents page (h.numPages ▸ hp)).symm⟩

lemma Alike.moved (h : Alike space m m₁) (hr : Alike space m m') : Alike space m' m₁ := by
  refine ⟨hr.apart', h.apart', hr.numPages.symm.trans h.numPages, fun page hp => ?_⟩
  have hp' : page < m.numPages.getD space 0 := hr.numPages ▸ hp
  exact (hr.contents page hp').symm.trans (h.contents page hp')

lemma Apart.store (ha : m.Apart space) (hl : m.Located space addr size physicalAddress m') (memory : ℤ → Byte) :
    Apart { m' with mainMemory := memory } space := hl.apart ha

lemma Alike.respond {e : MachineEvent} {r r' : e.Reply} (h : Alike space m m₁)
    (hm : respond space e m = .ok (r, m'))
    (hm₁ : PagedMachine.respond space e m₁ = .ok (r', m₁')) : r = r' ∧ Alike space m' m₁' := by
  cases e with
  | readMem addr size =>
    obtain ⟨pa, data, hl, hd, rfl⟩ := respond_readMem_ok hm
    obtain ⟨pa₁, data₁, hl₁, hd₁, rfl⟩ := respond_readMem_ok hm₁
    have hs := fetchData_sizes hd
    have hdata : fetchData m'.mainMemory pa size = fetchData m₁'.mainMemory pa₁ size := by
      apply fetchData_congr
      intro i h₀ hi
      rw [hl.byte hs h₀ hi, hl₁.byte hs h₀ hi, h.contents _ hl.resident.1]
    rw [hd, hd₁] at hdata
    cases hdata
    exact ⟨rfl, ((h.located hl).symm.located hl₁).symm⟩
  | writeMem addr size value =>
    obtain ⟨pa, m₂, hl, hs, rfl⟩ := respond_writeMem_ok hm
    obtain ⟨pa₁, m₃, hl₁, -, rfl⟩ := respond_writeMem_ok hm₁
    refine ⟨rfl, h.apart.store hl _, h.apart'.store hl₁ _, ?_, fun page hp => ?_⟩
    · change m₂.numPages.getD space 0 = m₃.numPages.getD space 0
      rw [hl.numPages, hl₁.numPages, h.numPages]
    · change page < m₂.numPages.getD space 0 at hp
      rw [hl.numPages] at hp
      rw [hl.store h.apart hs value.toInt hp, hl₁.store h.apart' hs value.toInt (h.numPages ▸ hp),
          h.contents page hp]
  | raiseException which badVAddr => cases hm
  | abort => cases hm

lemma Alike.harmless {e : MachineEvent} {r : e.Reply} (h : Alike space m m₁) (he : NachosFileSys.harmless e)
    (hm : PagedMachine.respond space e m = .ok (r, m')) : Alike space m' m₁ := by
  cases e with
  | readMem addr size =>
    obtain ⟨pa, data, hl, -, -⟩ := respond_readMem_ok hm
    exact h.located hl
  | writeMem addr size value => exact he.elim
  | raiseException which badVAddr => cases hm
  | abort => cases hm

lemma Alike.respond_error {e : MachineEvent} {x : Trap × PagedMachine} (h : Alike space m m₁)
    (hm : PagedMachine.respond space e m = .error x) : Alike space x.2 m₁ := by
  cases e with
  | readMem addr size =>
    simp only [PagedMachine.respond] at hm
    split at hm
    · cases hm
      exact h
    · rename_i pa m₂ ht
      split at hm
      · cases hm
        exact h.located (translate_located ht)
      · cases hm
  | writeMem addr size value =>
    simp only [PagedMachine.respond] at hm
    split at hm
    · cases hm
      exact h
    · rename_i pa m₂ ht
      split at hm
      · cases hm
        exact h.located (translate_located ht)
      · cases hm
  | raiseException which badVAddr =>
    cases hm
    exact h
  | abort =>
    cases hm
    exact h

end PagedMachine

namespace Registers

lemma delayedLoad_of_lt (nextReg nextValue : Word) (r : Registers) {i : Fin NumTotalRegs} (hi : i.val < 37) :
    delayedLoad nextReg nextValue r i =
      if i = 0 then 0 else if i.val = (r loadReg).toNat then r loadValueReg else r i := by
  have h₁ : i ≠ loadReg := fun h => absurd hi (by rw [h]; decide)
  have h₂ : i ≠ loadValueReg := fun h => absurd hi (by rw [h]; decide)
  unfold delayedLoad
  by_cases h₀ : i = 0
  · rw [h₀, set_self, if_pos rfl]
  · rw [set_of_ne _ h₀, set_of_ne _ h₂, set_of_ne _ h₁, assign, if_neg h₀]

lemma delayedLoad_loadReg (nextReg nextValue : Word) (r : Registers) :
    delayedLoad nextReg nextValue r loadReg = nextReg := by
  rw [delayedLoad, set_of_ne _ (by decide), set_of_ne _ (by decide), set_self]

lemma delayedLoad_loadValueReg (nextReg nextValue : Word) (r : Registers) :
    delayedLoad nextReg nextValue r loadValueReg = nextValue := by
  rw [delayedLoad, set_of_ne _ (by decide), set_self]

def Pending (r : Registers) (i : Fin NumTotalRegs) : Prop := r loadReg ≠ 0 ∧ i.val = (r loadReg).toNat

/-- The registers of a run with traps beside those of the run without: the same, or the pending load of the one
is done already in the other. -/
structure InStep (a b : Registers) : Prop where
  zero : a 0 = 0
  zero' : b 0 = 0
  small : (b loadReg).toNat < 32
  rel : (Agree (fun _ => False) a b ∧ a loadReg = b loadReg ∧ (b loadReg ≠ 0 → a loadValueReg = b loadValueReg)) ∨
    (a loadReg = 0 ∧ b loadReg ≠ 0 ∧ Agree b.Pending a b ∧ ∀ i, b.Pending i → a i = b loadValueReg)

variable {a b : Registers}

lemma ne_zero_of_pending {i : Fin NumTotalRegs} (h : b.Pending i) : i ≠ 0 := by
  rintro rfl
  exact h.1 (BitVec.eq_of_toNat_eq h.2.symm)

lemma InStep.refl (h₀ : a 0 = 0) (hs : (a loadReg).toNat < 32) : InStep a a :=
  ⟨h₀, h₀, hs, .inl ⟨fun _ _ _ => rfl, rfl, fun _ => rfl⟩⟩

lemma InStep.agree (h : InStep a b) {i : Fin NumTotalRegs} (hi : i.val < 37) :
    delayedLoad 0 0 a i = delayedLoad 0 0 b i := by
  rw [delayedLoad_of_lt _ _ _ hi, delayedLoad_of_lt _ _ _ hi]
  by_cases h₀ : i = 0
  · simp [h₀]
  · have hval : i.val ≠ 0 := fun hv => h₀ (Fin.ext hv)
    rw [if_neg h₀, if_neg h₀]
    obtain ⟨hagree, hreg, hvalue⟩ | ⟨hreg, hne, hagree, hdone⟩ := h.rel
    · rw [hreg]
      split
      · rename_i hp
        refine hvalue fun hz => hval ?_
        rw [hp, hz]
        rfl
      · exact hagree i hi id
    · have hnot : i.val ≠ (a loadReg).toNat := by
        rw [hreg]
        exact hval
      rw [if_neg hnot]
      split
      · rename_i hp
        exact hdone i ⟨hne, hp⟩
      · rename_i hp
        exact hagree i hi fun hpend => hp hpend.2

lemma InStep.retire (h : InStep a b) : InStep (delayedLoad 0 0 a) b := by
  have hload {i : Fin NumTotalRegs} (hi : i.val < 37) := delayedLoad_of_lt 0 0 a hi
  have hzero : delayedLoad 0 0 a 0 = 0 := by rw [hload (by decide), if_pos rfl]
  have hreg' := delayedLoad_loadReg 0 0 a
  obtain ⟨hagree, hreg, hvalue⟩ | ⟨hreg, hne, hagree, hdone⟩ := h.rel
  · by_cases hb : b loadReg = 0
    · refine ⟨hzero, h.zero', h.small, .inl ⟨fun i hi hx => ?_, hreg'.trans hb.symm, fun hne => absurd hb hne⟩⟩
      rw [hload hi]
      by_cases h₀ : i = 0
      · rw [if_pos h₀, h₀, h.zero']
      · have hnot : i.val ≠ (a loadReg).toNat := by
          rw [hreg, hb]
          exact fun hv => h₀ (Fin.ext hv)
        rw [if_neg h₀, if_neg hnot]
        exact hagree i hi hx
    · refine ⟨hzero, h.zero', h.small, .inr ⟨hreg', hb, fun i hi hx => ?_, fun i hp => ?_⟩⟩
      · rw [hload hi]
        by_cases h₀ : i = 0
        · rw [if_pos h₀, h₀, h.zero']
        · have hnot : i.val ≠ (a loadReg).toNat := by
            rw [hreg]
            exact fun hv => hx ⟨hb, hv⟩
          rw [if_neg h₀, if_neg hnot]
          exact hagree i hi id
      · have hi : i.val < 37 := by
          rw [hp.2]
          exact lt_trans h.small (by norm_num)
        rw [hload hi, if_neg (ne_zero_of_pending hp), hreg, if_pos hp.2]
        exact hvalue hb
  · have hsame {i : Fin NumTotalRegs} (hi : i.val < 37) : delayedLoad 0 0 a i = a i := by
      rw [hload hi]
      by_cases h₀ : i = 0
      · rw [if_pos h₀, h₀, h.zero]
      · have hnot : i.val ≠ (a loadReg).toNat := by
          rw [hreg]
          exact fun hv => h₀ (Fin.ext hv)
        rw [if_neg h₀, if_neg hnot]
    refine ⟨hzero, h.zero', h.small, .inr ⟨hreg', hne, fun i hi hx => ?_, fun i hp => ?_⟩⟩
    · rw [hsame hi]
      exact hagree i hi hx
    · have hi : i.val < 37 := by
        rw [hp.2]
        exact lt_trans h.small (by norm_num)
      rw [hsame hi]
      exact hdone i hp

lemma InStep.raised (h : InStep a b) (badVAddr : Word) : InStep (a.raised badVAddr) b := by
  have hsame {i : Fin NumTotalRegs} (hi : i ≠ badVAddrReg) : a.set badVAddrReg badVAddr i = a i := set_of_ne _ hi _
  have hlt {i : Fin NumTotalRegs} (hi : i.val < 37) : i ≠ badVAddrReg := by
    rintro rfl
    exact absurd hi (by decide)
  apply InStep.retire
  refine ⟨?_, h.zero', h.small, ?_⟩
  · rw [hsame (by decide)]
    exact h.zero
  · rw [hsame (by decide), hsame (by decide)]
    obtain ⟨hagree, hreg, hvalue⟩ | ⟨hreg, hne, hagree, hdone⟩ := h.rel
    · refine .inl ⟨fun i hi hx => ?_, hreg, hvalue⟩
      rw [hsame (hlt hi)]
      exact hagree i hi hx
    · refine .inr ⟨hreg, hne, fun i hi hx => ?_, fun i hp => ?_⟩
      · rw [hsame (hlt hi)]
        exact hagree i hi hx
      · have hi : i.val < 37 := by
          rw [hp.2]
          exact lt_trans h.small (by norm_num)
        rw [hsame (hlt hi)]
        exact hdone i hp

lemma InStep.differ (h : InStep a b) : ∃ X : Fin NumTotalRegs → Prop, Agree X a b ∧ (∀ i, X i → b.Pending i) ∧
    (∀ i, X i → a i = b loadValueReg) ∧ ((∀ i, ¬ X i) ∧ a loadReg = b loadReg ∧
      (b loadReg ≠ 0 → a loadValueReg = b loadValueReg) ∨ (∀ i, b.Pending i → X i) ∧
      a loadReg = 0 ∧ b loadReg ≠ 0) := by
  obtain ⟨hagree, hreg, hvalue⟩ | ⟨hreg, hne, hagree, hdone⟩ := h.rel
  · exact ⟨fun _ => False, hagree, fun _ hx => hx.elim, fun _ hx => hx.elim, .inl ⟨fun _ => id, hreg, hvalue⟩⟩
  · exact ⟨b.Pending, hagree, fun _ => id, hdone, .inr ⟨fun _ => id, hreg, hne⟩⟩

lemma toNat_setWidth (rt : BitVec 5) : (rt.setWidth 32).toNat = rt.toNat := by
  rw [BitVec.toNat_setWidth]
  have := rt.isLt
  omega

lemma InStep.mergeBase (h : InStep a b) {rt : BitVec 5} (hrt : rt ≠ 0) : mergeBase a rt = mergeBase b rt := by
  have hzero : rt.setWidth 32 ≠ (0 : Word) := by
    intro hz
    have hnat := toNat_setWidth rt
    rw [hz] at hnat
    exact hrt (BitVec.eq_of_toNat_eq hnat.symm)
  unfold NachosFileSys.mergeBase
  obtain ⟨hagree, hreg, hvalue⟩ | ⟨hreg, hne, hagree, hdone⟩ := h.rel
  · rw [hreg]
    split
    · rename_i heq
      exact hvalue (heq ▸ hzero)
    · exact hagree _ (general_lt rt) id
  · rw [hreg, if_neg hzero.symm]
    split
    · rename_i heq
      refine hdone _ ⟨hne, ?_⟩
      rw [heq, toNat_setWidth]
      rfl
    · rename_i heq
      refine hagree _ (general_lt rt) fun hp => heq (BitVec.eq_of_toNat_eq ?_)
      rw [toNat_setWidth]
      exact hp.2.symm

lemma InStep.advance {X : Fin NumTotalRegs → Prop} {ea eb : Executed} (hp : Parallel X a b ea eb)
    (hX : ∀ i, X i → b.Pending i) (hdone : ∀ i, X i → a i = b loadValueReg)
    (hrel : (∀ i, ¬ X i) ∧ a loadReg = b loadReg ∧ (b loadReg ≠ 0 → a loadValueReg = b loadValueReg) ∨
      (∀ i, b.Pending i → X i) ∧ a loadReg = 0 ∧ b loadReg ≠ 0) : InStep ea.advance eb.advance := by
  have hea := hp.left loadReg (.inr (by decide))
  have heb := hp.right loadReg (.inr (by decide))
  have hva := hp.left loadValueReg (.inr (by decide))
  have hvb := hp.right loadValueReg (.inr (by decide))
  have hload : Agree (fun _ => False) (delayedLoad ea.nextLoadReg ea.nextLoadValue ea.registers)
      (delayedLoad eb.nextLoadReg eb.nextLoadValue eb.registers) := by
    intro i hi _
    rw [delayedLoad_of_lt _ _ _ hi, delayedLoad_of_lt _ _ _ hi, hea, heb, hva, hvb]
    by_cases h₀ : i = 0
    · rw [if_pos h₀, if_pos h₀]
    · rw [if_neg h₀, if_neg h₀]
      have hval : i.val ≠ 0 := fun hv => h₀ (Fin.ext hv)
      obtain ⟨hnone, hreg, hvalue⟩ | ⟨hall, hreg, hne⟩ := hrel
      · rw [hreg]
        split
        · rename_i hpend
          refine hvalue fun hz => hval ?_
          rw [hpend, hz]
          rfl
        · exact hp.agree i hi (hnone i)
      · have hnot : i.val ≠ (a loadReg).toNat := by
          rw [hreg]
          exact hval
        rw [if_neg hnot]
        split
        · rename_i hpend
          have hXi := hall i ⟨hne, hpend⟩
          rw [hp.left i (.inl hXi), hdone i hXi]
        · rename_i hpend
          exact hp.agree i hi fun hXi => hpend (hX i hXi).2
  have hset {ra rb : Registers} (h : Agree (fun _ => False) ra rb) (d : Fin NumTotalRegs) {j : Fin NumTotalRegs}
      (hj : j.val < 37) : Agree (fun _ => False) (ra.set d (ra j)) (rb.set d (rb j)) := by
    rw [h j hj id]
    exact h.set d _
  have hagree : Agree (fun _ => False) ea.advance eb.advance := by
    unfold Executed.advance
    rw [hp.pcAfter]
    exact (hset (hset hload prevPCReg (by decide)) pcReg (by decide)).set nextPCReg _
  have hpast (e : Executed) {i : Fin NumTotalRegs} (h₁ : i ≠ nextPCReg) (h₂ : i ≠ pcReg) (h₃ : i ≠ prevPCReg) :
      e.advance i = delayedLoad e.nextLoadReg e.nextLoadValue e.registers i := by
    unfold Executed.advance
    rw [set_of_ne _ h₁, set_of_ne _ h₂, set_of_ne _ h₃]
  have hreg (e : Executed) : e.advance loadReg = e.nextLoadReg := by
    rw [hpast e (by decide) (by decide) (by decide), delayedLoad_loadReg]
  have hvalue (e : Executed) : e.advance loadValueReg = e.nextLoadValue := by
    rw [hpast e (by decide) (by decide) (by decide), delayedLoad_loadValueReg]
  have hzero (e : Executed) : e.advance 0 = 0 := by
    rw [hpast e (by decide) (by decide) (by decide), delayedLoad_of_lt _ _ _ (by decide), if_pos rfl]
  refine ⟨hzero ea, hzero eb, ?_, .inl ⟨hagree, ?_, fun hne => ?_⟩⟩
  · rw [hreg]
    exact hp.small
  · rw [hreg, hreg, hp.loadReg]
  · rw [hreg] at hne
    rw [hvalue, hvalue, hp.loadValue hne]

end Registers

structure UserMachine where
  registers : Registers
  memory : PagedMachine
  space : ℕ

namespace UserMachine

open Registers PagedMachine

def step (σ : UserMachine) : Except (Trap × PagedMachine) UserMachine :=
  match (oneInstruction σ.registers).run (respond σ.space) σ.memory with
  | .ok (registers, memory) => .ok { σ with registers := registers, memory := memory }
  | .error x => .error x

inductive Undisturbed (σ : UserMachine) : ℕ → UserMachine → Prop
  | refl : Undisturbed σ 0 σ
  | step {n : ℕ} {τ τ' : UserMachine} : Undisturbed σ n τ → τ.step = .ok τ' → Undisturbed σ (n + 1) τ'

/-- What the handler of a page fault may do: it moves pages, and leaves the virtual memory as it is. -/
def Repairs (space : ℕ) (m m' : PagedMachine) : Prop := Alike space m m'

/-- The page fault handler of the kernel repairs, as long as no page of another address space is on its way. -/
lemma exists_repair {m : PagedMachine} {flat : FlatMemory} {space page : ℕ}
    (h : World.Consistent ⟨m, fun _ => none⟩ flat)
    (hm : m.Mapped (space, page)) (hv : (m.pageTable (space, page)).valid = false) :
    ∃ m', m.pageFault space page = .ok m' ∧ Repairs space m m' := by
  obtain ⟨m', he, hc, -, hn⟩ := h.pageFault (fun _ => rfl) hm hv
  exact ⟨m', he, .of_consistent h hc hn⟩

/-- A run of so many instructions with interrupts in between and page faults that are repaired. -/
inductive Disturbed (σ : UserMachine) : ℕ → UserMachine → Prop
  | refl : Disturbed σ 0 σ
  -- another program may run before this one goes on, and evict its pages
  | interrupt {n : ℕ} {τ : UserMachine} {m : PagedMachine} : Disturbed σ n τ → Repairs τ.space τ.memory m →
    Disturbed σ n { τ with registers := delayedLoad 0 0 τ.registers, memory := m }
  | fault {n : ℕ} {τ : UserMachine} {badVAddr : Word} {m m' : PagedMachine} : Disturbed σ n τ →
    τ.step = .error (.exception .pageFaultException badVAddr, m) → Repairs τ.space m m' →
    Disturbed σ n { τ with registers := τ.registers.raised badVAddr, memory := m' }
  | step {n : ℕ} {τ τ' : UserMachine} : Disturbed σ n τ → τ.step = .ok τ' → Disturbed σ (n + 1) τ'

def fetched (σ : UserMachine) : Option Instruction :=
  match respond σ.space (.readMem (σ.registers pcReg) 4) σ.memory with
  | .ok (raw, _) => some (decode raw)
  | .error _ => none

def Avoids (touches : Instruction → List (Fin NumTotalRegs)) (σ : UserMachine) : Prop :=
  ∀ instr, σ.fetched = some instr → ∀ i ∈ touches instr, ¬ σ.registers.Pending i

structure Together (α β : UserMachine) : Prop where
  registers : InStep α.registers β.registers
  memory : Alike α.space α.memory β.memory
  space : α.space = β.space

variable {α α' β β' : UserMachine}

lemma Together.interrupt (h : Together α β) {m : PagedMachine} (hr : Repairs α.space α.memory m) :
    Together { α with registers := delayedLoad 0 0 α.registers, memory := m } β :=
  ⟨h.registers.retire, h.memory.moved hr, h.space⟩

lemma step_ok {σ σ' : UserMachine} (h : σ.step = .ok σ') :
    (oneInstruction σ.registers).run (respond σ.space) σ.memory = .ok (σ'.registers, σ'.memory) ∧
    σ'.space = σ.space := by
  unfold step at h
  split at h
  · rename_i heq
    cases h
    exact ⟨heq, rfl⟩
  · cases h

lemma Together.fault (h : Together α β) {x : Trap × PagedMachine} {m : PagedMachine} (hx : α.step = .error x)
    (hr : Repairs α.space x.2 m) (badVAddr : Word) :
    Together { α with registers := α.registers.raised badVAddr, memory := m } β := by
  have hrun : (oneInstruction α.registers).run (respond α.space) α.memory = .error x := by
    unfold step at hx
    split at hx
    · cases hx
    · rename_i heq
      cases hx
      exact heq
  have halike : Alike α.space x.2 β.memory := by
    refine (oneInstruction_retryable α.registers).run_error (I := fun m => Alike α.space m β.memory)
      (J := fun x => Alike α.space x.2 β.memory) (fun e s r s' he hs hm => ?_)
      (fun e s y hs hm => ?_) h.memory hrun
    · exact hs.harmless he hm
    · exact hs.respond_error hm
  exact ⟨h.registers.raised badVAddr, halike.moved hr, h.space⟩

lemma Together.step (h : Together α β) (hc : β.Avoids fun instr => instr.reads ++ instr.writes)
    (hα : α.step = .ok α') (hβ : β.step = .ok β') : Together α' β' := by
  obtain ⟨hα, hsα⟩ := step_ok hα
  obtain ⟨hβ, hsβ⟩ := step_ok hβ
  obtain ⟨X, hagree, hX, hdone, hrel⟩ := h.registers.differ
  have hsmall (i : Fin NumTotalRegs) (hi : X i) : i.val < 32 := by
    rw [(hX i hi).2]
    exact h.registers.small
  have hpc : α.registers pcReg = β.registers pcReg :=
    hagree _ (by decide) fun hx => absurd (hsmall _ hx) (by decide)
  rw [← h.space] at hβ
  rw [oneInstruction, Prog.run_bind_ok] at hα hβ
  obtain ⟨raw, m, hfetch, hα⟩ := hα
  obtain ⟨raw', m', hfetch', hβ⟩ := hβ
  have hsend (addr : Word) (m : PagedMachine) :
      (Exec.readMem addr 4).run (respond α.space) m = respond α.space (.readMem addr 4) m := Prog.run_send _ _ m
  rw [hsend] at hfetch hfetch'
  rw [hpc] at hfetch
  obtain ⟨rfl, halike⟩ := h.memory.respond hfetch hfetch'
  have havoid : ∀ i ∈ (decode raw).reads ++ (decode raw).writes, ¬ X i := by
    intro i hi hx
    refine hc (decode raw) ?_ i hi (hX i hx)
    rw [fetched, ← h.space, hfetch']
  have hexec := execute_rel (decode raw) hagree hsmall (fun i hi => havoid i (by simp [hi]))
    (fun i hi => havoid i (by simp [hi])) h.registers.mergeBase
  have hrest : Prog.Rel InStep ((decode raw).execute α.registers >>= fun e => pure e.advance)
      ((decode raw).execute β.registers >>= fun e => pure e.advance) :=
    hexec.bind fun ea eb hp => .pure (InStep.advance hp hX hdone hrel)
  obtain ⟨hreg, hmem⟩ := hrest.run (T := Alike α.space) (fun e s t r s' r' t' hst hs ht => hst.respond hs ht)
    halike hα hβ
  exact ⟨hreg, by rw [hsα]; exact hmem, by rw [hsα, hsβ, h.space]⟩

lemma Disturbed.together {n : ℕ} (hα : Disturbed α n α') (h : Together α β)
    (havoids : ∀ i τ, i < n → Undisturbed β i τ → τ.Avoids fun instr => instr.reads ++ instr.writes) :
    ∀ {β'}, Undisturbed β n β' → Together α' β' ∧ β'.space = β.space := by
  induction hα with
  | refl =>
    intro β' hβ
    cases hβ
    exact ⟨h, rfl⟩
  | interrupt _ hr ih =>
    intro β' hβ
    obtain ⟨h, hs⟩ := ih havoids hβ
    exact ⟨h.interrupt hr, hs⟩
  | fault _ hx hr ih =>
    intro β' hβ
    obtain ⟨h, hs⟩ := ih havoids hβ
    exact ⟨h.fault hx hr _, hs⟩
  | step _ hstep ih =>
    intro β' hβ
    cases hβ with
    | step hβ hstepβ =>
      obtain ⟨h, hs⟩ := ih (fun i τ hi => havoids i τ (lt_trans hi (Nat.lt_succ_self _))) hβ
      exact ⟨h.step (havoids _ _ (Nat.lt_succ_self _) hβ) hstep hstepβ, (step_ok hstepβ).2.trans hs⟩

/-- Page faults that are repaired and interrupts are invisible to a program in which the instruction after a load
neither reads the register that is being loaded, but for the merging of `LWL` and `LWR`, nor assigns it other than
by another load. -/
theorem traps_invisible {α α' β β' : UserMachine} {n : ℕ} (hspace : α.space = β.space)
    (hreg : α.registers = β.registers) (hzero : β.registers 0 = 0) (hload : (β.registers loadReg).toNat < 32)
    (hmem : Alike β.space α.memory β.memory)
    (havoids : ∀ i τ, i < n → Undisturbed β i τ → τ.Avoids fun instr => instr.reads ++ instr.writes)
    (hα : Disturbed α n α') (hβ : Undisturbed β n β') :
    (∀ i : Fin NumTotalRegs, i.val < 32 ∨ i = hiReg ∨ i = loReg ∨ i = pcReg ∨ i = nextPCReg →
      delayedLoad 0 0 α'.registers i = delayedLoad 0 0 β'.registers i) ∧
    ∀ page < β'.memory.numPages.getD β.space 0,
      α'.memory.contentsOf β.space page = β'.memory.contentsOf β.space page := by
  have hstart : Together α β := by
    refine ⟨?_, hspace ▸ hmem, hspace⟩
    rw [hreg]
    exact .refl hzero hload
  obtain ⟨h, hs⟩ := hα.together hstart havoids hβ
  refine ⟨fun i hi => h.registers.agree ?_, fun page hp => ?_⟩
  · obtain hi | rfl | rfl | rfl | rfl := hi
    · omega
    all_goals decide
  · have hm := h.memory
    rw [h.space.trans hs] at hm
    exact hm.contents page (hm.numPages ▸ hp)

def onePage (program : List Byte) (valid : Bool) : UserMachine where
  registers := fun i => if i = nextPCReg then 4 else 0
  memory :=
    { start (fun _ j => program.getD j.val 0) with
      mainMemory := fun a => program.getD a.toNat 0
      pageTable :=
        fun x => if x = (0, 0) then ⟨0, 0, valid, false, false, false⟩ else ⟨0, -1, false, false, false, false⟩
      numPages := [1]
      swapSpaceCounter := 1 }
  space := 0

lemma apart_of_one {m : PagedMachine} (h : m.numPages = [1]) : m.Apart 0 := by
  intro p q hp hq _
  have hp' := hp.1
  have hq' := hq.1
  simp only [Mapped, h, List.getD_cons_zero] at hp' hq'
  omega

lemma onePage_alike (program : List Byte) (valid : Bool) :
    Alike 0 (onePage program valid).memory (onePage program true).memory := by
  refine ⟨apart_of_one rfl, apart_of_one rfl, rfl, fun page hp => ?_⟩
  have hp' : page < 1 := hp
  obtain rfl : page = 0 := by omega
  cases valid
  · funext j
    simp [onePage, contentsOf, frame, start]
  · rfl

lemma onePage_consistent (program : List Byte) :
    World.Consistent ⟨(onePage program false).memory, fun _ => none⟩ fun _ a => program.getD a.toNat 0 := by
  have hmap : ∀ {x : EntryPtr}, (onePage program false).memory.Mapped x → x = (0, 0) := fun {x} hx => by
    obtain ⟨a, page⟩ := x
    cases a with
    | zero =>
      obtain rfl : page = 0 := Nat.lt_one_iff.mp hx
      rfl
    | succ a => exact absurd hx (Nat.not_lt_zero _)
  have hres : ∀ {x : EntryPtr}, ¬(onePage program false).memory.Resident x := fun {x} hx => by
    have hv := hx.2
    rw [hmap hx.1] at hv
    cases hv
  constructor
  · exact fun hx hy _ => (hmap hx).trans (hmap hy).symm
  · intro x hx
    rw [hmap hx]
    change (0 : ℤ) < 1
    decide
  · intro x hx
    rw [hmap hx]
    rfl
  · exact fun hx => absurd hx hres
  · exact fun hx => absurd hx hres
  · intro i hi
    refine iff_of_false ?_ fun ⟨y, hy, _⟩ => hres hy
    have hfree : i ∈ (Bitmap.empty NumPhysPages).free := by
      rw [Bitmap.free_empty]
      exact List.mem_range.mpr hi
    rw [show (onePage program false).memory.freeMap = .empty NumPhysPages from rfl, (Bitmap.mem_free.mp hfree).2]
    exact Bool.false_ne_true
  · exact iff_of_false List.not_mem_nil fun hy => hres hy.1
  · exact List.nodup_nil
  · exact fun ht => nomatch ht
  · exact fun ht => nomatch ht
  · exact fun ht => nomatch ht
  · exact fun hx => absurd hx hres
  · intro x hx _ j
    rw [hmap hx]
    change program.getD j.val 0 = program.getD (((0 : ℕ) : ℤ) * 128 + j.val).toNat 0
    congr 1
    omega

lemma Undisturbed.of_two {β₁ : UserMachine} {P : UserMachine → Prop} (h : β.step = .ok β₁) (h₀ : P β) (h₁ : P β₁)
    (i : ℕ) (τ : UserMachine) (hi : i < 2) (hτ : Undisturbed β i τ) : P τ := by
  cases hτ with
  | refl => exact h₀
  | step hτ hstep =>
    cases hτ with
    | refl =>
      cases h.symm.trans hstep
      exact h₁
    | step _ _ => omega

lemma Avoids.of_fetched {touches : Instruction → List (Fin NumTotalRegs)} {σ : UserMachine} {instr : Instruction}
    (h : σ.fetched = some instr) (ha : ∀ i ∈ touches instr, ¬ σ.registers.Pending i) : σ.Avoids touches := by
  intro instr' h'
  cases h.symm.trans h'
  exact ha

def loadThenSet : List Byte := [8, 0, 1, 0x8c, 5, 0, 2, 0x24, 7, 0, 0, 0]

theorem traps_invisible_loadThenSet :
    ∃ α' β', Disturbed (onePage loadThenSet false) 2 α' ∧ Undisturbed (onePage loadThenSet true) 2 β' ∧
      delayedLoad 0 0 β'.registers 1 = 7 ∧ ∀ i : Fin NumTotalRegs,
        i.val < 32 ∨ i = hiReg ∨ i = loReg ∨ i = pcReg ∨ i = nextPCReg →
          delayedLoad 0 0 α'.registers i = delayedLoad 0 0 β'.registers i := by
  obtain ⟨β₁, h₁, hf₁, hl₁, β₂, h₂, hr₂⟩ : ∃ β₁, (onePage loadThenSet true).step = .ok β₁ ∧
      β₁.fetched = some ⟨.addiu, 0, 2, 0, 5⟩ ∧ β₁.registers loadReg = 1 ∧
      ∃ β₂, β₁.step = .ok β₂ ∧ delayedLoad 0 0 β₂.registers 1 = 7 := ⟨_, rfl, rfl, rfl, _, rfl, rfl⟩
  -- the same with a fault before the first instruction, which the handler repairs, and an interrupt after it
  have hmapped : (onePage loadThenSet false).memory.Mapped (0, 0) := Nat.one_pos
  obtain ⟨m, hm, hrepairs⟩ := exists_repair (onePage_consistent loadThenSet) hmapped rfl
  have hfault : Disturbed (onePage loadThenSet false) 0 { onePage loadThenSet false with
      registers := (onePage loadThenSet false).registers.raised 0, memory := m } := .fault .refl rfl hrepairs
  obtain ⟨m', hm', α₁, ha₁, hs₁, hn₁, α₂, ha₂⟩ : ∃ m', (onePage loadThenSet false).memory.pageFault 0 0 = .ok m' ∧
      ∃ α₁, UserMachine.step { onePage loadThenSet false with
        registers := (onePage loadThenSet false).registers.raised 0, memory := m' } = .ok α₁ ∧
      α₁.space = 0 ∧ α₁.memory.numPages = [1] ∧
      ∃ α₂, UserMachine.step { α₁ with registers := delayedLoad 0 0 α₁.registers } = .ok α₂ :=
    ⟨_, rfl, _, rfl, rfl, rfl, _, rfl⟩
  cases hm.symm.trans hm'
  have halike : Repairs α₁.space α₁.memory α₁.memory := by
    rw [hs₁]
    exact ⟨apart_of_one hn₁, apart_of_one hn₁, rfl, fun _ _ => rfl⟩
  have hα := ((hfault.step ha₁).interrupt halike).step ha₂
  have hβ := (Undisturbed.refl.step h₁).step h₂
  have havoids := Undisturbed.of_two (P := Avoids fun instr => instr.reads ++ instr.writes) h₁ ?_ ?_
  · have hspace : (onePage loadThenSet false).space = (onePage loadThenSet true).space := rfl
    have hreg : (onePage loadThenSet false).registers = (onePage loadThenSet true).registers := rfl
    obtain ⟨hsame, -⟩ :=
      traps_invisible hspace hreg rfl (by decide) (onePage_alike loadThenSet false) havoids hα hβ
    exact ⟨α₂, β₂, hα, hβ, hr₂, hsame⟩
  · refine .of_fetched rfl fun i _ hp => hp.1 rfl
  · refine .of_fetched hf₁ fun i hi hp => ?_
    have hpend := hp.2
    rw [hl₁] at hpend
    obtain rfl | rfl : i = 0 ∨ i = ⟨2, by decide⟩ := by
      simpa [Instruction.reads, Instruction.writes, general] using hi
    · cases hpend
    · cases hpend

def loadThenOverwrite : List Byte := [8, 0, 1, 0x8c, 5, 0, 1, 0x24, 7, 0, 0, 0]

/-- No instruction reads the register that is being loaded, but one assigns it: without an interrupt the load is
the last to assign it, with an interrupt in between it is not. -/
theorem traps_visible_loadThenOverwrite :
    ∃ β α' β' : UserMachine, β.registers 0 = 0 ∧ (β.registers loadReg).toNat < 32 ∧
    Alike β.space β.memory β.memory ∧
      (∀ i τ, i < 2 → Undisturbed β i τ → τ.Avoids Instruction.reads) ∧ Disturbed β 2 α' ∧ Undisturbed β 2 β' ∧
      delayedLoad 0 0 α'.registers 1 = 5 ∧ delayedLoad 0 0 β'.registers 1 = 7 := by
  obtain ⟨β₁, h₁, hf₁, hl₁, hs₁, hn₁, β₂, h₂, hr₂, α₂, ha₂, hra₂⟩ :
      ∃ β₁, (onePage loadThenOverwrite true).step = .ok β₁ ∧
      β₁.fetched = some ⟨.addiu, 0, 1, 0, 5⟩ ∧ β₁.registers loadReg = 1 ∧ β₁.space = 0 ∧ β₁.memory.numPages = [1] ∧
      ∃ β₂, β₁.step = .ok β₂ ∧ delayedLoad 0 0 β₂.registers 1 = 7 ∧
      ∃ α₂, UserMachine.step { β₁ with registers := delayedLoad 0 0 β₁.registers } = .ok α₂ ∧
        delayedLoad 0 0 α₂.registers 1 = 5 := ⟨_, rfl, rfl, rfl, rfl, rfl, _, rfl, rfl, _, rfl, rfl⟩
  have halike : Repairs β₁.space β₁.memory β₁.memory := by
    rw [hs₁]
    exact ⟨apart_of_one hn₁, apart_of_one hn₁, rfl, fun _ _ => rfl⟩
  refine ⟨onePage loadThenOverwrite true, α₂, β₂, rfl, by decide, onePage_alike loadThenOverwrite true,
    Undisturbed.of_two (P := Avoids Instruction.reads) h₁ ?_ ?_,
    ((Disturbed.refl.step h₁).interrupt halike).step ha₂, (Undisturbed.refl.step h₁).step h₂, hra₂, hr₂⟩
  · exact .of_fetched rfl fun i _ hp => hp.1 rfl
  · refine .of_fetched hf₁ fun i hi hp => ?_
    have hpend := hp.2
    rw [hl₁] at hpend
    obtain rfl : i = 0 := by simpa [Instruction.reads, general] using hi
    cases hpend

end UserMachine

end NachosFileSys
