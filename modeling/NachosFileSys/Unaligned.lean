import NachosFileSys.Alu
import NachosFileSys.Traps
import NachosFileSys.PageTables

namespace NachosFileSys

open Lib.Bytes Lib.Programs Registers PagedMachine

section Merges

/-! The operations of the merges, byte by byte. -/

variable (v w : Word) (c : ℕ)

lemma byteOf_or : byteOf (v ||| w) c = byteOf v c ||| byteOf w c := BitVec.extractLsb'_or

lemma byteOf_and : byteOf (v &&& w) c = byteOf v c &&& byteOf w c := BitVec.extractLsb'_and

lemma byteOf_shiftLeft (j : ℕ) (hc : c < 4) :
    byteOf (w <<< (8 * j)) c = if c < j then 0 else byteOf w (c - j) := by
  apply BitVec.eq_of_getLsbD_eq
  intro i hi
  simp only [byteOf, BitVec.getLsbD_extractLsb', BitVec.getLsbD_shiftLeft]
  by_cases h : c < j
  · have hlow : 8 * c + i < 8 * j := by omega
    simp [h, hlow]
  · have hlow : ¬8 * c + i < 8 * j := by omega
    have hword : 8 * c + i < 32 := by omega
    have hsub : 8 * c + i - 8 * j = 8 * (c - j) + i := by omega
    simp [h, hlow, hword, hi, hsub]

lemma byteOf_sshiftRight (j : ℕ) (hc : c + j < 4) : byteOf (w.sshiftRight (8 * j)) c = byteOf w (c + j) := by
  apply BitVec.eq_of_getLsbD_eq
  intro i hi
  have hword : ¬32 ≤ 8 * c + i := by omega
  have hadd : 8 * j + (8 * c + i) = 8 * (c + j) + i := by omega
  have hin : 8 * (c + j) + i < 32 := by omega
  simp [byteOf, BitVec.getLsbD_sshiftRight, hword, hadd, hin]

lemma byteOf_ofNat (n : ℕ) : byteOf (BitVec.ofNat 32 n) c = BitVec.ofNat 8 (n % 2 ^ 32 / 2 ^ (8 * c)) := by
  apply BitVec.eq_of_toNat_eq
  simp [byteOf, Nat.shiftRight_eq_div_pow]

lemma and_ones (b : Byte) : b &&& 255#8 = b := BitVec.and_allOnes

variable {v w c} {k : ℕ}

lemma byteOf_mergeLeft (hk : k < 4) (hc : c < 4) :
    byteOf (mergeLeft v w k) c = if c < k then byteOf v c else byteOf w (c - k) := by
  have h₁ := byteOf_shiftLeft w c 1 hc
  have h₂ := byteOf_shiftLeft w c 2 hc
  have h₃ := byteOf_shiftLeft w c 3 hc
  interval_cases k <;> interval_cases c <;> simp_all [mergeLeft, byteOf_or, byteOf_and, byteOf_ofNat, and_ones]

lemma byteOf_storeRight (hk : k < 4) (hc : c < 4) :
    byteOf (storeRight v w k) c = if c + k < 3 then byteOf v c else byteOf w (c - (3 - k)) := by
  have h₁ := byteOf_shiftLeft w c 1 hc
  have h₂ := byteOf_shiftLeft w c 2 hc
  have h₃ := byteOf_shiftLeft w c 3 hc
  interval_cases k <;> interval_cases c <;> simp_all [storeRight, byteOf_or, byteOf_and, byteOf_ofNat, and_ones]

lemma byteOf_mergeRight (hk : k < 4) (hc : c < 4) :
    byteOf (mergeRight v w k) c = if c ≤ k then byteOf w (c + (3 - k)) else byteOf v c := by
  have h₁ := byteOf_sshiftRight w c 1
  have h₂ := byteOf_sshiftRight w c 2
  have h₃ := byteOf_sshiftRight w c 3
  interval_cases k <;> interval_cases c <;> simp_all [mergeRight, byteOf_or, byteOf_and, byteOf_ofNat, and_ones]

lemma byteOf_storeLeft (hk : k < 4) (hc : c < 4) :
    byteOf (storeLeft v w k) c = if c + k < 4 then byteOf w (c + k) else byteOf v c := by
  have h₁ := byteOf_sshiftRight w c 1
  have h₂ := byteOf_sshiftRight w c 2
  have h₃ := byteOf_sshiftRight w c 3
  interval_cases k <;> interval_cases c <;> simp_all [storeLeft, byteOf_or, byteOf_and, byteOf_ofNat, and_ones]

end Merges

namespace PagedMachine

def entryAt (m : PagedMachine) (space : ℕ) (addr : Word) : TranslationEntry :=
  m.pageTable (space, addr.toNat / 128)

def addressOf (m : PagedMachine) (space : ℕ) (addr : Word) : ℤ :=
  (m.entryAt space addr).physicalPage * 128 + (addr.toNat % 128 : ℕ)

def byteAt (m : PagedMachine) (space : ℕ) (addr : Word) : Byte := m.mainMemory (m.addressOf space addr)

structure Writable (m : PagedMachine) (space : ℕ) (addr : Word) : Prop where
  resident : m.Resident (space, addr.toNat / 128)
  readOnly : (m.entryAt space addr).readOnly = false
  nonneg : 0 ≤ (m.entryAt space addr).physicalPage
  lt : (m.entryAt space addr).physicalPage < NumPhysPages

variable {m m' m'' : PagedMachine} {space : ℕ} {addr x : Word} {writing : Bool}

lemma SameTables.addressOf (h : SameTables m m') (addr : Word) :
    m'.addressOf space addr = m.addressOf space addr := by
  rw [PagedMachine.addressOf, entryAt, h.physicalPage]
  rfl

lemma SameTables.writable (h : SameTables m m') (hw : m.Writable space addr) : m'.Writable space addr := by
  refine ⟨⟨?_, (h.valid _).trans hw.resident.2⟩, (h.readOnly _).trans hw.readOnly, ?_, ?_⟩
  · rw [Mapped, h.numPages]
    exact hw.resident.1
  · rw [entryAt, h.physicalPage]
    exact hw.nonneg
  · rw [entryAt, h.physicalPage]
    exact hw.lt

lemma translate_writable (hw : m.Writable space addr) (hal : addr.toNat % 4 = 0) (writing : Bool) :
    ∃ m', m.translate space addr.toInt 4 writing = .ok (m.addressOf space addr, m') ∧ SameTables m m' ∧
      m'.mainMemory = m.mainMemory := by
  have hmod := toInt_emod addr
  have hpage : ((addr.toNat : ℤ) / 128).toNat = addr.toNat / 128 := by omega
  have hok : m.translate space addr.toInt 4 writing = .ok (m.addressOf space addr,
      m.setEntry (space, addr.toNat / 128) { m.entryAt space addr with
        use := true, dirty := (m.entryAt space addr).dirty || writing }) := by
    rw [translate, hmod]
    dsimp only
    rw [hpage, if_neg (by omega), if_neg (not_le.mpr hw.resident.1), if_neg (by simp [hw.resident.2]),
      if_neg (by simpa [entryAt] using fun h => absurd (h.symm.trans hw.readOnly) (by simp)),
      if_neg (by have := hw.nonneg; have := hw.lt; rw [entryAt] at *; omega)]
    rfl
  exact ⟨_, hok, sameTables_setEntry m _ _ _, rfl⟩

def wordBase (addr : Word) : Word := addr - (addr &&& 3)

lemma toNat_and_three (addr : Word) : (addr &&& 3).toNat = addr.toNat % 4 := by
  rw [BitVec.toNat_and]
  exact Nat.and_two_pow_sub_one_eq_mod _ 2

lemma toNat_wordBase (addr : Word) : (wordBase addr).toNat = addr.toNat - addr.toNat % 4 := by
  have hle : addr &&& 3 ≤ addr := by
    rw [BitVec.le_def, toNat_and_three]
    exact Nat.mod_le _ _
  rw [wordBase, BitVec.toNat_sub_of_le hle, toNat_and_three]

lemma addressOf_of_word {j : ℕ} (hx : x.toNat = (wordBase addr).toNat + j) (hj : j < 4) :
    m.addressOf space x = m.addressOf space (wordBase addr) + j := by
  have hbase := toNat_wordBase addr
  have hpage : x.toNat / 128 = (wordBase addr).toNat / 128 := by omega
  rw [addressOf, addressOf, entryAt, entryAt, hpage]
  push_cast
  omega

lemma Writable.wordBase (hw : m.Writable space addr) : m.Writable space (PagedMachine.wordBase addr) := by
  have hbase := toNat_wordBase addr
  have hpage : (PagedMachine.wordBase addr).toNat / 128 = addr.toNat / 128 := by omega
  have hentry : m.entryAt space (PagedMachine.wordBase addr) = m.entryAt space addr := by
    rw [entryAt, entryAt, hpage]
  refine ⟨?_, ?_, ?_, ?_⟩
  · rw [hpage]
    exact hw.resident
  · rw [hentry]
    exact hw.readOnly
  · rw [hentry]
    exact hw.nonneg
  · rw [hentry]
    exact hw.lt

lemma respond_readWord (hw : m.Writable space addr) : ∃ m',
    respond space (.readMem (wordBase addr) 4) m =
      .ok (wordOf fun j => m.mainMemory (m.addressOf space (wordBase addr) + j), m') ∧
    SameTables m m' ∧ m'.mainMemory = m.mainMemory := by
  have hal : (wordBase addr).toNat % 4 = 0 := by
    rw [toNat_wordBase]
    omega
  obtain ⟨m', ht, hsame, hmem⟩ := translate_writable hw.wordBase hal false
  refine ⟨m', ?_, hsame, hmem⟩
  rw [respond, ht]
  dsimp only
  rw [hmem, fetchData, if_neg (by norm_num), if_neg (by norm_num), if_pos rfl]
  dsimp only
  rw [BitVec.ofInt_toInt]

lemma respond_writeWord (hw : m.Writable space addr) (value : Word) : ∃ m',
    respond space (.writeMem (wordBase addr) 4 value) m = .ok ((), m') ∧ SameTables m m' ∧
      m'.mainMemory = stored m.mainMemory (m.addressOf space (wordBase addr)) 4 value.toInt := by
  have hal : (wordBase addr).toNat % 4 = 0 := by
    rw [toNat_wordBase]
    omega
  obtain ⟨m', ht, hsame, hmem⟩ := translate_writable hw.wordBase hal true
  refine ⟨{ m' with mainMemory := stored m.mainMemory (m.addressOf space (wordBase addr)) 4 value.toInt }, ?_,
    ⟨hsame.numPages, hsame.valid, hsame.physicalPage, hsame.readOnly⟩, rfl⟩
  rw [respond, ht]
  dsimp only
  rw [storeData_ok (.inr (.inr rfl)), hmem]

end PagedMachine

namespace UserMachine

def NextIs (op : OpCode) (t : BitVec 5) (addr : Word) (σ : UserMachine) : Prop :=
  ∃ instr, σ.fetched = some instr ∧ instr.opCode = op ∧ instr.rt = t ∧
      σ.registers (general instr.rs) + instr.extra = addr

def Completes (P : UserMachine → Prop) : List (OpCode × BitVec 5 × Word) → UserMachine → Prop
  | [], σ => P σ
  | (op, t, addr) :: rest, σ => σ.NextIs op t addr → ∃ σ', σ.step = .ok σ' ∧ Completes P rest σ'

variable {σ σ' : UserMachine} {t : BitVec 5} {addr : Word} {instr : Instruction}

lemma step_of_fetched (h : σ.fetched = some instr) :
    ∃ m, SameTables σ.memory m ∧ m.mainMemory = σ.memory.mainMemory ∧
    ∀ e m', (instr.execute σ.registers).run (respond σ.space) m = .ok (e, m') →
      σ.step = .ok { σ with registers := e.advance, memory := m' } := by
  rw [fetched] at h
  split at h
  · rename_i raw m hfetch
    cases h
    obtain ⟨physicalAddress, data, hloc, -, -⟩ := respond_readMem_ok hfetch
    refine ⟨m, ?_, hloc.memory, fun e m' he => ?_⟩
    · rw [respond] at hfetch
      split at hfetch
      · cases hfetch
      · rename_i ht
        split at hfetch
        · cases hfetch
        · cases hfetch
          exact sameTables_of_translate ht
    · have hrun : (oneInstruction σ.registers).run (respond σ.space) σ.memory = .ok (e.advance, m') := by
        rw [oneInstruction, Prog.run_bind_ok]
        refine ⟨raw, m, (Prog.run_send _ _ _).trans hfetch, ?_⟩
        rw [Prog.run_bind_ok]
        exact ⟨e, m', he, rfl⟩
      rw [step, hrun]
  · cases h

structure Loads (σ : UserMachine) (t : BitVec 5) (value : Word) (σ' : UserMachine) : Prop where
  space : σ'.space = σ.space
  tables : SameTables σ.memory σ'.memory
  memory : σ'.memory.mainMemory = σ.memory.mainMemory
  loadReg : σ'.registers loadReg = t.setWidth 32
  loadValueReg : σ'.registers loadValueReg = value

lemma advance_loadReg (e : Executed) : e.advance loadReg = e.nextLoadReg := by
  rw [Executed.advance, set_of_ne _ (by decide), set_of_ne _ (by decide),
      set_of_ne _ (by decide), delayedLoad_loadReg]

lemma advance_loadValueReg (e : Executed) : e.advance loadValueReg = e.nextLoadValue := by
  rw [Executed.advance, set_of_ne _ (by decide), set_of_ne _ (by decide),
      set_of_ne _ (by decide), delayedLoad_loadValueReg]

lemma place_eq (addr : Word) : (3 - (addr &&& 3)).toNat = 3 - addr.toNat % 4 := by
  have hle : addr &&& 3 ≤ 3 := by
    rw [BitVec.le_def, toNat_and_three]
    exact Nat.le_of_lt_succ (Nat.mod_lt _ (by decide))
  rw [BitVec.toNat_sub_of_le hle, toNat_and_three]
  rfl

lemma step_load {op : OpCode} (merge : Word → Word → ℕ → Word) (h : σ.NextIs op t addr)
    (hw : σ.memory.Writable σ.space addr)
    (hexec : ∀ instr : Instruction, instr.opCode = op → instr.execute σ.registers =
      Exec.readMem
      (σ.registers (general instr.rs) + instr.extra - (σ.registers (general instr.rs) + instr.extra &&& 3)) 4 >>=
        fun value => Instruction.load σ.registers instr.rt (merge (mergeBase σ.registers instr.rt) value
          (3 - (σ.registers (general instr.rs) + instr.extra &&& 3)).toNat) (σ.registers nextPCReg + 4)) :
    ∃ σ', σ.step = .ok σ' ∧ Loads σ t (merge (mergeBase σ.registers t)
      (wordOf fun j => σ.memory.mainMemory (σ.memory.addressOf σ.space (wordBase addr) + j))
      (3 - addr.toNat % 4)) σ' := by
  obtain ⟨instr, hfetch, hop, rfl, rfl⟩ := h
  obtain ⟨m, hsame, hmem, hstep⟩ := step_of_fetched hfetch
  obtain ⟨m', hread, hsame', hmem'⟩ := respond_readWord (hsame.writable hw)
  rw [hsame.addressOf, hmem] at hread
  obtain ⟨e, hrun, hreg, hvalue⟩ : ∃ e, (instr.execute σ.registers).run (respond σ.space) m = .ok (e, m') ∧
      e.nextLoadReg = instr.rt.setWidth 32 ∧ e.nextLoadValue = merge (mergeBase σ.registers instr.rt)
        (wordOf fun j => σ.memory.mainMemory (σ.memory.addressOf σ.space
          (wordBase (σ.registers (general instr.rs) + instr.extra)) + j))
        (3 - (σ.registers (general instr.rs) + instr.extra).toNat % 4) := by
    rw [hexec instr hop]
    refine ⟨_, (Prog.run_bind_ok _).mpr ⟨_, m', (Prog.run_send _ _ _).trans hread, rfl⟩, rfl, ?_⟩
    dsimp only
    rw [place_eq]
  refine ⟨_, hstep e m' hrun, rfl, hsame.trans hsame', hmem'.trans hmem, ?_, ?_⟩
  · exact (advance_loadReg e).trans hreg
  · exact (advance_loadValueReg e).trans hvalue

lemma step_lwr {a : Word} (h : σ.NextIs .lwr t a) (hw : σ.memory.Writable σ.space a) :
    ∃ σ' value, σ.step = .ok σ' ∧ Loads σ t value σ' ∧ ∀ c < 4, byteOf value c =
      if c + a.toNat % 4 < 4 then σ.memory.byteAt σ.space (a + BitVec.ofNat 32 c) else
      byteOf (mergeBase σ.registers t) c := by
  obtain ⟨σ', hstep, hloads⟩ := step_load mergeRight h hw fun instr hop => by
    rw [Instruction.execute, hop]
  refine ⟨σ', _, hstep, hloads, fun c hc => ?_⟩
  rw [byteOf_mergeRight (by omega) hc]
  have hbase := toNat_wordBase a
  by_cases hin : c + a.toNat % 4 < 4
  · have hj : c + (3 - (3 - a.toNat % 4)) = c + a.toNat % 4 := by omega
    have hx : (a + BitVec.ofNat 32 c).toNat = (wordBase a).toNat + (c + a.toNat % 4) := by
      have hlt := a.isLt
      rw [BitVec.toNat_add, BitVec.toNat_ofNat]
      omega
    rw [if_pos (by omega), if_pos hin, hj, byteOf_wordOf _ _ hin, byteAt, addressOf_of_word hx hin]
  · rw [if_neg (by omega), if_neg hin]

lemma step_lwl {a : Word} (h : σ.NextIs .lwl t (a + 3)) (hw : σ.memory.Writable σ.space (a + 3)) :
    ∃ σ' value, σ.step = .ok σ' ∧ Loads σ t value σ' ∧ ∀ c < 4, byteOf value c =
      if 3 ≤ c + (a + 3).toNat % 4 then σ.memory.byteAt σ.space (a + BitVec.ofNat 32 c) else
      byteOf (mergeBase σ.registers t) c := by
  obtain ⟨σ', hstep, hloads⟩ := step_load mergeLeft h hw fun instr hop => by
    rw [Instruction.execute, hop]
  refine ⟨σ', _, hstep, hloads, fun c hc => ?_⟩
  rw [byteOf_mergeLeft (by omega) hc]
  have hbase := toNat_wordBase (a + 3)
  by_cases hin : 3 ≤ c + (a + 3).toNat % 4
  · have hj : c - (3 - (a + 3).toNat % 4) < 4 := by omega
    have hx : (a + BitVec.ofNat 32 c).toNat = (wordBase (a + 3)).toNat + (c - (3 - (a + 3).toNat % 4)) := by
      have hlt := a.isLt
      have h3 : (a + 3).toNat = (a.toNat + 3) % 2 ^ 32 := BitVec.toNat_add a 3
      rw [BitVec.toNat_add, BitVec.toNat_ofNat]
      omega
    rw [if_neg (by omega), if_pos hin, byteOf_wordOf _ _ hj, byteAt, addressOf_of_word hx hj]
  · rw [if_pos (by omega), if_neg hin]

lemma general_ne_zero (ht : t ≠ 0) : general t ≠ 0 := by
  intro h
  have hval : (general t).val = (0 : Fin NumTotalRegs).val := by rw [h]
  exact ht (BitVec.eq_of_toNat_eq hval)

lemma eq_wordOf {w : Word} {b : ℕ → Byte} (h : ∀ c < 4, byteOf w c = b c) : w = wordOf b := by
  rw [← wordOf_byteOf w, wordOf, wordOf, h 0 (by decide), h 1 (by decide), h 2 (by decide), h 3 (by decide)]

lemma Loads.byteAt {value : Word} (h : σ.Loads t value σ') (x : Word) :
    σ'.memory.byteAt σ'.space x = σ.memory.byteAt σ.space x := by
  rw [PagedMachine.byteAt, h.memory, h.space, h.tables.addressOf]
  rfl

lemma Loads.mergeBase {value : Word} (h : σ.Loads t value σ') :
    NachosFileSys.mergeBase σ'.registers t = value := by
  rw [NachosFileSys.mergeBase, h.loadReg, if_pos rfl, h.loadValueReg]

lemma Loads.writable {value : Word} (h : σ.Loads t value σ') {x : Word} (hw : σ.memory.Writable σ.space x) :
    σ'.memory.Writable σ'.space x := by
  rw [h.space]
  exact h.tables.writable hw

/-- The word at `a` is pending, and has been loaded once that load is done. -/
def Loaded (σ : UserMachine) (t : BitVec 5) (a : Word) (σ' : UserMachine) : Prop :=
  delayedLoad 0 0 σ'.registers (general t) = wordOf (fun c => σ.memory.byteAt σ.space (a + BitVec.ofNat 32 c)) ∧
    σ'.memory.mainMemory = σ.memory.mainMemory

lemma Loads.loaded {σ₁ σ₂ : UserMachine} {v₁ v₂ a : Word} (h₁ : σ.Loads t v₁ σ₁)
    (h₂ : σ₁.Loads t v₂ σ₂) (ht : t ≠ 0)
    (hv : ∀ c < 4, byteOf v₂ c = σ.memory.byteAt σ.space (a + BitVec.ofNat 32 c)) : σ.Loaded t a σ₂ := by
  refine ⟨?_, h₂.memory.trans h₁.memory⟩
  have hzero : general t ≠ 0 := general_ne_zero ht
  have hlt : (general t).val < 37 := lt_trans (general_isLt t) (by norm_num)
  have hpending : (general t).val = (σ₂.registers Registers.loadReg).toNat := by
    rw [h₂.loadReg, toNat_setWidth]
    rfl
  rw [delayedLoad_of_lt _ _ _ hlt, if_neg hzero, if_pos hpending, h₂.loadValueReg]
  exact eq_wordOf hv

lemma completes_loads {a : Word} (ht : t ≠ 0) (hw : σ.memory.Writable σ.space a)
    (hw' : σ.memory.Writable σ.space (a + 3)) :
    Completes (σ.Loaded t a) [(.lwr, t, a), (.lwl, t, a + 3)] σ ∧
      Completes (σ.Loaded t a) [(.lwl, t, a + 3), (.lwr, t, a)] σ := by
  have h3 : (a + 3).toNat = (a.toNat + 3) % 2 ^ 32 := BitVec.toNat_add a 3
  constructor
  · intro h
    obtain ⟨σ₁, v₁, hstep₁, h₁, hv₁⟩ := step_lwr h hw
    refine ⟨σ₁, hstep₁, fun h => ?_⟩
    obtain ⟨σ₂, v₂, hstep₂, h₂, hv₂⟩ := step_lwl h (h₁.writable hw')
    refine ⟨σ₂, hstep₂, h₁.loaded h₂ ht fun c hc => ?_⟩
    rw [hv₂ c hc, h₁.mergeBase, h₁.byteAt, hv₁ c hc]
    split_ifs
    · rfl
    · rfl
    · omega
  · intro h
    obtain ⟨σ₁, v₁, hstep₁, h₁, hv₁⟩ := step_lwl h hw'
    refine ⟨σ₁, hstep₁, fun h => ?_⟩
    obtain ⟨σ₂, v₂, hstep₂, h₂, hv₂⟩ := step_lwr h (h₁.writable hw)
    refine ⟨σ₂, hstep₂, h₁.loaded h₂ ht fun c hc => ?_⟩
    rw [hv₂ c hc, h₁.mergeBase, h₁.byteAt, hv₁ c hc]
    split_ifs
    · rfl
    · rfl
    · omega

structure Stores (σ : UserMachine) (a value : Word) (P : ℕ → Prop) (σ' : UserMachine) : Prop where
  space : σ'.space = σ.space
  tables : SameTables σ.memory σ'.memory
  written : ∀ c < 4, P c → σ'.memory.mainMemory (σ.memory.addressOf σ.space (a + BitVec.ofNat 32 c)) =
      byteOf value c
  kept : ∀ x, (∀ c < 4, P c → x ≠ σ.memory.addressOf σ.space (a + BitVec.ofNat 32 c)) →
    σ'.memory.mainMemory x = σ.memory.mainMemory x

lemma step_store {op : OpCode} (merge : Word → Word → ℕ → Word) (h : σ.NextIs op t addr)
    (hw : σ.memory.Writable σ.space addr)
    (hexec : ∀ instr : Instruction, instr.opCode = op → instr.execute σ.registers =
      Exec.readMem
      (σ.registers (general instr.rs) + instr.extra - (σ.registers (general instr.rs) + instr.extra &&& 3)) 4 >>=
        fun value => Exec.writeMem
          (σ.registers (general instr.rs) + instr.extra - (σ.registers (general instr.rs) + instr.extra &&& 3)) 4
          (merge value (σ.registers (general instr.rt))
          (3 - (σ.registers (general instr.rs) + instr.extra &&& 3)).toNat) >>=
            fun _ => Instruction.finish σ.registers (σ.registers nextPCReg + 4)) :
    ∃ σ', σ.step = .ok σ' ∧ σ'.space = σ.space ∧ SameTables σ.memory σ'.memory ∧
      σ'.memory.mainMemory = stored σ.memory.mainMemory (σ.memory.addressOf σ.space (wordBase addr)) 4
        (merge (wordOf fun j => σ.memory.mainMemory (σ.memory.addressOf σ.space (wordBase addr) + j))
          (σ.registers (general t)) (3 - addr.toNat % 4)).toInt ∧
      (¬σ.registers.LoadPending (general t) → t ≠ 0 → σ'.registers (general t) = σ.registers (general t)) := by
  obtain ⟨instr, hfetch, hop, rfl, rfl⟩ := h
  obtain ⟨m, hsame, hmem, hstep⟩ := step_of_fetched hfetch
  obtain ⟨m', hread, hsame', hmem'⟩ := respond_readWord (hsame.writable hw)
  have hw' := (hsame.trans hsame').writable hw
  obtain ⟨m'', hwrite, hsame'', hmem''⟩ := respond_writeWord hw' (merge
    (wordOf fun j => m.mainMemory
    (m.addressOf σ.space (wordBase (σ.registers (general instr.rs) + instr.extra)) + j))
    (σ.registers (general instr.rt)) (3 - (σ.registers (general instr.rs) + instr.extra).toNat % 4))
  have hrun : (instr.execute σ.registers).run (respond σ.space) m =
      .ok (⟨σ.registers, 0, 0, σ.registers nextPCReg + 4⟩, m'') := by
    rw [hexec instr hop, Prog.run_bind_ok]
    refine ⟨_, m', (Prog.run_send _ _ _).trans hread, ?_⟩
    rw [Prog.run_bind_ok]
    refine ⟨(), m'', ?_, rfl⟩
    rw [place_eq]
    exact (Prog.run_send _ _ _).trans hwrite
  refine ⟨_, hstep _ m'' hrun, rfl, (hsame.trans hsame').trans hsame'', ?_, fun hp ht => ?_⟩
  · dsimp only
    rw [hmem'', hmem', hmem, (hsame.trans hsame').addressOf, hsame.addressOf]
  · dsimp only
    rw [Executed.advance_of_lt _ (lt_trans (general_isLt _) (by norm_num)) (general_ne_zero ht)]
    exact if_neg hp

lemma step_swr {a : Word} (h : σ.NextIs .swr t a) (hw : σ.memory.Writable σ.space a) :
    ∃ σ', σ.step = .ok σ' ∧ Stores σ a (σ.registers (general t)) (fun c => c + a.toNat % 4 < 4) σ' ∧
      (¬σ.registers.LoadPending (general t) → t ≠ 0 → σ'.registers (general t) = σ.registers (general t)) := by
  obtain ⟨σ', hstep, hspace, htables, hmem, hreg⟩ := step_store storeRight h hw fun instr hop => by
    rw [Instruction.execute, hop]
  have hbase := toNat_wordBase a
  have hlt := a.isLt
  refine ⟨σ', hstep, ⟨hspace, htables, fun c hc hP => ?_, fun x hx => ?_⟩, hreg⟩
  · have hx : (a + BitVec.ofNat 32 c).toNat = (wordBase a).toNat + (c + a.toNat % 4) := by
      rw [BitVec.toNat_add, BitVec.toNat_ofNat]
      omega
    have hj : c + a.toNat % 4 - (3 - (3 - a.toNat % 4)) = c := by omega
    rw [hmem, addressOf_of_word hx hP, stored, if_pos (by omega),
      BitVec.ofInt_toInt, add_sub_cancel_left, Int.toNat_natCast,
      byteOf_storeRight (by omega) hP, if_neg (by omega), hj]
  · rw [hmem, stored]
    split_ifs with hin
    · obtain ⟨j, hj⟩ := Int.eq_ofNat_of_zero_le (sub_nonneg.mpr hin.1)
      have hj4 : j < 4 := by omega
      have hxj : x = σ.memory.addressOf σ.space (wordBase a) + j := by omega
      by_cases hlow : j < a.toNat % 4
      · rw [hj, Int.toNat_natCast, BitVec.ofInt_toInt, byteOf_storeRight (by omega) hj4,
          if_pos (by omega), byteOf_wordOf _ _ hj4,
          hxj]
      · refine absurd ?_ (hx (j - a.toNat % 4) (by omega) (by omega))
        have hpos : (a + BitVec.ofNat 32 (j - a.toNat % 4)).toNat = (wordBase a).toNat + j := by
          rw [BitVec.toNat_add, BitVec.toNat_ofNat]
          omega
        rw [addressOf_of_word hpos hj4, hxj]
    · rfl

lemma step_swl {a : Word} (h : σ.NextIs .swl t (a + 3)) (hw : σ.memory.Writable σ.space (a + 3)) :
    ∃ σ', σ.step = .ok σ' ∧ Stores σ a (σ.registers (general t)) (fun c => 3 ≤ c + (a + 3).toNat % 4) σ' ∧
      (¬σ.registers.LoadPending (general t) → t ≠ 0 → σ'.registers (general t) = σ.registers (general t)) := by
  obtain ⟨σ', hstep, hspace, htables, hmem, hreg⟩ := step_store storeLeft h hw fun instr hop => by
    rw [Instruction.execute, hop]
  have hbase := toNat_wordBase (a + 3)
  have hlt := a.isLt
  have h3 : (a + 3).toNat = (a.toNat + 3) % 2 ^ 32 := BitVec.toNat_add a 3
  -- where byte `c` is in the word
  have hpos {c : ℕ} (hc : c < 4) (hP : 3 ≤ c + (a + 3).toNat % 4) :
      (a + BitVec.ofNat 32 c).toNat = (wordBase (a + 3)).toNat + (c - (3 - (a + 3).toNat % 4)) := by
    rw [BitVec.toNat_add, BitVec.toNat_ofNat]
    omega
  refine ⟨σ', hstep, ⟨hspace, htables, fun c hc hP => ?_, fun x hx => ?_⟩, hreg⟩
  · have hj : c - (3 - (a + 3).toNat % 4) + (3 - (a + 3).toNat % 4) = c := by omega
    have hj4 : c - (3 - (a + 3).toNat % 4) < 4 := by omega
    rw [hmem, addressOf_of_word (hpos hc hP) hj4, stored, if_pos (by omega),
      BitVec.ofInt_toInt, add_sub_cancel_left,
      Int.toNat_natCast, byteOf_storeLeft (by omega) hj4, if_pos (by omega), hj]
  · rw [hmem, stored]
    split_ifs with hin
    · obtain ⟨j, hj⟩ := Int.eq_ofNat_of_zero_le (sub_nonneg.mpr hin.1)
      have hj4 : j < 4 := by omega
      have hxj : x = σ.memory.addressOf σ.space (wordBase (a + 3)) + j := by omega
      by_cases hhigh : 4 ≤ j + (3 - (a + 3).toNat % 4)
      · rw [hj, Int.toNat_natCast, BitVec.ofInt_toInt, byteOf_storeLeft (by omega) hj4,
          if_neg (by omega), byteOf_wordOf _ _ hj4,
          hxj]
      · have hc : j + (3 - (a + 3).toNat % 4) < 4 := by omega
        refine absurd ?_ (hx (j + (3 - (a + 3).toNat % 4)) hc (by omega))
        have hback : j + (3 - (a + 3).toNat % 4) - (3 - (a + 3).toNat % 4) = j := by omega
        have hbyte := hpos hc (by omega)
        rw [hback] at hbyte
        rw [addressOf_of_word hbyte hj4, hxj]
    · rfl

lemma addressOf_injective {m : PagedMachine} {space : ℕ} {a : Word} {c c' : ℕ} (hc : c < 4) (hc' : c' < 4)
    (h : m.addressOf space (a + BitVec.ofNat 32 c) = m.addressOf space (a + BitVec.ofNat 32 c')) : c = c' := by
  have hlt := a.isLt
  rw [addressOf, addressOf, BitVec.toNat_add, BitVec.toNat_add, BitVec.toNat_ofNat, BitVec.toNat_ofNat] at h
  omega

lemma Stores.both {σ₁ σ₂ : UserMachine} {a value : Word} {P Q : ℕ → Prop} (h₁ : σ.Stores a value P σ₁)
    (h₂ : σ₁.Stores a value Q σ₂) (hPQ : ∀ c < 4, P c ∨ Q c) :
    σ.Stores a value (fun _ => True) σ₂ := by
  have haddr (c : ℕ) : σ₁.memory.addressOf σ₁.space (a + BitVec.ofNat 32 c) =
      σ.memory.addressOf σ.space (a + BitVec.ofNat 32 c) := by
    rw [h₁.space, h₁.tables.addressOf]
  refine ⟨h₂.space.trans h₁.space, h₁.tables.trans h₂.tables, fun c hc _ => ?_, fun x hx => ?_⟩
  · by_cases hQ : Q c
    · rw [← haddr, h₂.written c hc hQ]
    · rw [h₂.kept]
      · exact h₁.written c hc ((hPQ c hc).resolve_right hQ)
      · intro c' hc' hQ' heq
        rw [haddr] at heq
        rw [addressOf_injective hc hc' heq] at hQ
        exact hQ hQ'
  · rw [h₂.kept, h₁.kept]
    · exact fun c hc _ => hx c hc trivial
    · intro c hc _
      rw [haddr]
      exact hx c hc trivial

lemma Completes.mono {P Q : UserMachine → Prop} (hPQ : ∀ σ, P σ → Q σ) (l : List (OpCode × BitVec 5 × Word)) :
    ∀ {σ}, Completes P l σ → Completes Q l σ := by
  induction l with
  | nil => exact fun h => hPQ _ h
  | cons x l ih =>
    intro σ h hnext
    obtain ⟨σ', hstep, h'⟩ := h hnext
    exact ⟨σ', hstep, ih h'⟩

lemma Completes.append {P : UserMachine → Prop} (l l' : List (OpCode × BitVec 5 × Word)) :
    ∀ {σ}, Completes (Completes P l') l σ → Completes P (l ++ l') σ := by
  induction l with
  | nil => exact fun h => h
  | cons x l ih =>
    intro σ h hnext
    obtain ⟨σ', hstep, h'⟩ := h hnext
    exact ⟨σ', hstep, ih h'⟩

lemma completes_stores {a : Word} (ht : t ≠ 0) (hp : ¬σ.registers.LoadPending (general t))
    (hw : σ.memory.Writable σ.space a) (hw' : σ.memory.Writable σ.space (a + 3)) :
    Completes (σ.Stores a (σ.registers (general t)) fun _ => True) [(.swr, t, a), (.swl, t, a + 3)] σ ∧
      Completes (σ.Stores a (σ.registers (general t)) fun _ => True) [(.swl, t, a + 3), (.swr, t, a)] σ := by
  have h3 : (a + 3).toNat = (a.toNat + 3) % 2 ^ 32 := BitVec.toNat_add a 3
  have hmod : (a + 3).toNat % 4 = (a.toNat + 3) % 4 := by omega
  constructor
  · intro h
    obtain ⟨σ₁, hstep₁, h₁, hreg⟩ := step_swr h hw
    refine ⟨σ₁, hstep₁, fun h => ?_⟩
    obtain ⟨σ₂, hstep₂, h₂, -⟩ := step_swl h (by rw [h₁.space]; exact h₁.tables.writable hw')
    rw [hreg hp ht] at h₂
    exact ⟨σ₂, hstep₂, h₁.both h₂ fun c hc => by omega⟩
  · intro h
    obtain ⟨σ₁, hstep₁, h₁, hreg⟩ := step_swl h hw'
    refine ⟨σ₁, hstep₁, fun h => ?_⟩
    obtain ⟨σ₂, hstep₂, h₂, -⟩ := step_swr h (by rw [h₁.space]; exact h₁.tables.writable hw)
    rw [hreg hp ht] at h₂
    exact ⟨σ₂, hstep₂, h₁.both h₂ fun c hc => by omega⟩

def loadPairs (t : BitVec 5) (a : Word) : List (List (OpCode × BitVec 5 × Word)) :=
  [[(.lwr, t, a), (.lwl, t, a + 3)], [(.lwl, t, a + 3), (.lwr, t, a)]]

def storePairs (t : BitVec 5) (a : Word) : List (List (OpCode × BitVec 5 × Word)) :=
  [[(.swr, t, a), (.swl, t, a + 3)], [(.swl, t, a + 3), (.swr, t, a)]]

/-- Pairs of instructions load and store the word at an address of any alignment; what a pair has stored, a pair
loads. -/
theorem unaligned_words (σ : UserMachine) (t : BitVec 5) (ht : t ≠ 0) (a : Word) (hw : σ.memory.Writable σ.space a)
    (hw' : σ.memory.Writable σ.space (a + 3)) :
    (∀ loads ∈ loadPairs t a, Completes (σ.Loaded t a) loads σ) ∧
      (¬σ.registers.LoadPending (general t) → ∀ stores ∈ storePairs t a,
        Completes (σ.Stores a (σ.registers (general t)) fun _ => True) stores σ ∧
        ∀ u ≠ 0, ∀ loads ∈ loadPairs u a,
          Completes (fun σ' => delayedLoad 0 0 σ'.registers (general u) = σ.registers (general t))
          (stores ++ loads) σ) := by
  refine ⟨fun loads hl => ?_, fun hp stores hs => ?_⟩
  · obtain ⟨h, h'⟩ := completes_loads ht hw hw'
    rcases List.mem_pair.mp hl with rfl | rfl
    · exact h
    · exact h'
  · have hstores : Completes (σ.Stores a (σ.registers (general t)) fun _ => True) stores σ := by
      obtain ⟨h, h'⟩ := completes_stores ht hp hw hw'
      rcases List.mem_pair.mp hs with rfl | rfl
      · exact h
      · exact h'
    refine ⟨hstores, fun u hu loads hl => Completes.append _ _ (hstores.mono (fun σ' h => ?_) _)⟩
    have hword (σ'' : UserMachine) (h' : σ'.Loaded u a σ'') :
        delayedLoad 0 0 σ''.registers (general u) = σ.registers (general t) := by
      rw [h'.1, ← wordOf_byteOf (σ.registers (general t))]
      apply eq_wordOf
      intro c hc
      rw [byteOf_wordOf _ _ hc, byteAt, h.space, h.tables.addressOf]
      exact h.written c hc trivial
    obtain ⟨hl₁, hl₂⟩ := completes_loads hu (σ := σ') (by rw [h.space]; exact h.tables.writable hw)
      (by rw [h.space]; exact h.tables.writable hw')
    rcases List.mem_pair.mp hl with rfl | rfl
    · exact hl₁.mono hword _
    · exact hl₂.mono hword _

lemma onePage_writable (program : List Byte) {addr : Word} (h : addr.toNat < 128) :
    (onePage program true).memory.Writable 0 addr := by
  have hpage : addr.toNat / 128 = 0 := by omega
  refine ⟨⟨?_, ?_⟩, ?_, ?_, ?_⟩
  · rw [hpage]
    exact Nat.one_pos
  · rw [hpage]
    rfl
  · rw [entryAt, hpage]
    rfl
  · rw [entryAt, hpage]
    exact le_rfl
  · rw [entryAt, hpage]
    exact (by decide : (0 : ℤ) < NumPhysPages)

def storeLoad : List Byte := [65, 0, 1, 0xb8, 68, 0, 1, 0xa8, 65, 0, 2, 0x98, 68, 0, 2, 0x88]

def storeWord : UserMachine :=
  { onePage storeLoad true with registers := (onePage storeLoad true).registers.set 1 0x04030201 }

theorem unaligned_words_stored : ∃ σ₁ σ₂ σ₃ σ₄ : UserMachine, storeWord.step = .ok σ₁ ∧ σ₁.step = .ok σ₂ ∧
    (∀ c < 4, σ₂.memory.byteAt σ₂.space (65 + BitVec.ofNat 32 c) = byteOf 0x04030201 c) ∧
    σ₂.step = .ok σ₃ ∧ σ₃.step = .ok σ₄ ∧ delayedLoad 0 0 σ₄.registers 2 = 0x04030201 := by
  obtain ⟨hstores, hloads⟩ := (unaligned_words storeWord 1 (by decide) 65 (onePage_writable _ (by decide))
    (onePage_writable _ (by decide))).2 (by decide) _ List.mem_cons_self
  have h := hloads 2 (by decide) _ List.mem_cons_self
  have hnext : storeWord.NextIs .swr 1 65 := ⟨_, rfl, rfl, rfl, rfl⟩
  -- the first two steps
  obtain ⟨σ₁, h₁, hstores⟩ := hstores hnext
  obtain ⟨τ₁, hτ₁, hnext₁⟩ : ∃ τ, storeWord.step = .ok τ ∧ τ.NextIs .swl 1 68 := ⟨_, rfl, _, rfl, rfl, rfl, rfl⟩
  cases h₁.symm.trans hτ₁
  obtain ⟨σ₂, h₂, hstored⟩ := hstores hnext₁
  obtain ⟨σ₁', h₁', h⟩ := h hnext
  cases h₁.symm.trans h₁'
  obtain ⟨σ₂', h₂', h⟩ := h hnext₁
  cases h₂.symm.trans h₂'
  -- the other two
  obtain ⟨τ₂, hτ₂, hnext₂⟩ : ∃ τ, (storeWord.step.bind fun σ₁ => σ₁.step) = .ok τ ∧ τ.NextIs .lwr 2 65 :=
    ⟨_, rfl, _, rfl, rfl, rfl, rfl⟩
  rw [h₁] at hτ₂
  cases h₂.symm.trans hτ₂
  obtain ⟨σ₃, h₃, h⟩ := h hnext₂
  obtain ⟨τ₃, hτ₃, hnext₃⟩ : ∃ τ, ((storeWord.step.bind fun σ₁ => σ₁.step).bind fun σ₂ => σ₂.step) = .ok τ ∧
      τ.NextIs .lwl 2 68 := ⟨_, rfl, _, rfl, rfl, rfl, rfl⟩
  rw [h₁] at hτ₃
  change (σ₁.step.bind fun σ₂ => σ₂.step) = _ at hτ₃
  rw [h₂] at hτ₃
  cases h₃.symm.trans hτ₃
  obtain ⟨σ₄, h₄, hword⟩ := h hnext₃
  refine ⟨σ₁, σ₂, σ₃, σ₄, h₁, h₂, fun c hc => ?_, h₃, h₄, hword⟩
  rw [byteAt, hstored.space, hstored.tables.addressOf]
  exact hstored.written c hc trivial

def unalignedStore : List Byte := [65, 0, 1, 0xb8, 68, 0, 1, 0xa8]

def storeAfterLoad : UserMachine :=
  { onePage unalignedStore true with
    registers := ((onePage unalignedStore true).registers.set loadReg 1).set loadValueReg 0xffffffff }

/-- A load of the register is pending when the first of the two instructions stores it: the second one stores
another value. -/
theorem unaligned_store_after_load : ∃ σ σ₁ σ₂ : UserMachine, σ.registers 0 = 0 ∧ σ.memory.Writable σ.space 65 ∧
    σ.memory.Writable σ.space 68 ∧ σ.NextIs .swr 1 65 ∧ σ.step = .ok σ₁ ∧ σ₁.NextIs .swl 1 68 ∧ σ₁.step = .ok σ₂ ∧
    (wordOf fun c => σ₂.memory.byteAt σ₂.space (65 + BitVec.ofNat 32 c)) = 0xff000000 ∧ σ.registers 1 = 0 ∧
    σ₂.registers 1 = 0xffffffff := by
  have hnext : storeAfterLoad.NextIs .swr 1 65 := ⟨_, rfl, rfl, rfl, rfl⟩
  obtain ⟨σ₁, h₁, hnext'⟩ : ∃ σ₁, storeAfterLoad.step = .ok σ₁ ∧ σ₁.NextIs .swl 1 68 :=
    ⟨_, rfl, _, rfl, rfl, rfl, rfl⟩
  obtain ⟨σ₂, h₂, hword, hreg⟩ : ∃ σ₂, (storeAfterLoad.step.bind fun σ₁ => σ₁.step) = .ok σ₂ ∧
      (wordOf fun c => σ₂.memory.byteAt σ₂.space (65 + BitVec.ofNat 32 c)) = 0xff000000 ∧
      σ₂.registers 1 = 0xffffffff :=
    ⟨_, rfl, rfl, rfl⟩
  rw [h₁] at h₂
  exact ⟨storeAfterLoad, σ₁, σ₂, rfl, onePage_writable _ (by decide),
    onePage_writable _ (by decide), hnext, h₁, hnext',
    h₂, hword, rfl, hreg⟩

end UserMachine

end NachosFileSys
