import NachosFileSys.PageTables

namespace NachosFileSys

open Lib.Runs Lib.Bytes

abbrev MemorySize : ℕ := NumPhysPages * 128

namespace PagedMachine

/-- `AddrSpace::Translate`. The physical page is an `int`, so that one which is negative is not too big. -/
def addrSpaceTranslate (m : PagedMachine) (space : ℕ) (vaddr : Word) (isReadWrite : ℤ) :
    Except Fault (Except ExceptionType (Word × PagedMachine)) :=
  let vpn := vaddr.toNat / 128
  let offset := vaddr.toNat % 128
  let x := (space, vpn)
  let pte := m.pageTable x
  if m.numPages.getD space 0 ≤ vpn then .ok (.error .addressErrorException)
  else if isReadWrite ≠ 0 ∧ pte.readOnly then .ok (.error .readOnlyException)
  else if (NumPhysPages : ℤ) ≤ pte.physicalPage then .ok (.error .busErrorException)
  else
    let m := m.setEntry x { pte with use := true, dirty := pte.dirty || decide (isReadWrite ≠ 0) }
    let paddr := BitVec.ofInt 32 (pte.physicalPage * 128) + BitVec.ofNat 32 offset
    if paddr.toNat < MemorySize then .ok (.ok (paddr, m)) else .error .assertion

def machineTranslate (m : PagedMachine) (space : ℕ) (virtAddr size : ℤ) (writing : Bool) :
    Except Fault (Except ExceptionType (ℤ × PagedMachine)) :=
  match m.translate space virtAddr size writing with
  | .error which => .ok (.error which)
  | .ok (physAddr, m) => if 0 ≤ physAddr ∧ physAddr + size ≤ MemorySize then
    .ok (.ok (physAddr, m)) else .error .assertion

/-- Neither translation stops, and they return the same exception or the same address and page tables. -/
def SameTranslation : Except Fault (Except ExceptionType (Word × PagedMachine)) →
    Except Fault (Except ExceptionType (ℤ × PagedMachine)) → Prop
  | .ok (.error which), .ok (.error which') => which = which'
  | .ok (.ok (paddr, m)), .ok (.ok (physAddr, m')) => (paddr.toNat : ℤ) = physAddr ∧ m = m'
  | _, _ => False

variable {m : PagedMachine} {space : ℕ} {vaddr : Word} {isReadWrite : ℤ}

lemma machineTranslate_eq (m : PagedMachine) (space : ℕ) (vaddr : Word) (writing : Bool) :
    m.machineTranslate space vaddr.toInt 1 writing =
      let entry := m.pageTable (space, vaddr.toNat / 128)
      if m.numPages.getD space 0 ≤ vaddr.toNat / 128 then .ok (.error .addressErrorException)
      else if !entry.valid then .ok (.error .pageFaultException)
      else if entry.readOnly && writing then .ok (.error .readOnlyException)
      else if entry.physicalPage < 0 ∨ (NumPhysPages : ℤ) ≤ entry.physicalPage then .ok (.error .busErrorException)
      else .ok (.ok (entry.physicalPage * 128 + (vaddr.toNat % 128 : ℕ),
        m.setEntry (space, vaddr.toNat / 128) { entry with use := true, dirty := entry.dirty || writing })) := by
  have hpage : ((vaddr.toNat : ℤ) / 128).toNat = vaddr.toNat / 128 := by omega
  have hoffset : (vaddr.toNat : ℤ) % 128 = (vaddr.toNat % 128 : ℕ) := by omega
  rw [machineTranslate, translate, if_neg (by omega), toInt_emod]
  dsimp only
  rw [hpage, hoffset]
  split_ifs with h1 h2 h3 h4
  · rfl
  · rfl
  · rfl
  · rfl
  · have hinside :
        0 ≤ (m.pageTable (space, vaddr.toNat / 128)).physicalPage * 128 + ((vaddr.toNat % 128 : ℕ) : ℤ) ∧
        (m.pageTable (space, vaddr.toNat / 128)).physicalPage * 128 + ((vaddr.toNat % 128 : ℕ) : ℤ) + 1 ≤
        MemorySize := by
      have hframes : (NumPhysPages : ℤ) = 32 := rfl
      have hsize : (MemorySize : ℤ) = 4096 := rfl
      rw [not_or, not_lt, not_le] at h4
      constructor <;> omega
    exact if_pos hinside

lemma absent_address (vaddr : Word) :
    ¬(BitVec.ofInt 32 (-1 * 128) + BitVec.ofNat 32 (vaddr.toNat % 128)).toNat < MemorySize := by
  have hoffset : vaddr.toNat % 128 < 128 := Nat.mod_lt _ (by norm_num)
  have hsize : MemorySize = 4096 := rfl
  have hbase : (BitVec.ofInt 32 (-1 * 128)).toNat = 2 ^ 32 - 128 := by decide
  rw [BitVec.toNat_add, hbase, BitVec.toNat_ofNat]
  omega

lemma resident_address {ppn : ℤ} (h0 : 0 ≤ ppn) (h1 : ppn < (NumPhysPages : ℤ)) (vaddr : Word) :
    ((BitVec.ofInt 32 (ppn * 128) + BitVec.ofNat 32 (vaddr.toNat % 128)).toNat : ℤ) =
      ppn * 128 + (vaddr.toNat % 128 : ℕ) := by
  have hoffset : vaddr.toNat % 128 < 128 := Nat.mod_lt _ (by norm_num)
  have hframes : (NumPhysPages : ℤ) = 32 := rfl
  have hbase : (BitVec.ofInt 32 (ppn * 128)).toNat = ppn.toNat * 128 := by
    rw [BitVec.toNat_ofInt]
    omega
  rw [BitVec.toNat_add, hbase, BitVec.toNat_ofNat]
  omega

end PagedMachine

namespace World

open PagedMachine

variable {w : World} {space : ℕ} {vaddr : Word}

lemma Tabled.addrSpaceTranslate_resident (h : w.Tabled) (hr : w.machine.Resident (space, vaddr.toNat / 128))
    (isReadWrite : ℤ) : SameTranslation (w.machine.addrSpaceTranslate space vaddr isReadWrite)
      (w.machine.machineTranslate space vaddr.toInt 1 (decide (isReadWrite ≠ 0))) := by
  obtain ⟨h0, h1⟩ := h.bounds hr
  have hro := h.writable hr.1
  have hpaddr := resident_address h0 h1 vaddr
  have hsmall : (BitVec.ofInt 32 ((w.machine.pageTable (space, vaddr.toNat / 128)).physicalPage * 128) +
      BitVec.ofNat 32 (vaddr.toNat % 128)).toNat < MemorySize := by
    have hoffset : vaddr.toNat % 128 < 128 := Nat.mod_lt _ (by norm_num)
    have hsize : MemorySize = 4096 := rfl
    have hframes : (NumPhysPages : ℤ) = 32 := rfl
    omega
  rw [machineTranslate_eq, addrSpaceTranslate]
  dsimp only
  rw [if_neg (not_le.mpr hr.1), if_neg (not_le.mpr hr.1), hr.2,
    hro, if_neg (by simp), if_neg (not_le.mpr h1), if_pos hsmall,
    if_neg (by simp), if_neg (by simp), if_neg (not_or.mpr ⟨not_lt.mpr h0, not_le.mpr h1⟩)]
  exact ⟨hpaddr, rfl⟩

lemma addrSpaceTranslate_unmapped (h : ¬w.machine.Mapped (space, vaddr.toNat / 128)) (isReadWrite : ℤ) :
    SameTranslation (w.machine.addrSpaceTranslate space vaddr isReadWrite)
      (w.machine.machineTranslate space vaddr.toInt 1 (decide (isReadWrite ≠ 0))) := by
  rw [machineTranslate_eq, addrSpaceTranslate]
  dsimp only
  rw [if_pos (not_lt.mp h), if_pos (not_lt.mp h)]
  rfl

lemma Tabled.addrSpaceTranslate_absent (h : w.Tabled) (space : ℕ)
    (vaddr : Word) (hm : w.machine.Mapped (space, vaddr.toNat / 128))
    (hv : (w.machine.pageTable (space, vaddr.toNat / 128)).valid = false) (isReadWrite : ℤ) :
    w.machine.addrSpaceTranslate space vaddr isReadWrite = .error .assertion ∧
      w.machine.machineTranslate space vaddr.toInt 1 (decide (isReadWrite ≠ 0)) =
      .ok (.error .pageFaultException) := by
  have hpage := h.absent hm hv
  have hro := h.writable hm
  constructor
  · rw [addrSpaceTranslate]
    dsimp only
    rw [if_neg (not_le.mpr hm), hro, if_neg (by simp), hpage, if_neg (by norm_num), if_neg (absent_address vaddr)]
  · rw [machineTranslate_eq]
    dsimp only
    rw [if_neg (not_le.mpr hm), hv]
    rfl

/-- In every run, the two translations agree exactly on the addresses outside the address space and
those whose pages are in frames. -/
theorem translators_agree_iff {swapSpace : ℤ → Page}
    (h : Reaches Moves (fun _ _ => True) ⟨.start swapSpace, fun _ => none⟩ w)
    (space : ℕ) (vaddr : Word) (isReadWrite : ℤ) :
    SameTranslation (w.machine.addrSpaceTranslate space vaddr isReadWrite)
      (w.machine.machineTranslate space vaddr.toInt 1 (decide (isReadWrite ≠ 0))) ↔
    (w.machine.Mapped (space, vaddr.toNat / 128) →
    (w.machine.pageTable (space, vaddr.toNat / 128)).valid = true) := by
  have ht := tabled_of_reaches h
  by_cases hm : w.machine.Mapped (space, vaddr.toNat / 128)
  · cases hv : (w.machine.pageTable (space, vaddr.toNat / 128)).valid with
    | true => exact iff_of_true (ht.addrSpaceTranslate_resident ⟨hm, hv⟩ isReadWrite) fun _ => rfl
    | false =>
      obtain ⟨hkernel, hmachine⟩ := ht.addrSpaceTranslate_absent space vaddr hm hv isReadWrite
      rw [hkernel, hmachine]
      exact iff_of_false id fun hpresent => Bool.false_ne_true (hpresent hm)
  · exact iff_of_true (addrSpaceTranslate_unmapped hm isReadWrite) fun hmapped => absurd hmapped hm

def oneLoaded : World := ⟨(PagedMachine.start fun _ _ => 0).load [fun _ => 0], fun _ => none⟩

lemma reaches_oneLoaded : Reaches Moves (fun _ _ => True) ⟨.start fun _ _ => 0, fun _ => none⟩ oneLoaded :=
  .step (.access (.load [fun _ => 0])) .refl trivial (.accessed trivial rfl)

theorem translators_agree_present : ∃ w, Reaches Moves (fun _ _ => True) ⟨.start fun _ _ => 0, fun _ => none⟩ w ∧
    SameTranslation (w.machine.addrSpaceTranslate 0 100 1) (w.machine.machineTranslate 0 100 1 true) := by
  have hready : oneLoaded.Ready (.read 0 0 4) := ⟨rfl, le_rfl, by norm_num, by decide, .inr (.inr ⟨rfl, rfl⟩)⟩
  obtain ⟨w₁, w₂, h₁, h₂, hvalid⟩ : ∃ w₁ w₂, oneLoaded.perform (.read 0 0 4) = .ok (.fault, w₁) ∧
      w₁.resume 0 = .ok w₂ ∧ (w₂.machine.pageTable (0, 0)).valid = true :=
    ⟨_, _, rfl, rfl, rfl⟩
  have hr :=
    (reaches_oneLoaded.step (.access (.read 0 0 4)) trivial (.accessed hready h₁)).step (.resume 0) trivial
    (.resumed h₂)
  exact ⟨w₂, hr, (translators_agree_iff hr 0 100 1).mpr fun _ => hvalid⟩

/-- Before its first page fault, the machine reports the fault and the kernel's translation stops in
its assertion. -/
theorem translators_differ_absent : ∃ w, Reaches Moves (fun _ _ => True) ⟨.start fun _ _ => 0, fun _ => none⟩ w ∧
    w.machine.addrSpaceTranslate 0 0 0 = .error .assertion ∧
    w.machine.machineTranslate 0 (0 : Word).toInt 1 false = .ok (.error .pageFaultException) ∧
    ¬SameTranslation (w.machine.addrSpaceTranslate 0 0 0)
    (w.machine.machineTranslate 0 (0 : Word).toInt 1 false) := by
  obtain ⟨hkernel, hmachine⟩ :=
    (tabled_of_reaches reaches_oneLoaded).addrSpaceTranslate_absent 0 0 Nat.one_pos rfl 0
  refine ⟨oneLoaded, reaches_oneLoaded, hkernel, hmachine, ?_⟩
  rw [hkernel]
  exact id

end World

end NachosFileSys
