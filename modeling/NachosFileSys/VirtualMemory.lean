import NachosFileSys.Paging
import Mathlib.Data.List.GetD

namespace NachosFileSys

open Lib.Bytes

def pageOf (addr : ℤ) : ℕ := (addr / 128).toNat

namespace InRange

variable {numPages : ℕ} {addr size : ℤ} (h : InRange numPages addr size)

include h

lemma size_pos : 0 < size := by
  rcases h.aligned with h1 | h2 | h4 <;> omega

lemma page_eq : (pageOf addr : ℤ) * 128 + addr % 128 = addr := by
  have := h.nonneg
  rw [pageOf]
  omega

lemma page_lt : pageOf addr < numPages := by
  have h1 := h.size_pos
  have h2 := h.inside
  have h3 := h.nonneg
  rw [pageOf]
  omega

lemma offset_le : addr % 128 + size ≤ 128 := by
  rcases h.aligned with h1 | h2 | h4 <;> omega

lemma sizes : size = 1 ∨ size = 2 ∨ size = 4 := by
  rcases h.aligned with h1 | h2 | h4 <;> omega

lemma tdiv_eq : (addr.tdiv 128).toNat = pageOf addr := by
  rw [pageOf, Int.tdiv_eq_ediv_of_nonneg h.nonneg]

end InRange

namespace PagedMachine

variable {m : PagedMachine} {a : ℕ} {addr size : ℤ}

lemma mapped_of_inRange (h : InRange (m.numPages.getD a 0) addr size) : m.Mapped (a, pageOf addr) := h.page_lt

lemma translate_eq (h : InRange (m.numPages.getD a 0) addr size) (writing : Bool) :
    m.translate a addr size writing =
    let entry := m.pageTable (a, pageOf addr)
    if !entry.valid then .error .pageFaultException
    else if entry.readOnly && writing then .error .readOnlyException
    else if entry.physicalPage < 0 ∨ (NumPhysPages : ℤ) ≤ entry.physicalPage then .error .busErrorException
    else .ok (entry.physicalPage * 128 + addr % 128,
      m.setEntry (a, pageOf addr) { entry with use := true, dirty := entry.dirty || writing }) := by
  have haddr : addr % 2 ^ 32 = addr := Int.emod_eq_of_lt h.nonneg (lt_trans h.int (by norm_num))
  have hpage : (addr / 128).toNat = pageOf addr := rfl
  have hmap : ¬m.numPages.getD a 0 ≤ pageOf addr := not_le.mpr h.page_lt
  have halign : ¬((size = 4 ∧ addr % 4 ≠ 0) ∨ (size = 2 ∧ addr % 2 ≠ 0)) := by
    rcases h.aligned with h1 | h2 | h4 <;> omega
  rw [translate, if_neg halign, haddr, hpage]
  dsimp only
  rw [if_neg hmap]

end PagedMachine

namespace World

open PagedMachine

variable {w : World} {flat : FlatMemory} {a page : ℕ} {addr size : ℤ}

lemma Consistent.translate_fault (h : InRange (w.machine.numPages.getD a 0) addr size) (writing : Bool)
    (hv : (w.machine.pageTable (a, pageOf addr)).valid = false) :
    w.machine.translate a addr size writing = .error .pageFaultException := by
  rw [PagedMachine.translate_eq h]
  dsimp only
  rw [hv]
  rfl

lemma Consistent.translate_ok (hc : w.Consistent flat) (h : InRange (w.machine.numPages.getD a 0) addr size)
    (writing : Bool)
    (hv : (w.machine.pageTable (a, pageOf addr)).valid = true) :
    w.machine.translate a addr size writing =
      .ok ((w.machine.pageTable (a, pageOf addr)).physicalPage * 128 + addr % 128,
        w.machine.setEntry (a, pageOf addr) { w.machine.pageTable (a, pageOf addr) with
          use := true, dirty := (w.machine.pageTable (a, pageOf addr)).dirty || writing }) := by
  obtain ⟨h1, h2⟩ := hc.bounds ⟨mapped_of_inRange h, hv⟩
  rw [PagedMachine.translate_eq h]
  dsimp only
  rw [hv, hc.writable (mapped_of_inRange h), Bool.false_and,
    Bool.not_true, if_neg Bool.false_ne_true, if_neg Bool.false_ne_true,
    if_neg (not_or.mpr ⟨not_lt.mpr h1, not_le.mpr h2⟩)]

lemma Consistent.fetchData_eq (hc : w.Consistent flat) (h : InRange (w.machine.numPages.getD a 0) addr size)
    (hv : (w.machine.pageTable (a, pageOf addr)).valid = true) (hf : ¬w.Fetching (a, pageOf addr)) :
    fetchData w.machine.mainMemory ((w.machine.pageTable (a, pageOf addr)).physicalPage * 128 + addr % 128) size =
      fetchData (flat a) addr size := by
  apply fetchData_congr
  intro i h0 hi
  have hoff := h.offset_le
  have hmod := Int.emod_nonneg addr (by norm_num : (128 : ℤ) ≠ 0)
  have hmem := hc.inMemory ⟨mapped_of_inRange h, hv⟩ hf ⟨(addr % 128 + i).toNat, by omega⟩
  rw [frame] at hmem
  dsimp only at hmem
  rw [Int.toNat_of_nonneg (by omega), ← add_assoc, ← add_assoc, h.page_eq] at hmem
  exact hmem

lemma fetchData_ok (memory : ℤ → Byte) (addr : ℤ) (h : size = 1 ∨ size = 2 ∨ size = 4) :
    ∃ data, fetchData memory addr size = .ok data := by
  rcases h with rfl | rfl | rfl
  · exact ⟨_, rfl⟩
  · exact ⟨_, rfl⟩
  · exact ⟨_, rfl⟩

lemma Consistent.readMem_resident (h : w.Consistent flat) (hr : InRange (w.machine.numPages.getD a 0) addr size)
    (hv : (w.machine.pageTable (a, pageOf addr)).valid = true) (hf : ¬w.Fetching (a, pageOf addr)) :
    ∃ data m', w.machine.readMem a addr size = .ok (some data, m') ∧ fetchData (flat a) addr size = .ok data ∧
      Consistent ⟨m', w.transfer⟩ flat ∧ m'.numPages = w.machine.numPages := by
  obtain ⟨data, hd⟩ := fetchData_ok (flat a) addr hr.sizes
  have hfetch := h.fetchData_eq hr hv hf
  rw [hd] at hfetch
  refine ⟨data, _, ?_, hd,
      h.setBits (a, pageOf addr) true ((w.machine.pageTable (a, pageOf addr)).dirty || false), rfl⟩
  rw [readMem, h.translate_ok hr false hv]
  simp only [setEntry]
  rw [hfetch]
  rfl

lemma Consistent.writeMem_resident (h : w.Consistent flat) (hr : InRange (w.machine.numPages.getD a 0) addr size)
    (hv : (w.machine.pageTable (a, pageOf addr)).valid = true) (hf : ¬w.Fetching (a, pageOf addr))
    (he : ∀ {m'}, ¬Evicting ⟨m', w.transfer⟩ (a, pageOf addr)) (value : ℤ) :
    ∃ m', w.machine.writeMem a addr size value = .ok (true, m') ∧
      Consistent ⟨m', w.transfer⟩ (Function.update flat a (stored (flat a) addr size value)) ∧
      m'.numPages = w.machine.numPages := by
  have hbits := h.setBits (a, pageOf addr) true ((w.machine.pageTable (a, pageOf addr)).dirty || true)
  have hmod := Int.emod_nonneg addr (by norm_num : (128 : ℤ) ≠ 0)
  set entry : TranslationEntry := { w.machine.pageTable (a, pageOf addr) with
    use := true, dirty := (w.machine.pageTable (a, pageOf addr)).dirty || true } with hentry
  have hself : (w.machine.setEntry (a, pageOf addr) entry).pageTable (a, pageOf addr) = entry :=
    Function.update_self ..
  have hres : (w.machine.setEntry (a, pageOf addr) entry).Resident (a, pageOf addr) :=
    ⟨mapped_of_inRange hr, by rw [hself]; exact hv⟩
  have hstore := hbits.store value hres hf he hmod hr.offset_le
  dsimp only at hstore
  rw [hr.page_eq, hself] at hstore
  refine ⟨_, ?_, hstore, rfl⟩
  rw [writeMem, h.translate_ok hr true hv]
  dsimp only
  rw [storeData_ok hr.sizes]
  rfl

lemma readMem_fault (hr : InRange (w.machine.numPages.getD a 0) addr size)
    (hv : (w.machine.pageTable (a, pageOf addr)).valid = false) :
    w.machine.readMem a addr size = (do
      let m ← w.machine.pageFault a (pageOf addr)
      pure (none, m)) := by
  rw [readMem, Consistent.translate_fault hr false hv]
  dsimp only
  rw [exceptionHandler, hr.tdiv_eq]

lemma writeMem_fault (hr : InRange (w.machine.numPages.getD a 0) addr size)
    (hv : (w.machine.pageTable (a, pageOf addr)).valid = false) (value : ℤ) :
    w.machine.writeMem a addr size value = (do
      let m ← w.machine.pageFault a (pageOf addr)
      pure (false, m)) := by
  rw [writeMem, Consistent.translate_fault hr true hv]
  dsimp only
  rw [exceptionHandler, hr.tdiv_eq]

lemma Consistent.startFault (h : w.Consistent flat) (ha : w.transfer a = none) (hm : w.machine.Mapped (a, page))
    (hv : (w.machine.pageTable (a, page)).valid = false) :
    (∃ m t, w.machine.startFault a page = .ok (m, t) ∧ Consistent ⟨m, Function.update w.transfer a (some t)⟩ flat ∧
      m.numPages = w.machine.numPages ∧
      ((∃ ppn, t = .fetching ppn page) ∨ ∃ victim ppn copy, t = .evicting victim ppn copy page)) ∨
    w.machine.startFault a page = .error .assertion ∧ ∃ b, w.transfer b ≠ none := by
  rw [PagedMachine.startFault]
  rcases hfree : w.machine.freeMap.free with - | ⟨i, rest⟩
  · rw [Bitmap.findAndSet_full _ hfree]
    rcases hl : w.machine.fifoEntryList with - | ⟨victim, rest⟩
    · -- every frame has an owner, which is not in the list because it is on its way
      refine .inr ⟨by simp only [bind, Except.bind]; rw [if_neg (by simp)], ?_⟩
      have hbit : w.machine.freeMap.bit 0 = true := by
        have h0 : (0 : ℕ) ∉ w.machine.freeMap.free := by
          rw [hfree]
          exact List.not_mem_nil
        rw [Bitmap.mem_free] at h0
        simpa using h0
      obtain ⟨y, hy, -⟩ := (h.marked (by norm_num : 0 < NumPhysPages)).mp hbit
      have hnl : y ∉ w.machine.fifoEntryList := by
        rw [hl]
        exact List.not_mem_nil
      rw [h.listed] at hnl
      by_cases hf : w.Fetching y
      · obtain ⟨ppn, hf⟩ := hf
        exact ⟨y.1, by rw [hf]; simp⟩
      · by_cases he : w.Evicting y
        · obtain ⟨b, ppn, copy, q, hb⟩ := he
          exact ⟨b, by rw [hb]; simp⟩
        · exact absurd ⟨hy, hf, he⟩ hnl
    · refine .inl ⟨_, _, ?_, h.chooseVictim ha hm hv hl, rfl, .inr ⟨_, _, _, rfl⟩⟩
      simp only [bind, Except.bind]
      rw [if_neg (by simp)]
      rfl
  · obtain ⟨freeMap, hset, -, hbit⟩ := Bitmap.findAndSet_cons _ hfree
    obtain ⟨hi, hclear⟩ := Bitmap.mem_free.mp (hfree ▸ List.mem_cons_self : i ∈ w.machine.freeMap.free)
    refine .inl ⟨_, _, ?_, h.takeFrame ha hm hv hi hclear hbit, rfl, .inl ⟨_, rfl⟩⟩
    rw [hset]
    simp only [bind, Except.bind]
    rw [if_pos (by omega)]
    rfl

lemma Consistent.finishEviction {victim : EntryPtr} {ppn : ℤ} {copy : Page} (h : w.Consistent flat)
    (ha : w.transfer a = some (.evicting victim ppn copy page)) :
    Consistent ⟨w.machine.finishEviction a victim ppn copy page,
      Function.update w.transfer a (some (.fetching ppn page))⟩ flat := by
  obtain ⟨hvr, hvp, -, hm, hv, -⟩ := h.evict ha
  obtain ⟨h0, h1⟩ := h.bounds hvr
  have hi : ppn = (ppn.toNat : ℤ) := by omega
  have hlt : ppn.toNat < NumPhysPages := by
    rw [hvp] at h1
    omega
  obtain ⟨freeMap, -, hbit⟩ := Bitmap.clear_spec w.machine.freeMap ppn.toNat hlt
  have hne : (a, page) ≠ victim := by
    intro heq
    rw [heq, hvr.2] at hv
    exact absurd hv (by simp)
  have hmark : w.machine.freeMap.bit ppn.toNat = true := (h.marked hlt).mpr ⟨victim, hvr, by omega⟩
  have hout := h.unload ha hi (fun j hj => by rw [hbit j hj, decide_not])
  have hclear : freeMap.bit ppn.toNat = false := by
    rw [hbit _ hlt]
    simp
  have hset : ∀ j < NumPhysPages, w.machine.freeMap.bit j = (freeMap.bit j || decide (j = ppn.toNat)) := by
    intro j hj
    rw [hbit j hj]
    by_cases hj' : j = ppn.toNat
    · rw [hj', hmark]
      simp
    · simp [hj']
  have hinvalid : (Function.update w.machine.pageTable victim
      { w.machine.pageTable victim with physicalPage := -1, valid := false } (a, page)).valid = false := by
    rw [Function.update_of_ne hne]
    exact hv
  have hin := hout.takeFrame (Function.update_self ..) hm hinvalid hlt hclear hset
  rw [← hi] at hin
  dsimp only at hin
  rw [Function.update_idem] at hin
  exact hin

lemma Consistent.pageFault (h : w.Consistent flat) (hn : ∀ b, w.transfer b = none)
    (hm : w.machine.Mapped (a, page))
    (hv : (w.machine.pageTable (a, page)).valid = false) :
    ∃ m', w.machine.pageFault a page = .ok m' ∧ Consistent ⟨m', w.transfer⟩ flat ∧ m'.Resident (a, page) ∧
      m'.numPages = w.machine.numPages := by
  have hidle : Function.update w.transfer a none = w.transfer := by
    rw [← hn a]
    exact Function.update_eq_self a w.transfer
  rw [PagedMachine.pageFault]
  rcases h.startFault (hn a) hm hv with ⟨m, t, hs, hc, hnp, ⟨ppn, rfl⟩ | ⟨victim, ppn, copy, rfl⟩⟩ | ⟨-, b, hb⟩
  · obtain ⟨m', hf, hc', hr, hnp'⟩ := hc.arrive (Function.update_self ..)
    dsimp only at hf hc' hnp'
    rw [Function.update_idem, hidle] at hc'
    exact ⟨m', by rw [hs]; exact hf, hc', hr, hnp'.trans hnp⟩
  · have hout := hc.finishEviction (Function.update_self ..)
    dsimp only at hout
    obtain ⟨m', hf, hc', hr, hnp'⟩ := hout.arrive (Function.update_self ..)
    dsimp only at hf hc' hnp'
    rw [Function.update_idem, Function.update_idem, hidle] at hc'
    exact ⟨m', by rw [hs]; exact hf, hc', hr, hnp'.trans hnp⟩
  · exact absurd (hn b) hb

end World

namespace PagedMachine

structure Loaded (m : PagedMachine) (space : ℕ) (pages : List Page) (i : ℕ) (m' : PagedMachine) : Prop where
  mainMemory : m'.mainMemory = m.mainMemory
  numPages : m'.numPages = m.numPages
  freeMap : m'.freeMap = m.freeMap
  fifoEntryList : m'.fifoEntryList = m.fifoEntryList
  counter : m'.swapSpaceCounter = m.swapSpaceCounter + pages.length
  entry : ∀ k < pages.length, m'.pageTable (space, i + k) =
      ⟨m.swapSpaceCounter + k, -1, false, false, false, false⟩
  others : ∀ y : EntryPtr, y.1 ≠ space ∨ y.2 < i → m'.pageTable y = m.pageTable y
  slot : ∀ k (hk : k < pages.length), m'.swapSpace (m.swapSpaceCounter + k) = pages[k]
  below : ∀ s < m.swapSpaceCounter, m'.swapSpace s = m.swapSpace s

lemma loadPages_loaded (space : ℕ) (pages : List Page) (i : ℕ) (m : PagedMachine) :
    Loaded m space pages i (loadPages space pages i m) := by
  induction pages generalizing i m with
  | nil => exact ⟨rfl, rfl, rfl, rfl, by simp [loadPages], by simp, fun _ _ => rfl, by simp, fun _ _ => rfl⟩
  | cons page pages ih =>
    have hl := ih (i + 1) (m.loadPage space i page)
    rw [loadPages]
    refine ⟨hl.mainMemory, hl.numPages, hl.freeMap, hl.fifoEntryList, ?_, ?_, ?_, ?_, ?_⟩
    · refine hl.counter.trans ?_
      change m.swapSpaceCounter + 1 + _ = _
      rw [List.length_cons]
      push_cast
      ring
    · intro k hk
      cases k with
      | zero =>
        rw [add_zero, hl.others _ (.inr (Nat.lt_succ_self i))]
        refine (Function.update_self ..).trans ?_
        rw [Nat.cast_zero, add_zero]
      | succ k =>
        have he := hl.entry k (Nat.lt_of_succ_lt_succ hk)
        rw [show i + 1 + k = i + (k + 1) by omega] at he
        refine he.trans ?_
        change TranslationEntry.mk (m.swapSpaceCounter + 1 + k) _ _ _ _ _ = _
        rw [show m.swapSpaceCounter + 1 + (k : ℤ) = m.swapSpaceCounter + ((k + 1 : ℕ) : ℤ) by push_cast; ring]
    · intro y hy
      rw [hl.others y (hy.imp_right fun h => Nat.lt_succ_of_lt h)]
      refine Function.update_of_ne ?_ ..
      rintro rfl
      rcases hy with hy | hy
      · exact hy rfl
      · exact lt_irrefl _ hy
    · intro k hk
      cases k with
      | zero =>
        rw [Nat.cast_zero, add_zero, hl.below _ (by change _ < m.swapSpaceCounter + 1; omega)]
        exact Function.update_self ..
      | succ k =>
        have hk' : k < pages.length := Nat.lt_of_succ_lt_succ hk
        rw [List.getElem_cons_succ, ← hl.slot k hk']
        congr 1
        change _ = m.swapSpaceCounter + 1 + (k : ℤ)
        push_cast
        ring
    · intro s hs
      rw [hl.below s (by change s < m.swapSpaceCounter + 1; omega)]
      exact Function.update_of_ne hs.ne ..

end PagedMachine

def imageByte (image : List Page) (v : ℤ) : Byte :=
  if h : (v / 128).toNat < image.length then image[(v / 128).toNat] ⟨(v % 128).toNat, by omega⟩ else 0

lemma imageByte_page (image : List Page) {k : ℕ} (hk : k < image.length) (j : Fin 128) :
    imageByte image (k * 128 + j.val) = image[k] j := by
  have hdiv : ((k * 128 + j.val : ℤ) / 128).toNat = k := by omega
  have hmod : ((k * 128 + j.val : ℤ) % 128).toNat = j.val := by omega
  rw [imageByte, dif_pos (by rw [hdiv]; exact hk)]
  have hj : (⟨((k * 128 + j.val : ℤ) % 128).toNat, by omega⟩ : Fin 128) = j := Fin.ext hmod
  rw [hj]
  exact congrFun (getElem_congr_idx hdiv) j

namespace World

open PagedMachine

variable {w : World} {flat : FlatMemory}

lemma Consistent.load (h : w.Consistent flat) (image : List Page) :
    Consistent ⟨w.machine.load image, w.transfer⟩
      (Function.update flat w.machine.numPages.length (imageByte image)) := by
  set n := w.machine.numPages.length with hn
  have hl := loadPages_loaded n image 0 w.machine
  set m' := w.machine.load image with hm'
  have htable : m'.pageTable = (loadPages n image 0 w.machine).pageTable := rfl
  have hmap : ∀ {y}, m'.Mapped y ↔ w.machine.Mapped y ∨ y.1 = n ∧ y.2 < image.length := by
    intro y
    have hnum : m'.numPages = w.machine.numPages ++ [image.length] := congrArg (· ++ [image.length]) hl.numPages
    rw [Mapped, Mapped, hnum]
    rcases lt_trichotomy y.1 n with hy | hy | hy
    · rw [List.getD_append _ _ _ _ hy]
      exact ⟨.inl, fun h => h.resolve_right fun h => hy.ne h.1⟩
    · rw [hy, List.getD_append_right _ _ _ _ hn.ge, List.getD_eq_default _ _ hn.ge]
      simp [hn]
    · rw [List.getD_eq_default _ _ hy.le, List.getD_eq_default _ _ (by simp; omega)]
      simp [hy.ne']
  have hold : ∀ {y}, w.machine.Mapped y → y.1 ≠ n := by
    intro y hy heq
    rw [Mapped, heq, List.getD_eq_default _ _ hn.ge] at hy
    exact absurd hy (Nat.not_lt_zero _)
  have hkeep : ∀ {y}, w.machine.Mapped y → m'.pageTable y = w.machine.pageTable y :=
    fun hy => hl.others _ (.inl (hold hy))
  have hnew : ∀ {y : EntryPtr}, y.1 = n ∧ y.2 < image.length →
      m'.pageTable y = ⟨w.machine.swapSpaceCounter + y.2, -1, false, false, false, false⟩ := by
    intro y hy
    have he := hl.entry y.2 hy.2
    rw [zero_add] at he
    rw [show y = (n, y.2) from Prod.ext hy.1 rfl]
    exact he
  have hres : ∀ {y}, m'.Resident y ↔ w.machine.Resident y := by
    intro y
    rw [Resident, Resident, hmap]
    constructor
    · rintro ⟨hy | hy, hv⟩
      · exact ⟨hy, hkeep hy ▸ hv⟩
      · rw [hnew hy] at hv
        exact absurd hv (by simp)
    · rintro ⟨hy, hv⟩
      exact ⟨.inl hy, by rw [hkeep hy]; exact hv⟩
  have hphys : ∀ {y}, w.machine.Resident y → m'.pageTable y = w.machine.pageTable y := fun hy => hkeep hy.1
  have hframe : m'.frame = w.machine.frame := by
    funext p j
    exact congrFun hl.mainMemory _
  constructor
  · intro y z hy hz heq
    rcases hmap.mp hy with hy | hy <;> rcases hmap.mp hz with hz | hz
    · rw [hkeep hy, hkeep hz] at heq
      exact h.slots hy hz heq
    · rw [hkeep hy, hnew hz] at heq
      have := h.counter hy
      dsimp only at heq
      omega
    · rw [hnew hy, hkeep hz] at heq
      have := h.counter hz
      dsimp only at heq
      omega
    · rw [hnew hy, hnew hz] at heq
      dsimp only at heq
      exact Prod.ext (hy.1.trans hz.1.symm) (by omega)
  · intro y hy
    rw [show m'.swapSpaceCounter = _ from hl.counter]
    rcases hmap.mp hy with hy | hy
    · rw [hkeep hy]
      have := h.counter hy
      omega
    · rw [hnew hy]
      dsimp only
      omega
  · intro y hy
    rcases hmap.mp hy with hy | hy
    · rw [hkeep hy]
      exact h.writable hy
    · rw [hnew hy]
  · intro y hy
    rw [hphys (hres.mp hy)]
    exact h.bounds (hres.mp hy)
  · intro y z hy hz heq
    rw [hphys (hres.mp hy), hphys (hres.mp hz)] at heq
    exact h.frames (hres.mp hy) (hres.mp hz) heq
  · intro i hi
    rw [show m'.freeMap = _ from hl.freeMap, h.marked hi]
    refine exists_congr fun y => ?_
    rw [hres]
    exact and_congr_right fun hy => by rw [hphys hy]
  · intro y
    rw [show m'.fifoEntryList = _ from hl.fifoEntryList, hres]
    exact h.listed
  · rw [show m'.fifoEntryList = _ from hl.fifoEntryList]
    exact h.nodup
  · intro a ppn page ht
    obtain ⟨hr, hp⟩ := h.fetch ht
    rw [hres, hphys hr]
    exact ⟨hr, hp⟩
  · intro a victim ppn copy page ht
    obtain ⟨hr, hp, hc, hm, hv, hnf⟩ := h.evict ht
    rw [hres, hphys hr, hframe, hkeep hm]
    exact ⟨hr, hp, hc, hmap.mpr (.inl hm), hv, hnf⟩
  · exact h.victims
  · intro y hy hf j
    have hy := hres.mp hy
    rw [hphys hy, hframe, Function.update_of_ne (hold hy.1)]
    exact h.inMemory hy hf j
  · intro y hy hf j
    rw [show m'.swapSpace = (loadPages n image 0 w.machine).swapSpace from rfl]
    rcases hmap.mp hy with hy | hy
    · rw [hkeep hy] at hf ⊢
      rw [hl.below _ (h.counter hy), Function.update_of_ne (hold hy)]
      exact h.inSwap hy hf j
    · rw [hnew hy]
      dsimp only
      rw [hl.slot y.2 hy.2, show Function.update flat n (imageByte image) y.1 = imageByte image from
        hy.1 ▸ Function.update_self ..,
        imageByte_page image hy.2]

lemma start_consistent (swapSpace : ℤ → Page) (flat : FlatMemory) :
    Consistent ⟨start swapSpace, fun _ => none⟩ flat := by
  have hmap : ∀ {y}, ¬(start swapSpace).Mapped y := by
    intro y hy
    exact absurd hy (Nat.not_lt_zero _)
  have hres : ∀ {y}, ¬(start swapSpace).Resident y := fun hy => hmap hy.1
  constructor
  · exact fun hy => absurd hy hmap
  · exact fun hy => absurd hy hmap
  · exact fun hy => absurd hy hmap
  · exact fun hy => absurd hy hres
  · exact fun hy => absurd hy hres
  · intro i hi
    refine iff_of_false ?_ fun ⟨y, hy, _⟩ => hres hy
    have hfree : i ∈ (Bitmap.empty NumPhysPages).free := by
      rw [Bitmap.free_empty]
      exact List.mem_range.mpr hi
    rw [show (start swapSpace).freeMap = .empty NumPhysPages from rfl, (Bitmap.mem_free.mp hfree).2]
    exact Bool.false_ne_true
  · exact iff_of_false List.not_mem_nil fun hy => hres hy.1
  · exact List.nodup_nil
  · exact fun ht => absurd ht (by simp)
  · exact fun ht => absurd ht (by simp)
  · exact fun ht => absurd ht (by simp)
  · exact fun hy => absurd hy hres
  · exact fun hy => absurd hy hmap

end World

end NachosFileSys
