import NachosFileSys.Machine
import NachosFileSys.Lib.Runs

namespace NachosFileSys

open Lib.Bytes Lib.Runs

abbrev FlatMemory := ℕ → ℤ → Byte

lemma fetchData_congr {memory memory' : ℤ → Byte} {a a' size : ℤ}
    (h : ∀ i, 0 ≤ i → i < size → memory (a + i) = memory' (a' + i)) :
    fetchData memory a size = fetchData memory' a' size := by
  rw [fetchData, fetchData]
  split
  · rename_i h1
    have h₀ := h 0 le_rfl (by omega)
    rw [add_zero, add_zero] at h₀
    rw [h₀]
  · split
    · rename_i h2
      have h₀ := h 0 le_rfl (by omega)
      rw [add_zero, add_zero] at h₀
      rw [h₀, h 1 (by omega) (by omega)]
    · split
      · rename_i h4
        have hw : (fun c : ℕ => memory (a + c)) 0 = memory' (a' + (0 : ℕ)) ∧
            memory (a + (1 : ℕ)) = memory' (a' + (1 : ℕ)) ∧
            memory (a + (2 : ℕ)) = memory' (a' + (2 : ℕ)) ∧ memory (a + (3 : ℕ)) = memory' (a' + (3 : ℕ)) :=
          ⟨h _ (by omega) (by omega), h _ (by omega) (by omega),
              h _ (by omega) (by omega), h _ (by omega) (by omega)⟩
        simp only [wordOf]
        rw [hw.2.1, hw.2.2.1, hw.2.2.2]
        simp only at hw
        rw [hw.1]
      · rfl

def stored (memory : ℤ → Byte) (address size value : ℤ) : ℤ → Byte :=
  fun a => if address ≤ a ∧ a < address + size then byteOf (BitVec.ofInt 32 value) (a - address).toNat else
      memory a

lemma storeData_ok {memory : ℤ → Byte} {address size value : ℤ} (h : size = 1 ∨ size = 2 ∨ size = 4) :
    storeData memory address size value = .ok (stored memory address size value) := by
  rw [storeData, if_pos h]
  rfl

structure InRange (numPages : ℕ) (addr size : ℤ) : Prop where
  nonneg : 0 ≤ addr
  int : addr < 2 ^ 31
  inside : addr + size ≤ 128 * (numPages : ℤ)
  aligned : size = 1 ∨ (size = 2 ∧ addr % 2 = 0) ∨ (size = 4 ∧ addr % 4 = 0)

namespace PagedMachine

def Mapped (m : PagedMachine) (x : EntryPtr) : Prop := x.2 < m.numPages.getD x.1 0

def Resident (m : PagedMachine) (x : EntryPtr) : Prop := m.Mapped x ∧ (m.pageTable x).valid = true

end PagedMachine

structure World where
  machine : PagedMachine
  transfer : ℕ → Option PagedMachine.Transfer

namespace World

open PagedMachine

def Fetching (w : World) (x : EntryPtr) : Prop := ∃ ppn, w.transfer x.1 = some (.fetching ppn x.2)

def Evicting (w : World) (x : EntryPtr) : Prop :=
  ∃ a ppn copy page, w.transfer a = some (.evicting x ppn copy page)

/-- The pages of the address spaces are in frames of their own, in slots of their own, or on their way, and
hold the bytes of `flat`. -/
structure Consistent (w : World) (flat : FlatMemory) : Prop where
  slots : ∀ {x y}, w.machine.Mapped x → w.machine.Mapped y →
    (w.machine.pageTable x).virtualPage = (w.machine.pageTable y).virtualPage → x = y
  counter : ∀ {x}, w.machine.Mapped x → (w.machine.pageTable x).virtualPage < w.machine.swapSpaceCounter
  writable : ∀ {x}, w.machine.Mapped x → (w.machine.pageTable x).readOnly = false
  bounds : ∀ {x}, w.machine.Resident x → 0 ≤ (w.machine.pageTable x).physicalPage ∧
    (w.machine.pageTable x).physicalPage < (NumPhysPages : ℤ)
  frames : ∀ {x y}, w.machine.Resident x → w.machine.Resident y →
    (w.machine.pageTable x).physicalPage = (w.machine.pageTable y).physicalPage → x = y
  marked : ∀ {i : ℕ}, i < NumPhysPages →
    (w.machine.freeMap.bit i = true ↔ ∃ x, w.machine.Resident x ∧ (w.machine.pageTable x).physicalPage = i)
  listed : ∀ {x}, x ∈ w.machine.fifoEntryList ↔ w.machine.Resident x ∧ ¬w.Fetching x ∧ ¬w.Evicting x
  nodup : w.machine.fifoEntryList.Nodup
  fetch : ∀ {a ppn page}, w.transfer a = some (.fetching ppn page) →
    w.machine.Resident (a, page) ∧ (w.machine.pageTable (a, page)).physicalPage = ppn
  evict : ∀ {a victim ppn copy page}, w.transfer a = some (.evicting victim ppn copy page) →
    w.machine.Resident victim ∧ (w.machine.pageTable victim).physicalPage = ppn ∧ copy = w.machine.frame ppn ∧
    w.machine.Mapped (a, page) ∧ (w.machine.pageTable (a, page)).valid = false ∧ ¬w.Fetching victim
  victims : ∀ {a b victim ppn copy page ppn' copy' page'}, w.transfer a = some (.evicting victim ppn copy page) →
    w.transfer b = some (.evicting victim ppn' copy' page') → a = b
  inMemory : ∀ {x}, w.machine.Resident x → ¬w.Fetching x → ∀ j : Fin 128,
    w.machine.frame (w.machine.pageTable x).physicalPage j = flat x.1 (x.2 * 128 + j.val)
  inSwap : ∀ {x}, w.machine.Mapped x → (w.machine.pageTable x).valid = false ∨ w.Fetching x → ∀ j : Fin 128,
    w.machine.swapSpace (w.machine.pageTable x).virtualPage j = flat x.1 (x.2 * 128 + j.val)

variable {w : World} {flat : FlatMemory} {a page : ℕ}

lemma Consistent.setBits (h : w.Consistent flat) (x : EntryPtr) (use dirty : Bool) :
    Consistent ⟨w.machine.setEntry x { w.machine.pageTable x with use := use, dirty := dirty }, w.transfer⟩
    flat := by
  set m' := w.machine.setEntry x { w.machine.pageTable x with use := use, dirty := dirty } with hm'
  have hentry : ∀ y, (m'.pageTable y).virtualPage = (w.machine.pageTable y).virtualPage ∧
      (m'.pageTable y).physicalPage = (w.machine.pageTable y).physicalPage ∧
      (m'.pageTable y).valid = (w.machine.pageTable y).valid ∧
      (m'.pageTable y).readOnly = (w.machine.pageTable y).readOnly := by
    intro y
    rw [hm', setEntry]
    dsimp only
    by_cases hy : y = x
    · rw [hy, Function.update_self]
      exact ⟨rfl, rfl, rfl, rfl⟩
    · rw [Function.update_of_ne hy]
      exact ⟨rfl, rfl, rfl, rfl⟩
  have hres : ∀ {y}, m'.Resident y ↔ w.machine.Resident y :=
    fun {y} => and_congr Iff.rfl (by rw [(hentry y).2.2.1])
  constructor
  · intro y z hy hz heq
    rw [(hentry y).1, (hentry z).1] at heq
    exact h.slots hy hz heq
  · intro y hy
    rw [(hentry y).1]
    exact h.counter hy
  · intro y hy
    rw [(hentry y).2.2.2]
    exact h.writable hy
  · intro y hy
    rw [(hentry y).2.1]
    exact h.bounds (hres.mp hy)
  · intro y z hy hz heq
    rw [(hentry y).2.1, (hentry z).2.1] at heq
    exact h.frames (hres.mp hy) (hres.mp hz) heq
  · intro i hi
    refine (h.marked hi).trans (exists_congr fun y => ?_)
    rw [hres, (hentry y).2.1]
  · intro y
    rw [hres]
    exact h.listed
  · exact h.nodup
  · intro a ppn page ht
    rw [hres, (hentry _).2.1]
    exact h.fetch ht
  · intro a victim ppn copy page ht
    rw [hres, (hentry _).2.1, (hentry _).2.2.1]
    exact h.evict ht
  · exact h.victims
  · intro y hy hf
    rw [(hentry y).2.1]
    exact h.inMemory (hres.mp hy) hf
  · intro y hy hf
    rw [(hentry y).2.2.1] at hf
    rw [(hentry y).1]
    exact h.inSwap hy hf

lemma fetching_update {t : Transfer} {x : EntryPtr} (m : PagedMachine) (hx : x.1 ≠ a) :
    Fetching ⟨m, Function.update w.transfer a (some t)⟩ x ↔ w.Fetching x := by
  rw [Fetching, Fetching]
  dsimp only
  rw [Function.update_of_ne hx]

lemma not_fetching {x : EntryPtr} (h : w.transfer x.1 = none) : ¬w.Fetching x := by
  rintro ⟨ppn, hf⟩
  rw [h] at hf
  exact absurd hf (by simp)

/-- The machine `m'` is `m` but for the frame of the entry `x` and for what the pages hold. -/
structure Reframed (m m' : PagedMachine) (x : EntryPtr) : Prop where
  others {y : EntryPtr} (hy : y ≠ x) : m'.pageTable y = m.pageTable y
  slot (y : EntryPtr) : (m'.pageTable y).virtualPage = (m.pageTable y).virtualPage
  readOnly (y : EntryPtr) : (m'.pageTable y).readOnly = (m.pageTable y).readOnly
  numPages : m'.numPages = m.numPages
  counter : m'.swapSpaceCounter = m.swapSpaceCounter

lemma reframed_setEntry (m : PagedMachine) (swap : ℤ → Page) (freeMap : Bitmap NumPhysPages) (x : EntryPtr)
    {entry : TranslationEntry} (hslot : entry.virtualPage = (m.pageTable x).virtualPage)
    (hread : entry.readOnly = (m.pageTable x).readOnly) :
    Reframed m ({ m with swapSpace := swap, freeMap := freeMap }.setEntry x entry) x := by
  have hother : ∀ {y}, y ≠ x → ({ m with swapSpace := swap, freeMap := freeMap }.setEntry x entry).pageTable y =
      m.pageTable y :=
    fun hy => Function.update_of_ne hy ..
  have hself : ({ m with swapSpace := swap, freeMap := freeMap }.setEntry x entry).pageTable x = entry :=
    Function.update_self ..
  refine ⟨hother, fun y => ?_, fun y => ?_, rfl, rfl⟩
  · by_cases hy : y = x
    · rw [hy, hself, hslot]
    · rw [hother hy]
  · by_cases hy : y = x
    · rw [hy, hself, hread]
    · rw [hother hy]

namespace Reframed

variable {m m' : PagedMachine} {x y : EntryPtr}

lemma mapped (h : Reframed m m' x) : m'.Mapped y ↔ m.Mapped y := by rw [Mapped, Mapped, h.numPages]

lemma resident (h : Reframed m m' x) (hy : y ≠ x) : m'.Resident y ↔ m.Resident y := by
  rw [Resident, Resident, h.mapped, h.others hy]

end Reframed

section Reframed

variable {m' : PagedMachine} {x : EntryPtr} {i : ℕ} {freeMap : Bitmap NumPhysPages}

lemma Consistent.slots_reframed (h : w.Consistent flat) (hm : Reframed w.machine m' x) :
    (∀ {y z}, m'.Mapped y → m'.Mapped z → (m'.pageTable y).virtualPage = (m'.pageTable z).virtualPage → y = z) ∧
    (∀ {y}, m'.Mapped y → (m'.pageTable y).virtualPage < m'.swapSpaceCounter) ∧
    ∀ {y}, m'.Mapped y → (m'.pageTable y).readOnly = false := by
  refine ⟨fun hy hz heq => ?_, fun hy => ?_, fun hy => ?_⟩
  · rw [hm.slot, hm.slot] at heq
    exact h.slots (hm.mapped.mp hy) (hm.mapped.mp hz) heq
  · rw [hm.slot, hm.counter]
    exact h.counter (hm.mapped.mp hy)
  · rw [hm.readOnly]
    exact h.writable (hm.mapped.mp hy)

lemma Consistent.frames_taken (h : w.Consistent flat) (hm : Reframed w.machine m' x) (hi : i < NumPhysPages)
    (hfree : w.machine.freeMap.bit i = false) (hx : m'.Resident x) (hp : (m'.pageTable x).physicalPage = i)
    (hnot : ¬w.machine.Resident x)
    (hbit : ∀ j < NumPhysPages, freeMap.bit j = (w.machine.freeMap.bit j || decide (j = i))) :
    (∀ {y z}, m'.Resident y → m'.Resident z → (m'.pageTable y).physicalPage = (m'.pageTable z).physicalPage →
    y = z) ∧
    ∀ {j : ℕ}, j < NumPhysPages →
      (freeMap.bit j = true ↔ ∃ y, m'.Resident y ∧ (m'.pageTable y).physicalPage = j) := by
  have hfresh : ∀ {y}, w.machine.Resident y → (w.machine.pageTable y).physicalPage ≠ i := by
    intro y hy hp
    have := (h.marked hi).mpr ⟨y, hy, hp⟩
    rw [hfree] at this
    exact absurd this (by simp)
  refine ⟨fun {y z} hy hz heq => ?_, fun {j} hj => ?_⟩
  · by_cases hyx : y = x <;> by_cases hzx : z = x
    · rw [hyx, hzx]
    · rw [hyx, hp, hm.others hzx] at heq
      exact absurd heq.symm (hfresh ((hm.resident hzx).mp hz))
    · rw [hzx, hp, hm.others hyx] at heq
      exact absurd heq (hfresh ((hm.resident hyx).mp hy))
    · rw [hm.others hyx, hm.others hzx] at heq
      exact h.frames ((hm.resident hyx).mp hy) ((hm.resident hzx).mp hz) heq
  · rw [hbit j hj, Bool.or_eq_true, decide_eq_true_eq, h.marked hj]
    constructor
    · rintro (⟨y, hy, hp⟩ | rfl)
      · have hyx : y ≠ x := fun heq => hnot (heq ▸ hy)
        exact ⟨y, (hm.resident hyx).mpr hy, by rw [hm.others hyx, hp]⟩
      · exact ⟨x, hx, hp⟩
    · rintro ⟨y, hy, hpy⟩
      by_cases hyx : y = x
      · rw [hyx, hp] at hpy
        exact .inr (Int.ofNat_inj.mp hpy).symm
      · rw [hm.others hyx] at hpy
        exact .inl ⟨y, (hm.resident hyx).mp hy, hpy⟩

lemma Consistent.frames_left (h : w.Consistent flat) (hm : Reframed w.machine m' x) (hnot : ¬m'.Resident x)
    (hx : w.machine.Resident x) (hp : (w.machine.pageTable x).physicalPage = i)
    (hbit : ∀ j < NumPhysPages, freeMap.bit j = (w.machine.freeMap.bit j && decide (j ≠ i))) :
    (∀ {y z}, m'.Resident y → m'.Resident z → (m'.pageTable y).physicalPage = (m'.pageTable z).physicalPage →
    y = z) ∧
    ∀ {j : ℕ}, j < NumPhysPages →
      (freeMap.bit j = true ↔ ∃ y, m'.Resident y ∧ (m'.pageTable y).physicalPage = j) := by
  have hne : ∀ {y}, m'.Resident y → y ≠ x := fun hy heq => hnot (heq ▸ hy)
  refine ⟨fun {y z} hy hz heq => ?_, fun {j} hj => ?_⟩
  · rw [hm.others (hne hy), hm.others (hne hz)] at heq
    exact h.frames ((hm.resident (hne hy)).mp hy) ((hm.resident (hne hz)).mp hz) heq
  · rw [hbit j hj, Bool.and_eq_true, decide_eq_true_eq, h.marked hj]
    constructor
    · rintro ⟨⟨y, hy, hpy⟩, hji⟩
      have hyx : y ≠ x := by
        intro heq
        rw [heq, hp] at hpy
        exact hji (Int.ofNat_inj.mp hpy).symm
      exact ⟨y, (hm.resident hyx).mpr hy, by rw [hm.others hyx, hpy]⟩
    · rintro ⟨y, hy, hpy⟩
      rw [hm.others (hne hy)] at hpy
      have hold := (hm.resident (hne hy)).mp hy
      refine ⟨⟨y, hold, hpy⟩, fun heq => hne hy (h.frames hold hx ?_)⟩
      rw [hpy, hp, heq]

end Reframed

section Starting

variable {m' : PagedMachine} {ppn : ℤ}

lemma fetching_start {y : EntryPtr} (ha : w.transfer a = none) (hy : y ≠ (a, page)) :
    Fetching ⟨m', Function.update w.transfer a (some (.fetching ppn page))⟩ y ↔ w.Fetching y := by
  by_cases hya : y.1 = a
  · refine iff_of_false ?_ (not_fetching (hya ▸ ha))
    rintro ⟨ppn', hf⟩
    have hf : Function.update w.transfer a (some (.fetching ppn page)) a = some (.fetching ppn' y.2) := hya ▸ hf
    rw [Function.update_self] at hf
    simp only [Option.some.injEq, Transfer.fetching.injEq] at hf
    exact hy (Prod.ext hya hf.2.symm)
  · exact fetching_update m' hya

lemma transfer_start {b q : ℕ} {victim : EntryPtr} {ppn' : ℤ} {copy : Page} (ha : w.transfer a = none) :
    Function.update w.transfer a (some (.fetching ppn page)) b = some (.evicting victim ppn' copy q) ↔
      w.transfer b = some (.evicting victim ppn' copy q) := by
  by_cases hb : b = a
  · rw [hb, Function.update_self, ha]
    simp
  · rw [Function.update_of_ne hb]

end Starting

lemma Consistent.takeFrame {i : ℕ} {freeMap : Bitmap NumPhysPages}
    (h : w.Consistent flat) (ha : w.transfer a = none)
    (hm : w.machine.Mapped (a, page)) (hv : (w.machine.pageTable (a, page)).valid = false) (hi : i < NumPhysPages)
    (hfree : w.machine.freeMap.bit i = false)
    (hbit : ∀ j < NumPhysPages, freeMap.bit j = (w.machine.freeMap.bit j || decide (j = i))) :
    Consistent ⟨{ w.machine with freeMap := freeMap }.setEntry (a, page)
        { w.machine.pageTable (a, page) with physicalPage := i, valid := true },
      Function.update w.transfer a (some (.fetching i page))⟩ flat := by
  set x : EntryPtr := (a, page) with hx
  set m' := { w.machine with freeMap := freeMap }.setEntry x
    { w.machine.pageTable x with physicalPage := i, valid := true } with hm'
  have hr : Reframed w.machine m' x := reframed_setEntry w.machine w.machine.swapSpace freeMap x rfl rfl
  have hself : m'.pageTable x = { w.machine.pageTable x with physicalPage := i, valid := true } :=
    Function.update_self ..
  have hresx : m'.Resident x := ⟨hm, by rw [hself]⟩
  have hnot : ¬w.machine.Resident x := fun hr => by
    have := hr.2
    rw [hv] at this
    exact absurd this (by simp)
  set t' := Function.update w.transfer a (some (.fetching (i : ℤ) page)) with ht'
  have hfx : Fetching ⟨m', t'⟩ x := ⟨i, Function.update_self ..⟩
  have hfetching : ∀ {y}, y ≠ x → (Fetching ⟨m', t'⟩ y ↔ w.Fetching y) := fun hy => fetching_start ha hy
  have hevicting : ∀ {y}, Evicting ⟨m', t'⟩ y ↔ w.Evicting y := fun {y} =>
    exists_congr fun b => exists_congr fun ppn => exists_congr fun copy => exists_congr fun q => transfer_start ha
  obtain ⟨hslots, hcounter, hwritable⟩ := h.slots_reframed hr
  obtain ⟨hframes, hmarked⟩ := h.frames_taken hr hi hfree hresx (by rw [hself]) hnot hbit
  constructor
  · exact hslots
  · exact hcounter
  · exact hwritable
  · intro y hy
    by_cases hyx : y = x
    · rw [hyx, hself]
      exact ⟨Int.natCast_nonneg i, Int.ofNat_lt.mpr hi⟩
    · rw [hr.others hyx]
      exact h.bounds ((hr.resident hyx).mp hy)
  · exact hframes
  · exact hmarked
  · intro y
    rw [show m'.fifoEntryList = w.machine.fifoEntryList from rfl, h.listed]
    by_cases hyx : y = x
    · rw [hyx]
      exact iff_of_false (fun hl => hnot hl.1) (fun hl => hl.2.1 hfx)
    · rw [hr.resident hyx, hfetching hyx, hevicting]
  · exact h.nodup
  · intro b ppn q ht
    have ht : t' b = some (.fetching ppn q) := ht
    by_cases hb : b = a
    · rw [hb, ht', Function.update_self] at ht
      simp only [Option.some.injEq, Transfer.fetching.injEq] at ht
      rw [hb, ← ht.2, ← ht.1]
      exact ⟨hresx, by rw [hself]⟩
    · rw [ht', Function.update_of_ne hb] at ht
      have hne : (b, q) ≠ x := fun heq => hb (congrArg Prod.fst heq)
      rw [hr.resident hne, hr.others hne]
      exact h.fetch ht
  · intro b victim ppn copy q ht
    have hw := (transfer_start ha).mp ht
    obtain ⟨hres, hp, hc, hmb, hvb, hnf⟩ := h.evict hw
    have hne : victim ≠ x := fun heq => hnot (heq ▸ hres)
    have hba : b ≠ a := by
      intro heq
      rw [heq, ha] at hw
      exact absurd hw (by simp)
    have hne' : (b, q) ≠ x := fun heq => hba (congrArg Prod.fst heq)
    rw [hr.resident hne, hr.others hne, hr.others hne', hfetching hne]
    exact ⟨hres, hp, hc, hmb, hvb, hnf⟩
  · intro b c victim ppn copy q ppn' copy' q' ht ht'
    exact h.victims ((transfer_start ha).mp ht) ((transfer_start ha).mp ht')
  · intro y hy hnf
    have hyx : y ≠ x := fun heq => hnf (heq ▸ hfx)
    rw [hr.others hyx]
    exact h.inMemory ((hr.resident hyx).mp hy) (mt (hfetching hyx).mpr hnf)
  · intro y hy hf
    rw [hr.slot y]
    refine h.inSwap hy ?_
    by_cases hyx : y = x
    · exact .inl (hyx ▸ hv)
    · rw [hr.others hyx, hfetching hyx] at hf
      exact hf

lemma Consistent.chooseVictim {victim : EntryPtr} {rest : List EntryPtr}
    (h : w.Consistent flat) (ha : w.transfer a = none)
    (hm : w.machine.Mapped (a, page)) (hv : (w.machine.pageTable (a, page)).valid = false)
    (hl : w.machine.fifoEntryList = victim :: rest) :
    Consistent ⟨{ w.machine with fifoEntryList := rest }, Function.update w.transfer a (some (.evicting victim
      (w.machine.pageTable victim).physicalPage
      (w.machine.frame (w.machine.pageTable victim).physicalPage) page))⟩ flat := by
  set m' := { w.machine with fifoEntryList := rest } with hm'
  set t := Transfer.evicting victim (w.machine.pageTable victim).physicalPage
    (w.machine.frame (w.machine.pageTable victim).physicalPage) page with ht
  set t' := Function.update w.transfer a (some t) with ht'
  obtain ⟨hvr, hvf, hve⟩ := h.listed.mp (hl ▸ List.mem_cons_self : victim ∈ w.machine.fifoEntryList)
  have hnd := List.nodup_cons.mp (hl ▸ h.nodup)
  have hfetching : ∀ {y}, Fetching ⟨m', t'⟩ y ↔ w.Fetching y := by
    intro y
    by_cases hya : y.1 = a
    · refine iff_of_false ?_ (not_fetching (hya ▸ ha))
      rintro ⟨ppn, hf⟩
      have hf : t' a = some (.fetching ppn y.2) := hya ▸ hf
      rw [ht', Function.update_self, ht] at hf
      exact absurd hf (by simp)
    · exact fetching_update m' hya
  have hevicting : ∀ {y}, Evicting ⟨m', t'⟩ y ↔ y = victim ∨ w.Evicting y := by
    intro y
    constructor
    · rintro ⟨b, ppn, copy, q, hb⟩
      have hb : t' b = some (.evicting y ppn copy q) := hb
      by_cases hba : b = a
      · rw [hba, ht', Function.update_self, ht] at hb
        simp only [Option.some.injEq, Transfer.evicting.injEq] at hb
        exact .inl hb.1.symm
      · rw [ht', Function.update_of_ne hba] at hb
        exact .inr ⟨b, ppn, copy, q, hb⟩
    · rintro (rfl | ⟨b, ppn, copy, q, hb⟩)
      · exact ⟨a, _, _, _, Function.update_self ..⟩
      · have hba : b ≠ a := by
          intro heq
          rw [heq, ha] at hb
          exact absurd hb (by simp)
        exact ⟨b, ppn, copy, q, (Function.update_of_ne hba ..).trans hb⟩
  constructor
  · exact h.slots
  · exact h.counter
  · exact h.writable
  · exact h.bounds
  · exact h.frames
  · exact h.marked
  · intro y
    have hy : y ∈ w.machine.fifoEntryList ↔ _ := h.listed
    rw [hl, List.mem_cons] at hy
    rw [hfetching, hevicting, not_or]
    constructor
    · intro hyr
      have hyr : y ∈ rest := hyr
      obtain ⟨h1, h2, h3⟩ := hy.mp (.inr hyr)
      exact ⟨h1, h2, fun heq => hnd.1 (heq ▸ hyr), h3⟩
    · rintro ⟨h1, h2, h3, h4⟩
      exact (hy.mpr ⟨h1, h2, h4⟩).resolve_left h3
  · exact hnd.2
  · intro b ppn q hb
    have hb : t' b = some (.fetching ppn q) := hb
    have hba : b ≠ a := by
      intro heq
      rw [heq, ht', Function.update_self, ht] at hb
      exact absurd hb (by simp)
    rw [ht', Function.update_of_ne hba] at hb
    exact h.fetch hb
  · intro b y ppn copy q hb
    have hb : t' b = some (.evicting y ppn copy q) := hb
    by_cases hba : b = a
    · rw [hba, ht', Function.update_self, ht] at hb
      simp only [Option.some.injEq, Transfer.evicting.injEq] at hb
      obtain ⟨rfl, rfl, rfl, rfl⟩ := hb
      rw [hba, hfetching]
      exact ⟨hvr, rfl, rfl, hm, hv, hvf⟩
    · rw [ht', Function.update_of_ne hba] at hb
      rw [hfetching]
      exact h.evict hb
  · intro b c y ppn copy q ppn' copy' q' hb hc
    have hb : t' b = some (.evicting y ppn copy q) := hb
    have hc : t' c = some (.evicting y ppn' copy' q') := hc
    by_cases hba : b = a <;> by_cases hca : c = a
    · rw [hba, hca]
    · rw [hba, ht', Function.update_self, ht] at hb
      rw [ht', Function.update_of_ne hca] at hc
      simp only [Option.some.injEq, Transfer.evicting.injEq] at hb
      exact absurd ⟨c, _, _, _, hb.1 ▸ hc⟩ hve
    · rw [ht', Function.update_of_ne hba] at hb
      rw [hca, ht', Function.update_self, ht] at hc
      simp only [Option.some.injEq, Transfer.evicting.injEq] at hc
      exact absurd ⟨b, _, _, _, hc.1 ▸ hb⟩ hve
    · rw [ht', Function.update_of_ne hba] at hb
      rw [ht', Function.update_of_ne hca] at hc
      exact h.victims hb hc
  · intro y hy hf
    exact h.inMemory hy (mt hfetching.mpr hf)
  · intro y hy hf
    rw [hfetching] at hf
    exact h.inSwap hy hf

section Stopping

variable {m' : PagedMachine} {victim : EntryPtr} {ppn : ℤ} {copy : Page}

lemma fetching_stop {y : EntryPtr} (ha : w.transfer a = some (.evicting victim ppn copy page)) :
    Fetching ⟨m', Function.update w.transfer a none⟩ y ↔ w.Fetching y := by
  rw [Fetching, Fetching]
  dsimp only
  by_cases hya : y.1 = a
  · rw [hya, ha, Function.update_self]
    simp
  · rw [Function.update_of_ne hya]

lemma transfer_stop {b : ℕ} {t : Transfer} (h : Function.update w.transfer a none b = some t) :
    b ≠ a ∧ w.transfer b = some t := by
  have hba : b ≠ a := by
    intro heq
    rw [heq, Function.update_self] at h
    cases h
  rw [Function.update_of_ne hba] at h
  exact ⟨hba, h⟩

lemma Consistent.evicting_stop (h : w.Consistent flat) {y : EntryPtr}
    (ha : w.transfer a = some (.evicting victim ppn copy page)) :
    Evicting ⟨m', Function.update w.transfer a none⟩ y ↔ w.Evicting y ∧ y ≠ victim := by
  constructor
  · rintro ⟨b, ppn, copy, q, hb⟩
    obtain ⟨hba, hb⟩ := transfer_stop hb
    exact ⟨⟨b, _, _, _, hb⟩, fun heq => hba (h.victims (heq ▸ hb) ha)⟩
  · rintro ⟨⟨b, ppn, copy, q, hb⟩, hy⟩
    have hba : b ≠ a := by
      intro heq
      rw [heq, ha] at hb
      simp only [Option.some.injEq, Transfer.evicting.injEq] at hb
      exact hy hb.1.symm
    exact ⟨b, ppn, copy, q, (Function.update_of_ne hba ..).trans hb⟩

end Stopping

lemma Consistent.unload {victim : EntryPtr} {ppn : ℤ} {copy : Page} {i : ℕ} {freeMap : Bitmap NumPhysPages}
    (h : w.Consistent flat) (ha : w.transfer a = some (.evicting victim ppn copy page)) (hi : ppn = i)
    (hbit : ∀ j < NumPhysPages, freeMap.bit j = (w.machine.freeMap.bit j && decide (j ≠ i))) :
    Consistent ⟨{ w.machine with
          swapSpace := Function.update w.machine.swapSpace (w.machine.pageTable victim).virtualPage copy
          freeMap := freeMap }.setEntry victim
        { w.machine.pageTable victim with physicalPage := -1, valid := false },
      Function.update w.transfer a none⟩ flat := by
  obtain ⟨hvr, hvp, hcopy, -, -, hvf⟩ := h.evict ha
  set swap := Function.update w.machine.swapSpace (w.machine.pageTable victim).virtualPage copy with hswap
  set m' := { w.machine with swapSpace := swap, freeMap := freeMap }.setEntry victim
    { w.machine.pageTable victim with physicalPage := -1, valid := false } with hm'
  have hr : Reframed w.machine m' victim := reframed_setEntry w.machine swap freeMap victim rfl rfl
  have hself : m'.pageTable victim = { w.machine.pageTable victim with physicalPage := -1, valid := false } :=
    Function.update_self ..
  have hnot : ¬m'.Resident victim := fun hr => by
    have := hr.2
    rw [hself] at this
    exact absurd this (by simp)
  have hres : ∀ {y}, m'.Resident y ↔ w.machine.Resident y ∧ y ≠ victim := by
    intro y
    by_cases hy : y = victim
    · exact iff_of_false (hy ▸ hnot) (fun hr => hr.2 hy)
    · rw [hr.resident hy]
      exact ⟨fun hr => ⟨hr, hy⟩, fun hr => hr.1⟩
  obtain ⟨hslots, hcounter, hwritable⟩ := h.slots_reframed hr
  obtain ⟨hframes, hmarked⟩ := h.frames_left hr hnot hvr (hvp.trans hi) hbit
  constructor
  · exact hslots
  · exact hcounter
  · exact hwritable
  · intro y hy
    obtain ⟨hy, hne⟩ := hres.mp hy
    rw [hr.others hne]
    exact h.bounds hy
  · exact hframes
  · exact hmarked
  · intro y
    rw [show m'.fifoEntryList = w.machine.fifoEntryList from
        rfl, h.listed, hres, fetching_stop ha, h.evicting_stop ha]
    constructor
    · rintro ⟨hy, hf, he⟩
      exact ⟨⟨hy, fun heq => he (heq ▸ ⟨a, _, _, _, ha⟩)⟩, hf, fun he' => he he'.1⟩
    · rintro ⟨⟨hy, hyv⟩, hf, he⟩
      exact ⟨hy, hf, fun he' => he ⟨he', hyv⟩⟩
  · exact h.nodup
  · intro b ppn' q hb
    obtain ⟨-, hb⟩ := transfer_stop hb
    have hne : (b, q) ≠ victim := fun heq => hvf (heq ▸ ⟨ppn', hb⟩)
    obtain ⟨hrb, hp⟩ := h.fetch hb
    rw [hres, hr.others hne]
    exact ⟨⟨hrb, hne⟩, hp⟩
  · intro b y ppn' copy' q hb
    obtain ⟨hba, hb⟩ := transfer_stop hb
    obtain ⟨hry, hp, hc, hmb, hvb, hnf⟩ := h.evict hb
    have hne : y ≠ victim := fun heq => hba (h.victims (heq ▸ hb) ha)
    have hne' : (b, q) ≠ victim := by
      intro heq
      rw [heq, hvr.2] at hvb
      exact absurd hvb (by simp)
    rw [hres, hr.others hne, hr.others hne', fetching_stop ha]
    exact ⟨⟨hry, hne⟩, hp, hc, hmb, hvb, hnf⟩
  · intro b c y ppn copy q ppn' copy' q' hb hc
    exact h.victims (transfer_stop hb).2 (transfer_stop hc).2
  · intro y hy hf
    obtain ⟨hy, hyv⟩ := hres.mp hy
    rw [hr.others hyv]
    exact h.inMemory hy (mt (fetching_stop ha).mpr hf)
  · intro y hy hf j
    rw [hr.slot y, show m'.swapSpace = swap from rfl, hswap]
    by_cases hyv : y = victim
    · rw [hyv, Function.update_self, hcopy, ← hvp]
      exact h.inMemory hvr hvf j
    · have hne : (w.machine.pageTable y).virtualPage ≠ (w.machine.pageTable victim).virtualPage :=
        fun heq => hyv (h.slots hy hvr.1 heq)
      rw [Function.update_of_ne hne]
      rw [hr.others hyv, fetching_stop ha] at hf
      exact h.inSwap hy hf j

lemma frame_setFrame (m : PagedMachine) (ppn : ℤ) (page : Page) : (m.setFrame ppn page).frame ppn = page := by
  funext j
  rw [frame, setFrame]
  dsimp only
  rw [dif_pos (by omega)]
  congr 1
  exact Fin.ext (by simp)

lemma frame_setFrame_of_ne (m : PagedMachine) {ppn ppn' : ℤ} (page : Page) (h : ppn' ≠ ppn) :
    (m.setFrame ppn page).frame ppn' = m.frame ppn' := by
  funext j
  rw [frame, setFrame]
  dsimp only
  rw [dif_neg (by omega)]
  rfl

lemma Consistent.arrive {ppn : ℤ} (h : w.Consistent flat) (ha : w.transfer a = some (.fetching ppn page)) :
    ∃ m', w.machine.finishFetch a ppn page = .ok m' ∧ Consistent ⟨m', Function.update w.transfer a none⟩ flat ∧
      m'.Resident (a, page) ∧ m'.numPages = w.machine.numPages := by
  set x : EntryPtr := (a, page) with hx
  obtain ⟨hxr, hxp⟩ := h.fetch ha
  have hxf : w.Fetching x := ⟨ppn, ha⟩
  have hxl : x ∉ w.machine.fifoEntryList := fun hl => (h.listed.mp hl).2.1 hxf
  refine ⟨_, if_neg hxl, ?_, hxr, rfl⟩
  set page' := w.machine.swapSpace (w.machine.pageTable x).virtualPage with hpage
  set m' := { w.machine.setFrame ppn page' with
    fifoEntryList := (w.machine.setFrame ppn page').fifoEntryList ++ [x] } with hm'
  set t' : ℕ → Option Transfer := Function.update w.transfer a none with ht'
  have hframe : ∀ {p}, p ≠ ppn → m'.frame p = w.machine.frame p :=
    fun hp => frame_setFrame_of_ne w.machine page' hp
  have hfetchingOf : ∀ {b p q}, t' b = some (.fetching p q) → b ≠ a ∧ w.transfer b = some (.fetching p q) := by
    intro b p q hb
    have hba : b ≠ a := by
      intro heq
      rw [heq, ht', Function.update_self] at hb
      exact absurd hb (by simp)
    rw [ht', Function.update_of_ne hba] at hb
    exact ⟨hba, hb⟩
  have hfetching : ∀ {y}, Fetching ⟨m', t'⟩ y ↔ w.Fetching y ∧ y ≠ x := by
    intro y
    constructor
    · rintro ⟨p, hb⟩
      obtain ⟨hya, hb⟩ := hfetchingOf hb
      exact ⟨⟨p, hb⟩, fun heq => hya (congrArg Prod.fst heq)⟩
    · rintro ⟨⟨p, hb⟩, hy⟩
      have hya : y.1 ≠ a := by
        intro heq
        rw [heq, ha] at hb
        simp only [Option.some.injEq, Transfer.fetching.injEq] at hb
        exact hy (Prod.ext heq hb.2.symm)
      exact ⟨p, (Function.update_of_ne hya ..).trans hb⟩
  have hevictingOf : ∀ {b y p copy q}, t' b = some (.evicting y p copy q) ↔
      w.transfer b = some (.evicting y p copy q) := by
    intro b y p copy q
    by_cases hba : b = a
    · rw [hba, ht', Function.update_self, ha]
      simp
    · rw [ht', Function.update_of_ne hba]
  have hevicting : ∀ {y}, Evicting ⟨m', t'⟩ y ↔ w.Evicting y := fun {y} =>
    exists_congr fun b => exists_congr fun p => exists_congr fun copy => exists_congr fun q => hevictingOf
  constructor
  · exact h.slots
  · exact h.counter
  · exact h.writable
  · exact h.bounds
  · exact h.frames
  · exact h.marked
  · intro y
    rw [hfetching, hevicting, show m'.fifoEntryList = w.machine.fifoEntryList ++ [x] from rfl, List.mem_append,
      List.mem_singleton, h.listed]
    constructor
    · rintro (⟨hy, hf, he⟩ | rfl)
      · exact ⟨hy, fun hf' => hf hf'.1, he⟩
      · refine ⟨hxr, fun hf' => hf'.2 rfl, ?_⟩
        rintro ⟨b, p, copy, q, hb⟩
        exact (h.evict hb).2.2.2.2.2 hxf
    · rintro ⟨hy, hf, he⟩
      by_cases hyx : y = x
      · exact .inr hyx
      · exact .inl ⟨hy, fun hf' => hf ⟨hf', hyx⟩, he⟩
  · exact List.nodup_append.mpr ⟨h.nodup, List.nodup_singleton x, fun y hy z hz => by
      rw [List.mem_singleton.mp hz]
      exact fun heq => hxl (heq ▸ hy)⟩
  · intro b p q hb
    exact h.fetch (hfetchingOf hb).2
  · intro b y p copy q hb
    obtain ⟨hr, hp, hc, hmb, hvb, hnf⟩ := h.evict (hevictingOf.mp hb)
    -- the frame of a victim is not the frame that is filled
    have hne : p ≠ ppn := by
      intro heq
      have hyx : y = x := h.frames hr hxr (by rw [hp, hxp, heq])
      exact hnf (hyx ▸ hxf)
    rw [hfetching, hframe hne]
    exact ⟨hr, hp, hc, hmb, hvb, fun hf => hnf hf.1⟩
  · intro b c y p copy q p' copy' q' hb hc
    exact h.victims (hevictingOf.mp hb) (hevictingOf.mp hc)
  · intro y hy hf j
    have hy : w.machine.Resident y := hy
    rw [show m'.pageTable = w.machine.pageTable from rfl]
    by_cases hyx : y = x
    · rw [hyx, hxp, show m'.frame ppn = page' from frame_setFrame w.machine ppn page']
      exact h.inSwap hxr.1 (.inr hxf) j
    · have hne : (w.machine.pageTable y).physicalPage ≠ ppn := fun heq => hyx (h.frames hy hxr (by rw [heq, hxp]))
      rw [hframe hne]
      exact h.inMemory hy (fun hf' => hf (hfetching.mpr ⟨hf', hyx⟩)) j
  · intro y hy hf
    refine h.inSwap hy (hf.imp id fun hf => (hfetching.mp hf).1)

lemma stored_of_lt {memory : ℤ → Byte} {address size value b : ℤ} (h : b < address ∨ address + size ≤ b) :
    stored memory address size value b = memory b := if_neg (by omega)

lemma stored_add (memory memory' : ℤ → Byte) {address address' size value i j : ℤ}
    (h : memory (address + j) = memory' (address' + j)) :
    stored memory (address + i) size value (address + j) =
    stored memory' (address' + i) size value (address' + j) := by
  rw [stored, stored]
  by_cases hj : i ≤ j ∧ j < i + size
  · rw [if_pos (by omega), if_pos (by omega)]
    congr 2
    omega
  · rw [if_neg (by omega), if_neg (by omega), h]

lemma Consistent.store {offset size : ℤ} (value : ℤ) (h : w.Consistent flat) (hr : w.machine.Resident (a, page))
    (hf : ¬w.Fetching (a, page)) (he : ¬w.Evicting (a, page)) (h0 : 0 ≤ offset) (h1 : offset + size ≤ 128) :
    Consistent ⟨{ w.machine with
          mainMemory :=
            stored w.machine.mainMemory ((w.machine.pageTable (a, page)).physicalPage * 128 + offset) size value },
        w.transfer⟩
      (Function.update flat a (stored (flat a) (page * 128 + offset) size value)) := by
  set x : EntryPtr := (a, page) with hx
  set p := (w.machine.pageTable x).physicalPage with hp
  set m' := { w.machine with mainMemory := stored w.machine.mainMemory (p * 128 + offset) size value } with hm'
  have hframe : ∀ {q}, q ≠ p → m'.frame q = w.machine.frame q := by
    intro q hq
    funext j
    exact stored_of_lt (by omega)
  have hflat : ∀ {y : EntryPtr}, y ≠ x → ∀ j : Fin 128,
      Function.update flat a (stored (flat a) (page * 128 + offset) size value) y.1 (y.2 * 128 + j.val) =
        flat y.1 (y.2 * 128 + j.val) := by
    intro y hy j
    by_cases hya : y.1 = a
    · have hne : y.2 ≠ page := fun heq => hy (Prod.ext hya heq)
      rw [hya, Function.update_self]
      exact stored_of_lt (by omega)
    · rw [Function.update_of_ne hya]
  constructor
  · exact h.slots
  · exact h.counter
  · exact h.writable
  · exact h.bounds
  · exact h.frames
  · exact h.marked
  · exact h.listed
  · exact h.nodup
  · exact h.fetch
  · intro b y q copy page' hb
    obtain ⟨hyr, hyp, hc, hmb, hvb, hnf⟩ := h.evict hb
    have hne : q ≠ p := by
      intro heq
      have hyx : y = x := h.frames hyr hr (by rw [hyp, heq])
      exact he (hyx ▸ ⟨b, _, _, _, hb⟩)
    rw [hframe hne]
    exact ⟨hyr, hyp, hc, hmb, hvb, hnf⟩
  · exact h.victims
  · intro y hy hyf j
    have hy : w.machine.Resident y := hy
    rw [show m'.pageTable = w.machine.pageTable from rfl]
    by_cases hyx : y = x
    · rw [hyx, ← hp, show x.1 = a from rfl, Function.update_self]
      exact stored_add _ _ (h.inMemory hr hf j)
    · have hne : (w.machine.pageTable y).physicalPage ≠ p := fun heq => hyx (h.frames hy hr heq)
      rw [hframe hne, hflat hyx]
      exact h.inMemory hy hyf j
  · intro y hy hyf j
    have hyx : y ≠ x := by
      rintro rfl
      rcases hyf with hv | hf'
      · rw [show m'.pageTable = w.machine.pageTable from rfl, hr.2] at hv
        exact absurd hv (by simp)
      · exact hf hf'
    rw [hflat hyx]
    exact h.inSwap hy hyf j

end World

end NachosFileSys
