import NachosFileSys.Evictions
import NachosFileSys.Lib.Results

namespace NachosFileSys

open Lib.Runs Lib.Bytes

namespace PagedMachine

structure SameTables (m m' : PagedMachine) : Prop where
  numPages : m'.numPages = m.numPages
  valid (x : EntryPtr) : (m'.pageTable x).valid = (m.pageTable x).valid
  physicalPage (x : EntryPtr) : (m'.pageTable x).physicalPage = (m.pageTable x).physicalPage
  readOnly (x : EntryPtr) : (m'.pageTable x).readOnly = (m.pageTable x).readOnly

variable {m m' m'' : PagedMachine} {space : ℕ} {writing : Bool}

lemma SameTables.trans (h : SameTables m m') (h' : SameTables m' m'') : SameTables m m'' :=
  ⟨h'.numPages.trans h.numPages, fun x => (h'.valid x).trans (h.valid x),
    fun x => (h'.physicalPage x).trans (h.physicalPage x), fun x => (h'.readOnly x).trans (h.readOnly x)⟩

lemma sameTables_setEntry (m : PagedMachine) (x : EntryPtr) (use dirty : Bool) :
    SameTables m (m.setEntry x { m.pageTable x with use := use, dirty := dirty }) := by
  have hentry (y : EntryPtr) :
      (Function.update m.pageTable x { m.pageTable x with use := use, dirty := dirty } y).valid =
      (m.pageTable y).valid ∧
      (Function.update m.pageTable x { m.pageTable x with use := use, dirty := dirty } y).physicalPage =
      (m.pageTable y).physicalPage ∧
      (Function.update m.pageTable x { m.pageTable x with use := use, dirty := dirty } y).readOnly =
      (m.pageTable y).readOnly := by
    by_cases hy : y = x
    · subst hy
      simp
    · simp [Function.update_of_ne hy]
  exact ⟨rfl, fun y => (hentry y).1, fun y => (hentry y).2.1, fun y => (hentry y).2.2⟩

lemma sameTables_of_translate {virtAddr size physicalAddress : ℤ}
    (h : m.translate space virtAddr size writing = .ok (physicalAddress, m')) : SameTables m m' := by
  unfold translate at h
  dsimp only at h
  split_ifs at h
  cases h
  exact sameTables_setEntry m _ _ _

lemma toInt_emod (addr : Word) : addr.toInt % 2 ^ 32 = addr.toNat := by
  have hlt := addr.isLt
  rw [BitVec.toInt_eq_toNat_cond]
  split <;> omega

lemma translate_fifoEntryList {virtAddr size physicalAddress : ℤ}
    (h : m.translate space virtAddr size writing = .ok (physicalAddress, m')) :
    m'.fifoEntryList = m.fifoEntryList := by
  unfold translate at h
  dsimp only at h
  split_ifs at h
  cases h
  rfl

def Transfer.held (space : ℕ) : Transfer → EntryPtr
  | .evicting victim _ _ _ => victim
  | .fetching _ page => (space, page)

end PagedMachine

namespace World

open PagedMachine

/-- The page table entries of a run. A page that is listed for eviction is in a frame and no transfer holds it, and
two transfers hold different pages. -/
structure Tabled (w : World) : Prop where
  writable : ∀ {x}, w.machine.Mapped x → (w.machine.pageTable x).readOnly = false
  absent : ∀ {x}, w.machine.Mapped x → (w.machine.pageTable x).valid = false →
      (w.machine.pageTable x).physicalPage = -1
  bounds : ∀ {x}, w.machine.Resident x →
    0 ≤ (w.machine.pageTable x).physicalPage ∧ (w.machine.pageTable x).physicalPage < (NumPhysPages : ℤ)
  listed : ∀ {x}, x ∈ w.machine.fifoEntryList → w.machine.Resident x ∧ ∀ {b t}, w.transfer b = some t →
      t.held b ≠ x
  nodup : w.machine.fifoEntryList.Nodup
  held : ∀ {b t}, w.transfer b = some t → w.machine.Resident (t.held b)
  evict : ∀ {b victim ppn copy page}, w.transfer b = some (.evicting victim ppn copy page) →
    0 ≤ ppn ∧ ppn < (NumPhysPages : ℤ) ∧ w.machine.Mapped (b, page) ∧ (w.machine.pageTable (b, page)).valid = false
  apart : ∀ {b c t t'}, w.transfer b = some t → w.transfer c = some t' → t.held b = t'.held c → b = c

variable {w w' : World} {a page : ℕ} {m' : PagedMachine}

lemma tabled_start (swapSpace : ℤ → Page) : Tabled ⟨.start swapSpace, fun _ => none⟩ := by
  have hno : ∀ {x}, ¬(PagedMachine.start swapSpace).Mapped x := fun {x} => Nat.not_lt_zero _
  have hnone : ∀ {t : Transfer}, (none : Option Transfer) ≠ some t := fun {t} => (Option.some_ne_none t).symm
  exact ⟨fun h => absurd h hno, fun h => absurd h hno, fun h => absurd h.1 hno, fun h => absurd h List.not_mem_nil,
    List.nodup_nil, fun h => absurd h hnone, fun h => absurd h hnone, fun h => absurd h hnone⟩

lemma SameTables.resident {m : PagedMachine} (h : SameTables m m') {x : EntryPtr} :
    m'.Resident x ↔ m.Resident x := by
  rw [Resident, Resident, Mapped, Mapped, h.numPages, h.valid]

lemma Tabled.same (h : w.Tabled) (hs : SameTables w.machine m') (hl : m'.fifoEntryList = w.machine.fifoEntryList) :
    Tabled ⟨m', w.transfer⟩ := by
  have hmapped : ∀ {x}, m'.Mapped x ↔ w.machine.Mapped x := by
    intro x
    rw [Mapped, Mapped, hs.numPages]
  constructor
  · intro x hx
    exact (hs.readOnly x).trans (h.writable (hmapped.mp hx))
  · intro x hx hv
    exact (hs.physicalPage x).trans (h.absent (hmapped.mp hx) ((hs.valid x).symm.trans hv))
  · intro x hx
    rw [hs.physicalPage]
    exact h.bounds (SameTables.resident hs |>.mp hx)
  · intro x hx
    obtain ⟨hr, hheld⟩ := h.listed (hl ▸ hx)
    exact ⟨SameTables.resident hs |>.mpr hr, hheld⟩
  · rw [hl]
    exact h.nodup
  · intro b t ht
    exact SameTables.resident hs |>.mpr (h.held ht)
  · intro b victim ppn copy page ht
    obtain ⟨h0, h1, hm, hv⟩ := h.evict ht
    exact ⟨h0, h1, hmapped.mpr hm, (hs.valid _).trans hv⟩
  · exact h.apart

lemma Tabled.takeFrame {ppn : ℤ} (h : w.Tabled) (freeMap : Bitmap NumPhysPages) (ha : w.transfer a = none)
    (hm : w.machine.Mapped (a, page)) (hv : (w.machine.pageTable (a, page)).valid = false) (h0 : 0 ≤ ppn)
    (h1 : ppn < (NumPhysPages : ℤ)) :
    Tabled ⟨{ w.machine with freeMap := freeMap }.setEntry (a, page)
        { w.machine.pageTable (a, page) with physicalPage := ppn, valid := true },
      Function.update w.transfer a (some (.fetching ppn page))⟩ := by
  set x : EntryPtr := (a, page) with hx
  set m' := { w.machine with freeMap := freeMap }.setEntry x
    { w.machine.pageTable x with physicalPage := ppn, valid := true } with hm'
  set t' := Function.update w.transfer a (some (.fetching ppn page)) with ht'
  have hself : m'.pageTable x = { w.machine.pageTable x with physicalPage := ppn, valid := true } :=
    Function.update_self ..
  have hother : ∀ {y}, y ≠ x → m'.pageTable y = w.machine.pageTable y := fun hy => Function.update_of_ne hy ..
  have hnew : t' a = some (.fetching ppn page) := Function.update_self ..
  have hold : ∀ {b}, b ≠ a → t' b = w.transfer b := fun hb => Function.update_of_ne hb ..
  have hnot : ¬w.machine.Resident x := fun hr => Bool.false_ne_true (hv.symm.trans hr.2)
  have hres : ∀ {y}, w.machine.Resident y → m'.Resident y := by
    intro y hy
    have hne : y ≠ x := fun heq => hnot (heq ▸ hy)
    exact ⟨hy.1, by rw [hother hne, hy.2]⟩
  have hheld : ∀ {b t}, t' b = some t → (b = a ∧ t.held b = x) ∨
      (b ≠ a ∧ w.transfer b = some t ∧ t.held b ≠ x) := by
    intro b t ht
    by_cases hb : b = a
    · rw [hb, hnew] at ht
      cases ht
      rw [hb]
      exact .inl ⟨rfl, rfl⟩
    · rw [hold hb] at ht
      exact .inr ⟨hb, ht, fun heq => hnot (heq ▸ h.held ht)⟩
  constructor
  · intro y hy
    by_cases hyx : y = x
    · rw [hyx, hself]
      exact h.writable hm
    · rw [hother hyx]
      exact h.writable hy
  · intro y hy hvy
    by_cases hyx : y = x
    · rw [hyx, hself] at hvy
      cases hvy
    · rw [hother hyx] at hvy ⊢
      exact h.absent hy hvy
  · intro y hy
    by_cases hyx : y = x
    · rw [hyx, hself]
      exact ⟨h0, h1⟩
    · rw [hother hyx]
      exact h.bounds ⟨hy.1, by rw [← hother hyx]; exact hy.2⟩
  · intro y hy
    obtain ⟨hr, hfree⟩ := h.listed hy
    refine ⟨hres hr, fun {b t} ht => ?_⟩
    rcases hheld ht with ⟨-, heq⟩ | ⟨-, ht, -⟩
    · rw [heq]
      rintro rfl
      exact hnot hr
    · exact hfree ht
  · exact h.nodup
  · intro b t ht
    rcases hheld ht with ⟨-, heq⟩ | ⟨-, ht, -⟩
    · rw [heq]
      exact ⟨hm, by rw [hself]⟩
    · exact hres (h.held ht)
  · intro b victim ppn' copy page' ht
    rcases hheld ht with ⟨rfl, -⟩ | ⟨hb, ht, -⟩
    · cases hnew.symm.trans ht
    · obtain ⟨h0, h1, hmb, hvb⟩ := h.evict ht
      have hne : (b, page') ≠ x := fun heq => hb (congrArg Prod.fst heq)
      exact ⟨h0, h1, hmb, by rw [hother hne, hvb]⟩
  · intro b c t u ht hu heq
    rcases hheld ht with ⟨rfl, hbx⟩ | ⟨hb, ht, hbx⟩ <;> rcases hheld hu with ⟨rfl, hcx⟩ | ⟨hc, hu, hcx⟩
    · rfl
    · exact absurd (heq.symm.trans hbx) hcx
    · exact absurd (heq.trans hcx) hbx
    · exact h.apart ht hu heq

lemma Tabled.chooseVictim {victim : EntryPtr} {rest : List EntryPtr} (h : w.Tabled) (ha : w.transfer a = none)
    (hm : w.machine.Mapped (a, page)) (hv : (w.machine.pageTable (a, page)).valid = false)
    (hl : w.machine.fifoEntryList = victim :: rest) (copy : Page) :
    Tabled ⟨{ w.machine with fifoEntryList := rest }, Function.update w.transfer a (some (.evicting victim
      (w.machine.pageTable victim).physicalPage copy page))⟩ := by
  set t' := Function.update w.transfer a
      (some (.evicting victim (w.machine.pageTable victim).physicalPage copy page)) with ht'
  have hmem : ∀ {y}, y ∈ rest → y ∈ w.machine.fifoEntryList := fun hy => hl ▸ List.mem_cons_of_mem victim hy
  obtain ⟨hr, hfree⟩ := h.listed (hl ▸ List.mem_cons_self : victim ∈ w.machine.fifoEntryList)
  have hnd := List.nodup_cons.mp (hl ▸ h.nodup)
  have hnew : t' a = some (.evicting victim (w.machine.pageTable victim).physicalPage copy page) :=
    Function.update_self ..
  have hheld : ∀ {b t}, t' b = some t → (b = a ∧ t.held b = victim) ∨
      (b ≠ a ∧ w.transfer b = some t ∧ t.held b ≠ victim) := by
    intro b t ht
    by_cases hb : b = a
    · rw [hb, hnew] at ht
      cases ht
      exact .inl ⟨hb, rfl⟩
    · rw [ht', Function.update_of_ne hb] at ht
      exact .inr ⟨hb, ht, hfree ht⟩
  constructor
  · exact h.writable
  · exact h.absent
  · exact h.bounds
  · intro y hy
    obtain ⟨hry, hfreey⟩ := h.listed (hmem hy)
    refine ⟨hry, fun {b t} ht => ?_⟩
    rcases hheld ht with ⟨-, heq⟩ | ⟨-, ht, -⟩
    · rw [heq]
      rintro rfl
      exact hnd.1 hy
    · exact hfreey ht
  · exact hnd.2
  · intro b t ht
    rcases hheld ht with ⟨-, heq⟩ | ⟨-, ht, -⟩
    · rw [heq]
      exact hr
    · exact h.held ht
  · intro b y ppn' copy' page' ht
    rcases hheld ht with ⟨rfl, -⟩ | ⟨-, ht, -⟩
    · cases hnew.symm.trans ht
      exact ⟨(h.bounds hr).1, (h.bounds hr).2, hm, hv⟩
    · exact h.evict ht
  · intro b c t u ht hu heq
    rcases hheld ht with ⟨rfl, hbx⟩ | ⟨hb, ht, hbx⟩ <;> rcases hheld hu with ⟨rfl, hcx⟩ | ⟨hc, hu, hcx⟩
    · rfl
    · exact absurd (heq.symm.trans hbx) hcx
    · exact absurd (heq.trans hcx) hbx
    · exact h.apart ht hu heq

lemma Tabled.startFault {m : PagedMachine} {t : Transfer} (h : w.Tabled) (ha : w.transfer a = none)
    (hm : w.machine.Mapped (a, page)) (hv : (w.machine.pageTable (a, page)).valid = false)
    (he : w.machine.startFault a page = .ok (m, t)) : Tabled ⟨m, Function.update w.transfer a (some t)⟩ := by
  rw [PagedMachine.startFault] at he
  rcases hfree : w.machine.freeMap.free with - | ⟨i, rest⟩
  · rw [Bitmap.findAndSet_full _ hfree] at he
    rcases hl : w.machine.fifoEntryList with - | ⟨victim, rest⟩
    · simp [hl, bind, Except.bind] at he
    · simp only [hl, bind, Except.bind, pure, Except.pure, ne_eq, not_true_eq_false, if_false, Except.ok.injEq,
        Prod.mk.injEq] at he
      obtain ⟨rfl, rfl⟩ := he
      exact h.chooseVictim ha hm hv hl _
  · obtain ⟨freeMap, hset, -, -⟩ := Bitmap.findAndSet_cons _ hfree
    obtain ⟨hi, -⟩ := Bitmap.mem_free.mp (hfree ▸ List.mem_cons_self : i ∈ w.machine.freeMap.free)
    have hne : (i : ℤ) ≠ -1 := by omega
    rw [hset] at he
    simp only [bind, Except.bind, pure, Except.pure, if_pos hne, Except.ok.injEq, Prod.mk.injEq] at he
    obtain ⟨rfl, rfl⟩ := he
    exact h.takeFrame _ ha hm hv (Int.natCast_nonneg i) (by exact_mod_cast hi)

lemma Tabled.unload {victim : EntryPtr} {ppn : ℤ} {copy : Page} (h : w.Tabled)
    (ha : w.transfer a = some (.evicting victim ppn copy page)) (swapSpace : ℤ → Page) :
    Tabled ⟨{ w.machine with swapSpace := swapSpace }.setEntry victim
        { w.machine.pageTable victim with physicalPage := -1, valid := false },
        Function.update w.transfer a none⟩ := by
  set m' := { w.machine with swapSpace := swapSpace }.setEntry victim
    { w.machine.pageTable victim with physicalPage := -1, valid := false } with hm'
  have hself : m'.pageTable victim = { w.machine.pageTable victim with physicalPage := -1, valid := false } :=
    Function.update_self ..
  have hother : ∀ {y}, y ≠ victim → m'.pageTable y = w.machine.pageTable y := fun hy => Function.update_of_ne hy ..
  have hold : ∀ {b t}, Function.update w.transfer a none b = some t →
      w.transfer b = some t ∧ t.held b ≠ victim := by
    intro b t ht
    by_cases hb : b = a
    · rw [hb, Function.update_self] at ht
      cases ht
    · rw [Function.update_of_ne hb] at ht
      exact ⟨ht, fun heq => hb (h.apart ht ha heq)⟩
  have hres : ∀ {y}, y ≠ victim → w.machine.Resident y → m'.Resident y :=
    fun hy hr => ⟨hr.1, by rw [hother hy, hr.2]⟩
  constructor
  · intro y hy
    by_cases hyv : y = victim
    · rw [hyv, hself]
      exact h.writable (hyv ▸ hy)
    · rw [hother hyv]
      exact h.writable hy
  · intro y hy hv
    by_cases hyv : y = victim
    · rw [hyv, hself]
    · rw [hother hyv] at hv ⊢
      exact h.absent hy hv
  · intro y hy
    have hne : y ≠ victim := by
      rintro rfl
      simpa [hself] using hy.2
    rw [hother hne]
    exact h.bounds ⟨hy.1, by rw [← hother hne]; exact hy.2⟩
  · intro y hy
    obtain ⟨hr, hfree⟩ := h.listed hy
    exact ⟨hres (Ne.symm (hfree ha)) hr, fun ht => hfree (hold ht).1⟩
  · exact h.nodup
  · intro b t ht
    obtain ⟨ht, hne⟩ := hold ht
    exact hres hne (h.held ht)
  · intro b y ppn' copy' page' ht
    obtain ⟨h0, h1, hmb, hvb⟩ := h.evict (hold ht).1
    refine ⟨h0, h1, hmb, ?_⟩
    by_cases hb : (b, page') = victim
    · dsimp only
      rw [hb, hself]
    · exact (congrArg TranslationEntry.valid (hother hb)).trans hvb
  · intro b c t u ht hu
    exact h.apart (hold ht).1 (hold hu).1

lemma Tabled.finishEviction {victim : EntryPtr} {ppn : ℤ} {copy : Page} (h : w.Tabled)
    (ha : w.transfer a = some (.evicting victim ppn copy page)) :
    Tabled ⟨w.machine.finishEviction a victim ppn copy page,
    Function.update w.transfer a (some (.fetching ppn page))⟩ := by
  obtain ⟨h0, h1, hm, hv⟩ := h.evict ha
  have hout := h.unload ha (Function.update w.machine.swapSpace (w.machine.pageTable victim).virtualPage copy)
  have hvalid : (Function.update w.machine.pageTable victim
      { w.machine.pageTable victim with physicalPage := -1, valid := false } (a, page)).valid = false := by
    by_cases hb : (a, page) = victim
    · rw [hb, Function.update_self]
    · rw [Function.update_of_ne hb]
      exact hv
  have hin := hout.takeFrame w.machine.freeMap (Function.update_self ..) hm hvalid h0 h1
  rw [Function.update_idem] at hin
  exact hin

lemma Tabled.finishFetch {ppn : ℤ} {m : PagedMachine} (h : w.Tabled)
    (ha : w.transfer a = some (.fetching ppn page))
    (he : w.machine.finishFetch a ppn page = .ok m) : Tabled ⟨m, Function.update w.transfer a none⟩ := by
  rw [PagedMachine.finishFetch] at he
  split_ifs at he with hmem
  cases he
  have hold : ∀ {b t}, Function.update w.transfer a none b = some t →
      w.transfer b = some t ∧ t.held b ≠ (a, page) := by
    intro b t ht
    by_cases hb : b = a
    · rw [hb, Function.update_self] at ht
      cases ht
    · rw [Function.update_of_ne hb] at ht
      exact ⟨ht, fun heq => hb (h.apart ht ha heq)⟩
  constructor
  · exact h.writable
  · exact h.absent
  · exact h.bounds
  · intro y hy
    rcases List.mem_append.mp hy with hy | hy
    · obtain ⟨hr, hfree⟩ := h.listed hy
      exact ⟨hr, fun ht => hfree (hold ht).1⟩
    · rw [List.mem_singleton.mp hy]
      exact ⟨h.held ha, fun ht => (hold ht).2⟩
  · exact List.nodup_append.mpr ⟨h.nodup, List.nodup_singleton _, fun y hy z hz hyz => hmem (by
      rw [← List.mem_singleton.mp hz, ← hyz]
      exact hy)⟩
  · exact fun ht => h.held (hold ht).1
  · exact fun ht => h.evict (hold ht).1
  · exact fun ht hu => h.apart (hold ht).1 (hold hu).1

lemma Tabled.load (h : w.Tabled) (image : List Page) : Tabled ⟨w.machine.load image, w.transfer⟩ := by
  have hl := loadPages_loaded w.machine.numPages.length image 0 w.machine
  set m' := w.machine.load image with hm'
  have hnum : m'.numPages = w.machine.numPages ++ [image.length] := congrArg (· ++ [image.length]) hl.numPages
  have hlt : ∀ {x}, w.machine.Mapped x → x.1 < w.machine.numPages.length := by
    intro x hx
    by_contra hge
    rw [Mapped, List.getD_eq_default _ _ (not_lt.mp hge)] at hx
    exact Nat.not_lt_zero _ hx
  have hmapped : ∀ {x}, w.machine.Mapped x → m'.Mapped x := by
    intro x hx
    have hold : m'.numPages.getD x.1 0 = w.machine.numPages.getD x.1 0 := by
      rw [hnum, List.getD_append _ _ _ _ (hlt hx)]
    exact hx.trans_eq hold.symm
  have hentry : ∀ {x}, w.machine.Mapped x → m'.pageTable x = w.machine.pageTable x := fun hx =>
    hl.others _ (.inl (hlt hx).ne)
  have hres : ∀ {x}, w.machine.Resident x → m'.Resident x := fun hx => ⟨hmapped hx.1, by rw [hentry hx.1, hx.2]⟩
  -- an entry of the new page table is as the loop has made it
  have hnew : ∀ {x}, m'.Mapped x → w.machine.Mapped x ∨ ((m'.pageTable x).readOnly = false ∧
      (m'.pageTable x).valid = false ∧ (m'.pageTable x).physicalPage = -1) := by
    intro x hx
    rcases lt_trichotomy x.1 w.machine.numPages.length with hlt | heq | hgt
    · have hold : m'.numPages.getD x.1 0 = w.machine.numPages.getD x.1 0 := by
        rw [hnum, List.getD_append _ _ _ _ hlt]
      exact .inl (hx.trans_eq hold)
    · rw [Mapped, hnum, heq, List.getD_append_right _ _ _ _ le_rfl, Nat.sub_self] at hx
      have hslot := hl.entry x.2 hx
      have hx' : (w.machine.numPages.length, 0 + x.2) = x := Prod.ext heq.symm (Nat.zero_add _)
      rw [hx'] at hslot
      have hslot : m'.pageTable x = _ := hslot
      rw [hslot]
      exact .inr ⟨rfl, rfl, rfl⟩
    · rw [Mapped, hnum, List.getD_eq_default _ _ (by rw [List.length_append]; exact hgt)] at hx
      exact absurd hx (Nat.not_lt_zero _)
  have hresOld : ∀ {x}, m'.Resident x → w.machine.Resident x := by
    intro x hx
    rcases hnew hx.1 with hold | ⟨-, hv, -⟩
    · exact ⟨hold, by rw [← hentry hold, hx.2]⟩
    · exact absurd (hv.symm.trans hx.2) Bool.false_ne_true
  constructor
  · intro x hx
    rcases hnew hx with hold | ⟨hro, -⟩
    · exact (congrArg TranslationEntry.readOnly (hentry hold)).trans (h.writable hold)
    · exact hro
  · intro x hx hv
    rcases hnew hx with hold | ⟨-, -, hpage⟩
    · rw [hentry hold] at hv ⊢
      exact h.absent hold hv
    · exact hpage
  · intro x hx
    rw [hentry (hresOld hx).1]
    exact h.bounds (hresOld hx)
  · intro x hx
    have hx : x ∈ w.machine.fifoEntryList := hl.fifoEntryList ▸ hx
    exact ⟨hres (h.listed hx).1, (h.listed hx).2⟩
  · exact (congrArg List.Nodup hl.fifoEntryList).mpr h.nodup
  · exact fun ht => hres (h.held ht)
  · intro b victim ppn copy page ht
    obtain ⟨h0, h1, hm, hv⟩ := h.evict ht
    exact ⟨h0, h1, hmapped hm, (congrArg TranslationEntry.valid (hentry hm)).trans hv⟩
  · exact h.apart

lemma Tabled.fault {reply : Reply} {addr size : ℤ}
    (h : w.Tabled) (hready : w.transfer a = none ∧ InRange (w.machine.numPages.getD a 0) addr size)
    (hv : (w.machine.pageTable (a, pageOf addr)).valid = false) (he : w.fault a addr = .ok (reply, w')) :
    w'.Tabled := by
  rw [World.fault, hready.2.tdiv_eq] at he
  obtain ⟨⟨m, t⟩, hs, he⟩ := Lib.Results.bind_eq_ok.mp he
  cases he
  exact h.startFault hready.1 (mapped_of_inRange hready.2) hv hs

lemma not_valid_of_translate {m : PagedMachine} {addr size : ℤ}
    {writing : Bool} (hr : InRange (m.numPages.getD a 0) addr size)
    (h : m.translate a addr size writing = .error .pageFaultException) :
    (m.pageTable (a, pageOf addr)).valid = false := by
  rw [PagedMachine.translate_eq hr] at h
  by_contra hv
  rw [Bool.not_eq_false] at hv
  dsimp only at h
  rw [hv, Bool.not_true, if_neg Bool.false_ne_true] at h
  split_ifs at h <;> cases h

lemma Tabled.perform {access : Access} {reply : Reply} (h : w.Tabled) (hready : w.Ready access)
    (he : w.perform access = .ok (reply, w')) : w'.Tabled := by
  cases access with
  | load image =>
    cases he
    exact h.load image
  | read space addr size =>
    rw [World.perform] at he
    cases ht : w.machine.translate space addr size false with
    | error which =>
      rw [ht] at he
      cases which with
      | pageFaultException => exact h.fault hready (not_valid_of_translate hready.2 ht) he
      | _ => simp [readMem, ht, exceptionHandler, bind, Except.bind] at he
    | ok r =>
      obtain ⟨p, m⟩ := r
      rw [ht] at he
      dsimp only at he
      rw [readMem, ht] at he
      dsimp only at he
      obtain ⟨⟨data, m₁⟩, hread, he⟩ := Lib.Results.bind_eq_ok.mp he
      obtain ⟨d, -, hread⟩ := Lib.Results.bind_eq_ok.mp hread
      cases hread
      cases he
      exact h.same (sameTables_of_translate ht) (translate_fifoEntryList ht)
  | write space addr size value =>
    rw [World.perform] at he
    cases ht : w.machine.translate space addr size true with
    | error which =>
      rw [ht] at he
      cases which with
      | pageFaultException => exact h.fault hready (not_valid_of_translate hready.2 ht) he
      | _ => simp [writeMem, ht, exceptionHandler, bind, Except.bind] at he
    | ok r =>
      obtain ⟨p, m⟩ := r
      rw [ht] at he
      dsimp only at he
      rw [writeMem, ht] at he
      dsimp only at he
      obtain ⟨⟨done, m₁⟩, hwrite, he⟩ := Lib.Results.bind_eq_ok.mp he
      obtain ⟨memory, -, hwrite⟩ := Lib.Results.bind_eq_ok.mp hwrite
      cases hwrite
      cases he
      have hs := sameTables_of_translate ht
      exact h.same ⟨hs.numPages, hs.valid, hs.physicalPage, hs.readOnly⟩ (translate_fifoEntryList ht :)

lemma Tabled.resume (h : w.Tabled) (he : w.resume a = .ok w') : w'.Tabled := by
  rw [World.resume] at he
  cases ht : w.transfer a with
  | none =>
    rw [ht] at he
    cases he
    exact h
  | some t =>
    rw [ht] at he
    cases t with
    | evicting victim ppn copy page =>
      cases he
      exact h.finishEviction ht
    | fetching ppn page =>
      obtain ⟨m, hf, he⟩ := Lib.Results.bind_eq_ok.mp he
      cases he
      exact h.finishFetch ht hf

inductive Moves : ThreadStep → World → World → Prop
  | accessed {w w' : World} {access : Access} {reply : Reply} :
      w.Ready access → w.perform access = .ok (reply, w') → Moves (.access access) w w'
  | resumed {w w' : World} {space : ℕ} : w.resume space = .ok w' → Moves (.resume space) w w'

lemma tabled_of_reaches {swapSpace : ℤ → Page} {ok : World → ThreadStep → Prop}
    (h : Reaches Moves ok ⟨.start swapSpace, fun _ => none⟩ w) : w.Tabled := by
  refine h.invariant (fun o u u' hu _ hmove => ?_) (tabled_start swapSpace)
  cases hmove with
  | accessed hready he => exact hu.perform hready he
  | resumed he => exact hu.resume he

end World

end NachosFileSys
