import NachosFileSys.PageTables
import Mathlib.Data.List.Dedup

namespace NachosFileSys

open Lib.Bytes Lib.Results

lemma dedup_concat {α : Type} [DecidableEq α] (l : List α) (x : α) :
    (l ++ [x]).dedup = l.dedup.filter (· ≠ x) ++ [x] := by
  induction l with
  | nil => simp
  | cons a l ih =>
    rw [List.cons_append]
    by_cases hx : a = x
    · subst hx
      rw [List.dedup_cons_of_mem (by simp), ih]
      by_cases hl : a ∈ l
      · rw [List.dedup_cons_of_mem hl]
      · rw [List.dedup_cons_of_notMem hl, List.filter_cons_of_neg (by simp)]
    · by_cases hl : a ∈ l
      · rw [List.dedup_cons_of_mem (List.mem_append_left _ hl), List.dedup_cons_of_mem hl, ih]
      · rw [List.dedup_cons_of_notMem (by simp [hl, hx]), List.dedup_cons_of_notMem hl,
          List.filter_cons_of_pos (by simpa using hx), ih, List.cons_append]

namespace PagedMachine

/-- The machines that loads, accesses without a page fault, and page faults make, with the entries whose pages were
brought in, the last one at the end. -/
inductive Paged (swapSpace : ℤ → Page) : List EntryPtr → PagedMachine → Prop
  | start : Paged swapSpace [] (start swapSpace)
  | load {loads : List EntryPtr} {m : PagedMachine} (image : List Page) :
      Paged swapSpace loads m → Paged swapSpace loads (m.load image)
  | read {loads : List EntryPtr} {m m' : PagedMachine} {space : ℕ} {addr size : ℤ} {data : Option ℤ} :
      Paged swapSpace loads m → InRange (m.numPages.getD space 0) addr size →
      (m.pageTable (space, pageOf addr)).valid = true → m.readMem space addr size = .ok (data, m') →
      Paged swapSpace loads m'
  | write {loads : List EntryPtr} {m m' : PagedMachine} {space : ℕ} {addr size value : ℤ} {done : Bool} :
      Paged swapSpace loads m → InRange (m.numPages.getD space 0) addr size →
      (m.pageTable (space, pageOf addr)).valid = true → m.writeMem space addr size value = .ok (done, m') →
      Paged swapSpace loads m'
  | fault {loads : List EntryPtr} {m m' : PagedMachine} {space page : ℕ} :
      Paged swapSpace loads m → m.Mapped (space, page) → (m.pageTable (space, page)).valid = false →
      m.pageFault space page = .ok m' → Paged swapSpace (loads ++ [(space, page)]) m'

variable {m m' : PagedMachine} {space page : ℕ}

structure Faulted (m m' : PagedMachine) (x : EntryPtr) : Prop where
  valid : (m'.pageTable x).valid = true
  moved : (m'.fifoEntryList = m.fifoEntryList ++ [x] ∧
      ∀ y, y ≠ x → (m'.pageTable y).valid = (m.pageTable y).valid) ∨
    ∃ victim rest, m.fifoEntryList = victim :: rest ∧ m'.fifoEntryList = rest ++ [x] ∧ victim ≠ x ∧
      (m'.pageTable victim).valid = false ∧
      ∀ y, y ≠ x → y ≠ victim → (m'.pageTable y).valid = (m.pageTable y).valid

lemma finishFetch_spec {ppn : ℤ} (h : m.finishFetch space ppn page = .ok m') :
    m'.fifoEntryList = m.fifoEntryList ++ [(space, page)] ∧ m'.pageTable = m.pageTable := by
  rw [finishFetch] at h
  split_ifs at h
  cases h
  exact ⟨rfl, rfl⟩

lemma faulted_of_pageFault (hv : (m.pageTable (space, page)).valid = false)
    (hl : ∀ y ∈ m.fifoEntryList, (m.pageTable y).valid = true) (h : m.pageFault space page = .ok m') :
    Faulted m m' (space, page) := by
  rw [pageFault, startFault] at h
  obtain ⟨⟨m₁, transfer⟩, hs, h⟩ := bind_eq_ok.mp h
  obtain ⟨⟨ppn, freeMap⟩, -, hs⟩ := bind_eq_ok.mp hs
  dsimp only at hs h
  split_ifs at hs with hppn
  · cases hs
    obtain ⟨hfifo, htable⟩ := finishFetch_spec h
    simp only [setEntry] at htable hfifo
    refine ⟨?_, Or.inl ⟨hfifo, fun y hy => ?_⟩⟩
    · rw [htable, Function.update_self]
    · rw [htable, Function.update_of_ne hy]
  · cases hf : m.fifoEntryList with
    | nil =>
      rw [hf] at hs
      cases hs
    | cons victim rest =>
      rw [hf] at hs hl
      cases hs
      obtain ⟨hfifo, htable⟩ := finishFetch_spec h
      have hne : victim ≠ (space, page) := by
        rintro rfl
        rw [hl _ List.mem_cons_self] at hv
        cases hv
      simp only [finishEviction, setEntry] at htable hfifo
      refine ⟨?_, Or.inr ⟨victim, rest, hf, hfifo, hne, ?_, fun y hy hyv => ?_⟩⟩
      · rw [htable, Function.update_self]
      · rw [htable, Function.update_of_ne hne, Function.update_self]
      · rw [htable, Function.update_of_ne hy, Function.update_of_ne hyv]

def Ordered (loads : List EntryPtr) (m : PagedMachine) : Prop :=
  m.fifoEntryList = loads.dedup.filter fun x => (m.pageTable x).valid

lemma Ordered.fault {loads : List EntryPtr} {x : EntryPtr} (h : Ordered loads m)
    (hv : (m.pageTable x).valid = false)
    (hf : Faulted m m' x) : Ordered (loads ++ [x]) m' := by
  have hlast : List.filter (fun y => (m'.pageTable y).valid) [x] = [x] := by simp [hf.valid]
  rw [Ordered] at h
  rw [Ordered, dedup_concat, List.filter_append, hlast, List.filter_filter]
  rcases hf.moved with ⟨hfifo, hother⟩ | ⟨victim, rest, hm, hfifo, hne, hvictim, hother⟩
  · rw [hfifo, h]
    congr 1
    apply List.filter_congr
    intro y _
    by_cases hy : y = x
    · subst hy
      simp [hv]
    · simp [hother y hy, hy]
  · have hnd : (victim :: rest).Nodup := by
      rw [← hm, h]
      exact (List.nodup_dedup loads).filter _
    have hrest : rest = (victim :: rest).filter (· ≠ victim) := by
      rw [List.filter_cons_of_neg (by simp), List.filter_eq_self.mpr]
      intro y hy
      simp only [ne_eq, decide_not, Bool.not_eq_true', decide_eq_false_iff_not]
      rintro rfl
      exact (List.nodup_cons.mp hnd).1 hy
    rw [hfifo, hrest, ← hm, h, List.filter_filter]
    congr 1
    apply List.filter_congr
    intro y _
    by_cases hy : y = x
    · subst hy
      simp [hv]
    · by_cases hyv : y = victim
      · subst hyv
        simp [hvictim]
      · simp [hother y hy hyv, hy, hyv]

lemma Ordered.same {loads : List EntryPtr} (h : Ordered loads m) (hs : SameTables m m')
    (hl : m'.fifoEntryList = m.fifoEntryList) : Ordered loads m' := by
  rw [Ordered, hl, h]
  apply List.filter_congr
  intro y _
  rw [hs.valid]

lemma readMem_same {addr size : ℤ} {data : Option ℤ} (hr : InRange (m.numPages.getD space 0) addr size)
    (hv : (m.pageTable (space, pageOf addr)).valid = true)
    (hro : (m.pageTable (space, pageOf addr)).readOnly = false)
    (hb : 0 ≤ (m.pageTable (space, pageOf addr)).physicalPage ∧
      (m.pageTable (space, pageOf addr)).physicalPage < (NumPhysPages : ℤ))
    (h : m.readMem space addr size = .ok (data, m')) : SameTables m m' ∧ m'.fifoEntryList = m.fifoEntryList := by
  rw [readMem] at h
  cases ht : m.translate space addr size false with
  | error which =>
    rw [translate_eq hr false] at ht
    dsimp only at ht
    rw [hv, hro, Bool.not_true, Bool.false_and, if_neg Bool.false_ne_true, if_neg Bool.false_ne_true,
      if_neg (by omega)] at ht
    cases ht
  | ok r =>
    rw [ht] at h
    obtain ⟨data', -, h⟩ := bind_eq_ok.mp h
    cases h
    exact ⟨sameTables_of_translate ht, translate_fifoEntryList ht⟩

lemma writeMem_same {addr size value : ℤ} {done : Bool} (hr : InRange (m.numPages.getD space 0) addr size)
    (hv : (m.pageTable (space, pageOf addr)).valid = true)
    (hro : (m.pageTable (space, pageOf addr)).readOnly = false)
    (hb : 0 ≤ (m.pageTable (space, pageOf addr)).physicalPage ∧
      (m.pageTable (space, pageOf addr)).physicalPage < (NumPhysPages : ℤ))
    (h : m.writeMem space addr size value = .ok (done, m')) :
    SameTables m m' ∧ m'.fifoEntryList = m.fifoEntryList := by
  rw [writeMem] at h
  cases ht : m.translate space addr size true with
  | error which =>
    rw [translate_eq hr true] at ht
    dsimp only at ht
    rw [hv, hro, Bool.not_true, Bool.false_and, if_neg Bool.false_ne_true, if_neg Bool.false_ne_true,
      if_neg (by omega)] at ht
    cases ht
  | ok r =>
    obtain ⟨physicalAddress, m₁⟩ := r
    rw [ht] at h
    obtain ⟨memory, -, h⟩ := bind_eq_ok.mp h
    cases h
    have hs := sameTables_of_translate ht
    have hl : m₁.fifoEntryList = m.fifoEntryList := translate_fifoEntryList ht
    exact ⟨⟨hs.numPages, hs.valid, hs.physicalPage, hs.readOnly⟩, hl⟩

structure Framed (loads : List EntryPtr) (m : PagedMachine) : Prop where
  consistent : ∃ flat, World.Consistent ⟨m, fun _ => none⟩ flat
  mapped : ∀ y ∈ loads, m.Mapped y
  ordered : Ordered loads m

lemma Mapped.lt_length {y : EntryPtr} (h : m.Mapped y) : y.1 < m.numPages.length := by
  by_contra hlt
  rw [Mapped, List.getD_eq_default _ _ (not_lt.mp hlt)] at h
  exact Nat.not_lt_zero _ h

lemma Framed.load {loads : List EntryPtr} (h : Framed loads m) (image : List Page) :
    Framed loads (m.load image) := by
  obtain ⟨flat, hc⟩ := h.consistent
  have hl := loadPages_loaded m.numPages.length image 0 m
  have hnum : (m.load image).numPages = m.numPages ++ [image.length] := congrArg (· ++ [image.length]) hl.numPages
  refine ⟨⟨_, hc.load image⟩, fun y hy => ?_, ?_⟩
  · have hlt := Mapped.lt_length (h.mapped y hy)
    rw [Mapped, hnum, List.getD_append _ _ _ _ hlt]
    exact h.mapped y hy
  · rw [Ordered, show (m.load image).fifoEntryList = m.fifoEntryList from hl.fifoEntryList, h.ordered]
    apply List.filter_congr
    intro y hy
    have hlt := Mapped.lt_length (h.mapped y (List.mem_dedup.mp hy))
    rw [show (m.load image).pageTable y = m.pageTable y from hl.others y (Or.inl hlt.ne)]

lemma Framed.fault {loads : List EntryPtr} (h : Framed loads m) (hm : m.Mapped (space, page))
    (hv : (m.pageTable (space, page)).valid = false) :
    ∃ m', m.pageFault space page = .ok m' ∧ Framed (loads ++ [(space, page)]) m' := by
  obtain ⟨flat, hc⟩ := h.consistent
  obtain ⟨m', he, hc', -, hn⟩ := hc.pageFault (fun _ => rfl) hm hv
  have hmapped : ∀ {y}, m.Mapped y → m'.Mapped y := fun {y} hy => by
    rw [Mapped, hn]
    exact hy
  refine ⟨m', he, ⟨flat, hc'⟩, fun y hy => ?_, h.ordered.fault hv (faulted_of_pageFault hv ?_ he)⟩
  · rcases List.mem_append.mp hy with hy | hy
    · exact hmapped (h.mapped y hy)
    · rw [List.mem_singleton.mp hy]
      exact hmapped hm
  · intro y hy
    exact (hc.listed.mp hy).1.2

lemma Framed.same {loads : List EntryPtr} (h : Framed loads m)
    (hc : ∃ flat, World.Consistent ⟨m', fun _ => none⟩ flat)
    (hs : SameTables m m') (hl : m'.fifoEntryList = m.fifoEntryList) : Framed loads m' := by
  refine ⟨hc, fun y hy => ?_, h.ordered.same hs hl⟩
  rw [Mapped, hs.numPages]
  exact h.mapped y hy

lemma Paged.framed {swapSpace : ℤ → Page} {loads : List EntryPtr} (h : Paged swapSpace loads m) :
    Framed loads m := by
  induction h with
  | start =>
    exact ⟨⟨fun _ _ => 0, World.start_consistent swapSpace _⟩, fun _ hy => absurd hy List.not_mem_nil, rfl⟩
  | load image _ ih => exact ih.load image
  | read _ hr hv he ih =>
    obtain ⟨flat, hc⟩ := ih.consistent
    obtain ⟨data', m₁, he₁, -, hc₁, -⟩ := hc.readMem_resident hr hv (World.not_fetching rfl)
    obtain rfl : m₁ = _ := (Prod.mk.inj (Except.ok.inj (he₁.symm.trans he))).2
    obtain ⟨hs, hl⟩ :=
      readMem_same hr hv (hc.writable (mapped_of_inRange hr)) (hc.bounds ⟨mapped_of_inRange hr, hv⟩) he
    exact ih.same ⟨_, hc₁⟩ hs hl
  | write _ hr hv he ih =>
    obtain ⟨flat, hc⟩ := ih.consistent
    have hidle : ∀ {m' : PagedMachine} {x : EntryPtr}, ¬World.Evicting ⟨m', fun _ => none⟩ x := by
      rintro m' x ⟨b, ppn, copy, q, hb⟩
      cases hb
    obtain ⟨m₁, he₁, hc₁, -⟩ := hc.writeMem_resident hr hv (World.not_fetching rfl) hidle _
    obtain rfl : m₁ = _ := (Prod.mk.inj (Except.ok.inj (he₁.symm.trans he))).2
    obtain ⟨hs, hl⟩ :=
      writeMem_same hr hv (hc.writable (mapped_of_inRange hr)) (hc.bounds ⟨mapped_of_inRange hr, hv⟩) he
    exact ih.same ⟨_, hc₁⟩ hs hl
  | fault _ hm hv he ih =>
    obtain ⟨m₁, he₁, hf⟩ := ih.fault hm hv
    obtain rfl : m₁ = _ := Except.ok.inj (he₁.symm.trans he)
    exact hf

/-- The list holds the pages in frames, in the order in which they were last brought in; frames and slots have one
owner each, the bitmap marks the frames in use, and no page fault ends in an assertion. -/
theorem frame_table_consistent {swapSpace : ℤ → Page} {loads : List EntryPtr} (h : Paged swapSpace loads m) :
    (∀ x, m.Mapped x → ((m.pageTable x).valid = true ↔ x ∈ m.fifoEntryList)) ∧
    (∀ x ∈ m.fifoEntryList, m.Mapped x) ∧
    (∀ x, m.Resident x → 0 ≤ (m.pageTable x).physicalPage ∧ (m.pageTable x).physicalPage < (NumPhysPages : ℤ)) ∧
    (∀ x y, m.Resident x → m.Resident y → (m.pageTable x).physicalPage = (m.pageTable y).physicalPage → x = y) ∧
    (∀ i < NumPhysPages, m.freeMap.bit i = true ↔ ∃ x, m.Resident x ∧ (m.pageTable x).physicalPage = i) ∧
    m.fifoEntryList.Nodup ∧ m.fifoEntryList = loads.dedup.filter (fun x => (m.pageTable x).valid) ∧
    (∀ x y, m.Mapped x → m.Mapped y → (m.pageTable x).virtualPage = (m.pageTable y).virtualPage → x = y) ∧
    ∀ space page, m.Mapped (space, page) → (m.pageTable (space, page)).valid = false →
      ∃ m', m.pageFault space page = .ok m' := by
  have hf := h.framed
  obtain ⟨flat, hc⟩ := hf.consistent
  have hidle : ∀ {x : EntryPtr}, ¬World.Evicting ⟨m, fun _ => none⟩ x := by
    rintro x ⟨b, ppn, copy, q, hb⟩
    cases hb
  refine ⟨fun x hx => ⟨fun hv => ?_, fun hl => (hc.listed.mp hl).1.2⟩, fun x hl => (hc.listed.mp hl).1.1,
    fun x => hc.bounds, fun x y => hc.frames, fun i => hc.marked, hc.nodup, hf.ordered, fun x y => hc.slots,
    fun space page hm hv => ?_⟩
  · exact hc.listed.mpr ⟨⟨hx, hv⟩, World.not_fetching rfl, hidle⟩
  · obtain ⟨m', he, -⟩ := hf.fault hm hv
    exact ⟨m', he⟩

def faults : List EntryPtr → PagedMachine → Except Fault PagedMachine
  | [], m => pure m
  | (space, page) :: rest, m =>
    if page < m.numPages.getD space 0 ∧ (m.pageTable (space, page)).valid = false then do
      let m ← m.pageFault space page
      faults rest m
    else .error .assertion

lemma Paged.faults {swapSpace : ℤ → Page} (entries : List EntryPtr) :
    ∀ {loads : List EntryPtr} {m m' : PagedMachine},
    Paged swapSpace loads m → PagedMachine.faults entries m = .ok m' → Paged swapSpace (loads ++ entries) m' := by
  induction entries with
  | nil =>
    intro loads m m' h he
    cases he
    rwa [List.append_nil]
  | cons x rest ih =>
    intro loads m m' h he
    obtain ⟨space, page⟩ := x
    rw [PagedMachine.faults] at he
    split at he
    · rename_i hx
      obtain ⟨m₁, h₁, he⟩ := bind_eq_ok.mp he
      have hp := ih (h.fault hx.1 hx.2 h₁) he
      rwa [List.append_assoc] at hp
    · cases he

def twoProcesses : PagedMachine :=
  ((start fun _ _ => 0).load (List.replicate 20 fun _ => 0)).load (List.replicate 20 fun _ => 0)

def thirtyThreePages : List EntryPtr :=
  (List.range 20).map (fun page => (0, page)) ++ (List.range 13).map (fun page => (1, page))

/-- The last of the page faults takes the frame of the page that came in first, which can come back. -/
theorem frame_table_consistent_evicted : ∃ m, Paged (fun _ _ => 0) thirtyThreePages m ∧
    (m.pageTable (0, 0)).valid = false ∧ m.fifoEntryList = thirtyThreePages.tail ∧
    ∃ m', m.pageFault 0 0 = .ok m' := by
  have hrun : (match faults thirtyThreePages twoProcesses with
      | .ok m => decide ((m.pageTable (0, 0)).valid = false ∧ 0 < m.numPages.getD 0 0 ∧
          m.fifoEntryList = thirtyThreePages.tail)
      | .error _ => false) = true := by decide +kernel
  split at hrun
  · rename_i m he
    obtain ⟨hv, hm, hlist⟩ := of_decide_eq_true hrun
    have h : Paged (fun _ _ => 0) thirtyThreePages m := Paged.faults thirtyThreePages (.load _ (.load _ .start)) he
    exact ⟨m, h, hv, hlist, (frame_table_consistent h).2.2.2.2.2.2.2.2 0 0 hm hv⟩
  · cases hrun

end PagedMachine

end NachosFileSys
