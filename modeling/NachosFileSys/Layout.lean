import NachosFileSys.FileHeader
import Mathlib.Data.List.GetD

namespace NachosFileSys

open Lib.Programs Lib.Bytes

def InDisk (s : ℤ) : Prop := 0 ≤ s ∧ s < NumSectors

instance (s : ℤ) : Decidable (InDisk s) := inferInstanceAs (Decidable (0 ≤ s ∧ s < NumSectors))

lemma InDisk.ne_empty {s : ℤ} (h : InDisk s) : s ≠ EmptyBlock := by
  have := h.1
  simp only [EmptyBlock]
  omega

lemma exec_read_inDisk {s : ℤ} (h : InDisk s) (k : Kernel) : exec (readSector s) k = .ok (k.disk s, k) := by
  rw [exec_readSector, if_pos (show 0 ≤ s ∧ s < NumSectors from h)]

lemma exec_write_inDisk {s : ℤ} (h : InDisk s) (data : Sector) (k : Kernel) :
    exec (writeSector s data) k = .ok ((), { k with disk := Function.update k.disk s data }) := by
  rw [exec_writeSector, if_pos (show 0 ≤ s ∧ s < NumSectors from h)]

namespace IndirectBlock

lemma ofSector_length (s : Sector) : (ofSector s).dataSectors.length = MaxSector := by
  simp [ofSector]

lemma toSector_ofSector (s : Sector) : (ofSector s).toSector = s := by
  rw [toSector]
  conv_rhs => rw [← Sector.ofWords_word s]
  congr 1
  funext j
  have hj : j.val < (ofSector s).dataSectors.length := by
    rw [ofSector_length]
    exact j.isLt
  rw [List.getD_eq_getElem _ _ hj]
  simp only [ofSector, List.getElem_ofFn, Fin.eta, BitVec.ofInt_toInt]

lemma ofSector_toSector (b : IndirectBlock) (hl : b.dataSectors.length = MaxSector)
    (hr : ∀ s ∈ b.dataSectors, s = EmptyBlock ∨ InDisk s) : ofSector b.toSector = b := by
  cases b with
  | mk ds =>
    rw [ofSector, IndirectBlock.mk.injEq]
    apply List.ext_getElem
    · simpa using hl.symm
    · intro i h1 h2
      have hb : -2147483648 ≤ ds[i] ∧ ds[i] < 2147483648 := by
        rcases hr _ (List.getElem_mem h2) with he | ⟨h0, h3⟩
        · rw [he]; simp only [EmptyBlock]; omega
        · simp only [NumSectors] at h3; omega
      simp only [toSector, List.getElem_ofFn, Sector.word_ofWords, List.getD_eq_getElem _ _ h2]
      exact int32_of_bounds hb.1 hb.2

end IndirectBlock

namespace FileHeader

structure Fits (h : FileHeader) : Prop where
  permisstion : int32 h.permisstion = h.permisstion
  numBytes : int32 h.numBytes = h.numBytes
  numSectors : int32 h.numSectors = h.numSectors
  length : h.dataSectors.length = NumDirect
  range : ∀ s ∈ h.dataSectors, s = EmptyBlock ∨ InDisk s

lemma ofSector_toSector (h : FileHeader) (hf : h.Fits) : ofSector h.toSector = h := by
  cases h with
  | mk p n m ds =>
    have hds : List.ofFn (fun i : Fin NumDirect => int32 (ds.getD i EmptyBlock)) = ds := by
      apply List.ext_getElem
      · simpa using hf.length.symm
      · intro i h1 h2
        have hb : -2147483648 ≤ ds[i] ∧ ds[i] < 2147483648 := by
          rcases hf.range _ (List.getElem_mem h2) with he | ⟨h0, h3⟩
          · rw [he]; simp only [EmptyBlock]; omega
          · simp only [NumSectors] at h3; omega
        simp only [List.getElem_ofFn, List.getD_eq_getElem _ _ h2]
        exact int32_of_bounds hb.1 hb.2
    simp only [ofSector, toSector, Sector.word_ofWords]
    congr 1
    · exact hf.permisstion
    · exact hf.numBytes
    · exact hf.numSectors

end FileHeader

def sectors (l : List ℕ) : List ℤ := l.map Nat.cast

@[simp] lemma sectors_nil : sectors [] = [] := rfl

@[simp] lemma sectors_cons (i : ℕ) (l : List ℕ) : sectors (i :: l) = (i : ℤ) :: sectors l := rfl

@[simp] lemma sectors_append (l l' : List ℕ) : sectors (l ++ l') = sectors l ++ sectors l' := List.map_append

@[simp] lemma sectors_length (l : List ℕ) : (sectors l).length = l.length := List.length_map _

lemma mem_sectors {l : List ℕ} {s : ℤ} : s ∈ sectors l ↔ ∃ i ∈ l, (i : ℤ) = s := List.mem_map

lemma sectors_nodup {l : List ℕ} (h : l.Nodup) : (sectors l).Nodup := h.map Nat.cast_injective

lemma inDisk_of_free {m : FreeMap} {s : ℤ} (h : s ∈ sectors m.free) : InDisk s := by
  obtain ⟨i, hi, rfl⟩ := mem_sectors.mp h
  have := (Bitmap.mem_free.mp hi).1
  exact ⟨by omega, by simp only [NumSectors]; omega⟩

namespace IndirectBlock

lemma allocateLoop_done (num a : ℤ) (h : num ≤ a) (ds : List ℤ) (m : FreeMap) :
    allocateLoop num ds a m = .ok (a, ds, m) := by
  cases ds with
  | nil => rfl
  | cons d ds => rw [allocateLoop, if_neg (by omega)]

lemma allocateLoop_skip (num a : ℤ) (part ds : List ℤ) (hp : ∀ s ∈ part, s ≠ EmptyBlock) (m : FreeMap)
    {x : ℤ} {ds' : List ℤ} {m' : FreeMap} (h : allocateLoop num ds a m = .ok (x, ds', m')) :
    allocateLoop num (part ++ ds) a m = .ok (x, part ++ ds', m') := by
  induction part with
  | nil => exact h
  | cons d part ih =>
    have ih := ih fun s hs => hp s (List.mem_cons_of_mem _ hs)
    by_cases ha : a < num
    · rw [List.cons_append, allocateLoop, if_pos ha, if_pos (hp d List.mem_cons_self), ih]
      rfl
    · rw [allocateLoop_done num a (by omega)] at h ⊢
      cases h
      rfl

lemma allocateLoop_fill (r n : ℕ) (a : ℤ) (m : FreeMap) (used rest : List ℕ) (hf : m.free = used ++ rest)
    (hu : used.length = min r n) :
    ∃ m', allocateLoop (a + r) (List.replicate n EmptyBlock) a m =
      .ok (a + used.length, sectors used ++ List.replicate (n - used.length) EmptyBlock, m') ∧
        m'.free = rest := by
  induction n generalizing r a m used with
  | zero =>
    obtain rfl : used = [] := List.length_eq_zero_iff.mp (by omega)
    exact ⟨m, by simp [allocateLoop], by simpa using hf⟩
  | succ n ih =>
    cases r with
    | zero =>
      obtain rfl : used = [] := List.length_eq_zero_iff.mp (by omega)
      refine ⟨m, ?_, by simpa using hf⟩
      rw [allocateLoop_done _ _ (by simp)]
      simp
    | succ r =>
      cases used with
      | nil => simp only [List.length_nil] at hu; omega
      | cons i used =>
        obtain ⟨m₁, hm, hfree, -⟩ := Bitmap.findAndSet_cons m hf
        obtain ⟨m', hl, hr⟩ := ih r (a + 1) m₁ used hfree (by simp only [List.length_cons] at hu; omega)
        refine ⟨m', ?_, hr⟩
        have hne : (i : ℤ) ≠ EmptyBlock := by simp only [EmptyBlock]; omega
        rw [List.replicate_succ, allocateLoop, if_pos (by push_cast; omega), if_neg (by simp), hm]
        have hnum : a + ((r + 1 : ℕ) : ℤ) = a + 1 + r := by push_cast; ring
        simp only [bind, Except.bind, check, hne, ne_eq, not_false_eq_true, decide_true, if_true, hnum, hl]
        have hc : n + 1 - (used.length + 1) = n - used.length := by omega
        have hlen : a + ((used.length + 1 : ℕ) : ℤ) = a + 1 + used.length := by push_cast; ring
        simp only [pure, Except.pure, sectors_cons, List.cons_append, List.length_cons, hc, hlen]

lemma allocate_few (b : IndirectBlock) (m : FreeMap) (r : ℕ) (h : m.free.length < r) :
    b.allocate m r = .ok (-1, b, m) := by
  rw [allocate, Bitmap.numClear_eq]
  simp only [bind, Except.bind]
  rw [if_pos (Or.inr (by exact_mod_cast h))]
  rfl

lemma allocate_enough (part : List ℤ) (n : ℕ) (hp : ∀ s ∈ part, s ≠ EmptyBlock) (m : FreeMap) (r : ℕ)
    (hr : r ≤ m.free.length) (used rest : List ℕ) (hf : m.free = used ++ rest) (hu : used.length = min r n) :
    ∃ m', allocate ⟨part ++ List.replicate n EmptyBlock⟩ m r =
      .ok (used.length, ⟨part ++ (sectors used ++ List.replicate (n - used.length) EmptyBlock)⟩, m') ∧
        m'.free = rest := by
  obtain ⟨m', hl, hfree⟩ := allocateLoop_fill r n 0 m used rest hf hu
  refine ⟨m', ?_, hfree⟩
  rw [zero_add, zero_add] at hl
  rw [allocate, Bitmap.numClear_eq]
  simp only [bind, Except.bind]
  rw [if_neg (by omega), allocateLoop_skip _ _ _ _ hp _ hl]
  rfl

end IndirectBlock

end NachosFileSys
