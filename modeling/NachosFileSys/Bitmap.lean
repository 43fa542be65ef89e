import NachosFileSys.Kernel

/-! `lib/bitmap.cc`: an array of bits kept in 32-bit words. -/

namespace NachosFileSys

open Lib.Bytes

def numWords (numBits : ℕ) : ℕ := (numBits + 31) / 32

structure Bitmap (numBits : ℕ) where
  map : Vector Word (numWords numBits)
  deriving DecidableEq

namespace Bitmap

variable {n : ℕ}

def empty (n : ℕ) : Bitmap n := ⟨Vector.replicate _ 0⟩

def mask (which : ℕ) : Word := 1#32 <<< (which % 32)

lemma slot_lt {which : ℕ} (h : which < n) : which / 32 < numWords n := by
  simp only [numWords]
  omega

def word (b : Bitmap n) (which : ℕ) (h : which < n) : Word :=
  have := slot_lt h
  b.map[which / 32]

def setWord (b : Bitmap n) (which : ℕ) (h : which < n) (w : Word) : Bitmap n :=
  ⟨b.map.set (which / 32) w (slot_lt h)⟩

def test (b : Bitmap n) (which : ℤ) : Except Fault Bool :=
  if h : 0 ≤ which ∧ which.toNat < n then
    .ok (b.word which.toNat h.2 &&& mask which.toNat != 0)
  else .error .assertion

def mark (b : Bitmap n) (which : ℤ) : Except Fault (Bitmap n) :=
  if h : 0 ≤ which ∧ which.toNat < n then do
    let b' := b.setWord which.toNat h.2 (b.word which.toNat h.2 ||| mask which.toNat)
    check (← b'.test which)
    pure b'
  else .error .assertion

def clear (b : Bitmap n) (which : ℤ) : Except Fault (Bitmap n) :=
  if h : 0 ≤ which ∧ which.toNat < n then do
    let b' := b.setWord which.toNat h.2 (b.word which.toNat h.2 &&& ~~~mask which.toNat)
    check (!(← b'.test which))
    pure b'
  else .error .assertion

def findAndSetLoop (b : Bitmap n) : List ℕ → Except Fault (ℤ × Bitmap n)
  | [] => .ok (-1, b)
  | i :: is => do
    if ← b.test i then b.findAndSetLoop is
    else
      let b' ← b.mark i
      pure (i, b')

def findAndSet (b : Bitmap n) : Except Fault (ℤ × Bitmap n) := b.findAndSetLoop (List.range n)

def numClearLoop (b : Bitmap n) : List ℕ → ℤ → Except Fault ℤ
  | [], count => .ok count
  | i :: is, count => do
    if ← b.test i then b.numClearLoop is count else b.numClearLoop is (count + 1)

def numClear (b : Bitmap n) : Except Fault ℤ := b.numClearLoop (List.range n) 0

def new (n : ℕ) : Except Fault (Bitmap n) := do
  check (decide (0 < n))
  (List.range n).foldlM (fun (b : Bitmap n) (i : ℕ) => b.clear i) (empty n)

/-! The set of marked bits that a bitmap stands for. -/

def bit (b : Bitmap n) (i : ℕ) : Bool :=
  if h : i < n then (b.word i h).getLsbD (i % 32) else true

lemma getLsbD_mask (i j : ℕ) (hj : j < 32) : (mask i).getLsbD j = decide (j = i % 32) := by
  have hi : i % 32 < 32 := Nat.mod_lt _ (by omega)
  simp only [mask, BitVec.getLsbD_shiftLeft, BitVec.getLsbD_one]
  grind

lemma and_mask_ne_zero (w : Word) (i : ℕ) : (w &&& mask i != 0) = w.getLsbD (i % 32) := by
  have hi : i % 32 < 32 := Nat.mod_lt _ (by omega)
  cases hw : w.getLsbD (i % 32) with
  | false =>
    have hz : w &&& mask i = 0 := by
      apply BitVec.eq_of_getLsbD_eq
      intro j hj
      rw [BitVec.getLsbD_and, getLsbD_mask i j hj]
      by_cases he : j = i % 32
      · subst he
        simp [hw]
      · simp [he]
    simp [hz]
  | true =>
    have hz : w &&& mask i ≠ 0 := by
      intro h0
      have hb := congrArg (fun v : Word => v.getLsbD (i % 32)) h0
      simp [BitVec.getLsbD_and, getLsbD_mask i _ hi, hw] at hb
    simpa using hz

lemma test_eq (b : Bitmap n) (i : ℕ) (h : i < n) : b.test i = .ok (b.bit i) := by
  rw [test, dif_pos (by omega), bit, dif_pos h, and_mask_ne_zero]
  rfl

lemma bit_setWord (b : Bitmap n) (i : ℕ) (h : i < n) (w : Word) (j : ℕ) (hj : j < n) :
    (b.setWord i h w).bit j = if j / 32 = i / 32 then w.getLsbD (j % 32) else b.bit j := by
  simp only [bit, dif_pos hj, word, setWord, Vector.getElem_set]
  by_cases he : i / 32 = j / 32
  · rw [if_pos he, if_pos he.symm]
  · rw [if_neg he, if_neg (Ne.symm he)]

lemma bit_word (b : Bitmap n) (i j : ℕ) (hi : i < n) (hj : j < n) (he : j / 32 = i / 32) :
    (b.word i hi).getLsbD (j % 32) = b.bit j := by
  simp only [bit, dif_pos hj, word, he]

lemma ext_bit (h32 : 32 ∣ n) {a b : Bitmap n} (h : ∀ i < n, a.bit i = b.bit i) : a = b := by
  cases a with
  | mk a =>
    cases b with
    | mk b =>
      congr 1
      apply Vector.ext
      intro j hj
      apply BitVec.eq_of_getLsbD_eq
      intro c hc
      simp only [numWords] at hj
      have hb := h (32 * j + c) (by omega)
      have hd : (32 * j + c) / 32 = j := by omega
      have hm : (32 * j + c) % 32 = c := by omega
      simp only [bit, dif_pos (show 32 * j + c < n by omega), word, hd, hm] at hb
      exact hb

lemma mark_spec (b : Bitmap n) (i : ℕ) (h : i < n) :
    ∃ b', b.mark i = .ok b' ∧ ∀ j < n, b'.bit j = (b.bit j || decide (j = i)) := by
  have hb : ∀ j < n, (b.setWord i h (b.word i h ||| mask i)).bit j = (b.bit j || decide (j = i)) := by
    intro j hj
    rw [bit_setWord b i h _ j hj, BitVec.getLsbD_or, getLsbD_mask i _ (Nat.mod_lt _ (by omega))]
    by_cases he : j / 32 = i / 32
    · rw [if_pos he, bit_word b i j h hj he]
      congr 1
      grind
    · rw [if_neg he]
      have hne : j ≠ i := by rintro rfl; exact he rfl
      simp [hne]
  refine ⟨_, ?_, hb⟩
  rw [mark, dif_pos (by omega)]
  simp only [Int.toNat_natCast, test_eq _ i h, hb i h]
  simp [check, pure, Except.pure, bind, Except.bind]

lemma clear_spec (b : Bitmap n) (i : ℕ) (h : i < n) :
    ∃ b', b.clear i = .ok b' ∧ ∀ j < n, b'.bit j = (b.bit j && !decide (j = i)) := by
  have hb : ∀ j < n, (b.setWord i h (b.word i h &&& ~~~mask i)).bit j = (b.bit j && !decide (j = i)) := by
    intro j hj
    have hm : j % 32 < 32 := Nat.mod_lt _ (by omega)
    rw [bit_setWord b i h _ j hj, BitVec.getLsbD_and, BitVec.getLsbD_not, getLsbD_mask i _ hm]
    by_cases he : j / 32 = i / 32
    · rw [if_pos he, bit_word b i j h hj he]
      congr 1
      grind
    · rw [if_neg he]
      have hne : j ≠ i := by rintro rfl; exact he rfl
      simp [hne]
  refine ⟨_, ?_, hb⟩
  rw [clear, dif_pos (by omega)]
  simp only [Int.toNat_natCast, test_eq _ i h, hb i h]
  simp [check, pure, Except.pure, bind, Except.bind]

def free (b : Bitmap n) : List ℕ := (List.range n).filter fun i => !b.bit i

lemma mem_free {b : Bitmap n} {i : ℕ} : i ∈ b.free ↔ i < n ∧ b.bit i = false := by
  simp [free]

lemma free_nodup (b : Bitmap n) : b.free.Nodup := List.nodup_range.filter _

lemma free_length_le (b : Bitmap n) : b.free.length ≤ n := (List.length_filter_le _ _).trans List.length_range.le

lemma numClearLoop_eq (b : Bitmap n) (is : List ℕ) (hi : ∀ i ∈ is, i < n) (count : ℤ) :
    b.numClearLoop is count = .ok (count + (is.filter fun i => !b.bit i).length) := by
  induction is generalizing count with
  | nil => simp [numClearLoop]
  | cons i is ih =>
    have ih := ih (fun j hj => hi j (List.mem_cons_of_mem _ hj))
    rw [numClearLoop, test_eq b i (hi i List.mem_cons_self)]
    cases hb : b.bit i with
    | true => simpa [bind, Except.bind, hb] using ih count
    | false =>
      have hc := ih (count + 1)
      simp only [bind, Except.bind, hb, List.filter_cons, Bool.not_false, if_true, List.length_cons]
      simp only [Bool.false_eq_true, if_false]
      rw [hc]
      push_cast
      congr 1
      ring

lemma numClear_eq (b : Bitmap n) : b.numClear = .ok (b.free.length : ℤ) := by
  rw [numClear, numClearLoop_eq b _ (fun i hi => List.mem_range.mp hi), free]
  simp

lemma findAndSetLoop_full (b : Bitmap n) (is : List ℕ) (hi : ∀ i ∈ is, i < n)
    (h : is.filter (fun i => !b.bit i) = []) : b.findAndSetLoop is = .ok (-1, b) := by
  induction is with
  | nil => rfl
  | cons i is ih =>
    rw [findAndSetLoop, test_eq b i (hi i List.mem_cons_self)]
    cases hb : b.bit i with
    | true =>
      simp only [List.filter_cons, hb] at h
      simpa [bind, Except.bind] using ih (fun j hj => hi j (List.mem_cons_of_mem _ hj)) h
    | false => simp [hb] at h

lemma findAndSetLoop_cons (b : Bitmap n) (is : List ℕ) (hi : ∀ i ∈ is, i < n) (i : ℕ) (rest : List ℕ)
    (h : is.filter (fun i => !b.bit i) = i :: rest) :
    ∃ b', b.mark i = .ok b' ∧ b.findAndSetLoop is = .ok (i, b') := by
  induction is with
  | nil => simp at h
  | cons j is ih =>
    rw [findAndSetLoop, test_eq b j (hi j List.mem_cons_self)]
    cases hb : b.bit j with
    | true =>
      simp only [List.filter_cons, hb] at h
      simpa [bind, Except.bind] using ih (fun j hj => hi j (List.mem_cons_of_mem _ hj)) h
    | false =>
      simp only [List.filter_cons, hb, Bool.not_false, if_true, List.cons.injEq] at h
      obtain ⟨rfl, -⟩ := h
      obtain ⟨b', hm, _⟩ := mark_spec b j (hi j List.mem_cons_self)
      refine ⟨b', hm, ?_⟩
      simp [bind, Except.bind, hm, pure, Except.pure]

lemma findAndSet_full (b : Bitmap n) (h : b.free = []) : b.findAndSet = .ok (-1, b) :=
  findAndSetLoop_full b _ (fun _ hi => List.mem_range.mp hi) h

lemma findAndSet_cons (b : Bitmap n) {i : ℕ} {rest : List ℕ} (h : b.free = i :: rest) :
    ∃ b', b.findAndSet = .ok (i, b') ∧ b'.free = rest ∧
      ∀ j < n, b'.bit j = (b.bit j || decide (j = i)) := by
  have hi : i < n := (mem_free.mp (h ▸ List.mem_cons_self)).1
  obtain ⟨b', hm, hf⟩ := findAndSetLoop_cons b _ (fun _ hi => List.mem_range.mp hi) i rest h
  obtain ⟨b'', hm', hbit⟩ := mark_spec b i hi
  obtain rfl : b' = b'' := by
    rw [hm] at hm'
    exact Except.ok.inj hm'
  refine ⟨b', hf, ?_, hbit⟩
  have hn : i ∉ rest := (List.nodup_cons.mp (h ▸ free_nodup b)).1
  -- the new free list is the old one without `i`, which stands at its head
  have hfree : b'.free = b.free.filter (fun j => decide (j ≠ i)) := by
    rw [free, free, List.filter_filter]
    apply List.filter_congr
    intro j hj
    rw [hbit j (List.mem_range.mp hj), Bool.not_or, Bool.and_comm]
    by_cases he : j = i <;> simp [he]
  rw [hfree, h, List.filter_cons]
  simp only [ne_eq, not_true_eq_false, decide_false, Bool.false_eq_true, if_false]
  exact List.filter_eq_self.mpr fun j hj => by
    simp only [decide_eq_true_eq]
    rintro rfl
    exact hn hj

lemma bit_empty (i : ℕ) (h : i < n) : (empty n).bit i = false := by
  simp [bit, h, word, empty]

lemma free_empty (n : ℕ) : (empty n).free = List.range n := by
  rw [free, List.filter_eq_self]
  intro i hi
  rw [bit_empty i (List.mem_range.mp hi), Bool.not_false]

lemma clear_empty {i : ℕ} (h : i < n) : (empty n).clear i = .ok (empty n) := by
  have hset : (empty n).setWord i h ((empty n).word i h &&& ~~~mask i) = empty n := by
    have hzero : (empty n).word i h &&& ~~~mask i = 0 := by
      rw [word, empty, Vector.getElem_replicate]
      exact BitVec.zero_and
    rw [hzero, setWord, empty]
    congr 1
    apply Vector.ext
    intro j hj
    rw [Vector.getElem_set, Vector.getElem_replicate]
    exact ite_self _
  rw [clear, dif_pos (by omega)]
  simp only [Int.toNat_natCast]
  rw [hset, test_eq _ i h, bit_empty i h]
  rfl

lemma new_eq (h : 0 < n) : new n = .ok (empty n) := by
  have hl : ∀ is : List ℕ, (∀ i ∈ is, i < n) →
      is.foldlM (fun (b : Bitmap n) (i : ℕ) => b.clear i) (empty n) = Except.ok (empty n) := by
    intro is
    induction is with
    | nil => intro _; rfl
    | cons i is ih =>
      intro hi
      rw [List.foldlM_cons, clear_empty (hi i List.mem_cons_self)]
      exact ih fun j hj => hi j (List.mem_cons_of_mem _ hj)
  rw [new, check, if_pos (by simpa using h)]
  exact hl _ fun i hi => List.mem_range.mp hi

end Bitmap

end NachosFileSys
