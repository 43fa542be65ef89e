import NachosFileSys.Allocation

namespace NachosFileSys

open Lib.Programs Lib.Bytes

def Marked (m : FreeMap) (s : ℤ) : Prop := InDisk s ∧ m.bit s.toNat = true

lemma marked_iff {m : FreeMap} {s : ℤ} : Marked m s ↔ InDisk s ∧ s ∉ sectors m.free := by
  refine and_congr_right fun hs => ?_
  have hlt : s.toNat < 1024 := by
    have := hs.1
    have := hs.2
    simp only [NumSectors] at this
    omega
  have hmem : s ∈ sectors m.free ↔ m.bit s.toNat = false := by
    rw [mem_sectors]
    constructor
    · rintro ⟨i, hi, rfl⟩
      exact (Bitmap.mem_free.mp hi).2
    · intro hb
      exact ⟨s.toNat, Bitmap.mem_free.mpr ⟨hlt, hb⟩, Int.toNat_of_nonneg hs.1⟩
  rw [hmem, Bool.not_eq_false]

lemma marked_test {m : FreeMap} {s : ℤ} (h : Marked m s) : m.test s = .ok true := by
  obtain ⟨hs, hb⟩ := h
  have hn : ((s.toNat : ℕ) : ℤ) = s := Int.toNat_of_nonneg hs.1
  have hlt : s.toNat < 1024 := by
    have := hs.2
    simp only [NumSectors] at this
    omega
  rw [← hn, Bitmap.test_eq m s.toNat hlt, hb]

def Cleared (m m' : FreeMap) (l : List ℤ) : Prop :=
  ∀ i < 1024, m'.bit i = (m.bit i && decide ((i : ℤ) ∉ l))

namespace Cleared

variable {m m₁ m₂ : FreeMap} {l l' : List ℤ}

lemma refl (m : FreeMap) : Cleared m m [] := fun i _ => by simp

lemma trans (h : Cleared m m₁ l) (h' : Cleared m₁ m₂ l') : Cleared m m₂ (l ++ l') := fun i hi => by
  rw [h' i hi, h i hi, Bool.and_assoc]
  simp

lemma marked (h : Cleared m m₁ l) {s : ℤ} (hs : Marked m s) (hl : s ∉ l) : Marked m₁ s := by
  refine ⟨hs.1, ?_⟩
  have hn : ((s.toNat : ℕ) : ℤ) = s := Int.toNat_of_nonneg hs.1.1
  have := hs.1.2
  simp only [NumSectors] at this
  rw [h s.toNat (by omega), hs.2, hn]
  simpa using hl

lemma clear {m : FreeMap} {s : ℤ} (h : InDisk s) : ∃ m', m.clear s = .ok m' ∧ Cleared m m' [s] := by
  have hn : ((s.toNat : ℕ) : ℤ) = s := Int.toNat_of_nonneg h.1
  have := h.2
  simp only [NumSectors] at this
  obtain ⟨m', hc, hb⟩ := Bitmap.clear_spec m s.toNat (by omega)
  rw [hn] at hc
  refine ⟨m', hc, fun i hi => ?_⟩
  rw [hb i hi]
  have he : i = s.toNat ↔ (i : ℤ) = s := by omega
  simp [he]

lemma free_length_le (h : Cleared m m₁ l) : m.free.length ≤ m₁.free.length := by
  refine (m.free_nodup.subperm fun i hi => ?_).length_le
  obtain ⟨hlt, hb⟩ := Bitmap.mem_free.mp hi
  exact Bitmap.mem_free.mpr ⟨hlt, by rw [h i hlt, hb, Bool.false_and]⟩

end Cleared

namespace IndirectBlock

lemma deallocateLoop_pad (n : ℕ) (m : FreeMap) : deallocateLoop (List.replicate n EmptyBlock) m = .ok m := by
  induction n with
  | zero => rfl
  | succ n ih => rw [List.replicate_succ, deallocateLoop, if_pos rfl, ih]

lemma deallocateLoop_spec (part : List ℤ) (n : ℕ) (m : FreeMap) (hm : ∀ s ∈ part, Marked m s)
    (hnd : part.Nodup) :
    ∃ m', deallocateLoop (part ++ List.replicate n EmptyBlock) m = .ok m' ∧ Cleared m m' part := by
  induction part generalizing m with
  | nil => exact ⟨m, deallocateLoop_pad n m, .refl m⟩
  | cons s part ih =>
    obtain ⟨hs, hnd⟩ := List.nodup_cons.mp hnd
    have hms := hm s List.mem_cons_self
    obtain ⟨m₁, hc, hcl⟩ := Cleared.clear (m := m) hms.1
    obtain ⟨m', hd, hcl'⟩ := ih m₁ (fun x hx => hcl.marked (hm x (List.mem_cons_of_mem _ hx)) (by
      rw [List.mem_singleton]
      rintro rfl
      exact hs hx)) hnd
    refine ⟨m', ?_, hcl.trans hcl'⟩
    rw [List.cons_append, deallocateLoop, if_neg hms.1.ne_empty, marked_test hms]
    simp only [check, bind, Except.bind, if_true, hc, hd]

end IndirectBlock

namespace FileHeader

lemma deallocateLoop_empty (n count : ℕ) (h : count ≤ n) (m : FreeMap) (k : Kernel) :
    exec (deallocateLoop (List.replicate n EmptyBlock) count m) k =
      .ok ((List.replicate n EmptyBlock, m), k) := by
  induction n generalizing count with
  | zero =>
    obtain rfl : count = 0 := by omega
    rfl
  | succ n ih =>
    cases count with
    | zero => rw [deallocateLoop]; rfl
    | succ count =>
      rw [List.replicate_succ, deallocateLoop, if_pos rfl, exec_bind, ih count (by omega)]
      rfl

lemma deallocateLoop_outside (slots : List ℤ) (count : ℕ) (h : slots.length < count) (m : FreeMap) (k : Kernel)
    (x : (List ℤ × FreeMap) × Kernel) : exec (deallocateLoop slots count m) k ≠ .ok x := by
  induction slots generalizing count m k x with
  | nil =>
    obtain ⟨c, rfl⟩ : ∃ c, count = c + 1 := ⟨count - 1, by simp only [List.length_nil] at h; omega⟩
    simp [deallocateLoop]
  | cons s slots ih =>
    obtain ⟨c, rfl⟩ : ∃ c, count = c + 1 := ⟨count - 1, by simp only [List.length_cons] at h; omega⟩
    have ih := fun m k => ih c (by simpa using h) m k
    rcases x with ⟨x, k'⟩
    rw [deallocateLoop]
    intro he
    split at he
    · obtain ⟨a, t, ha, -⟩ := exec_bind_ok.mp he
      exact ih _ _ _ ha
    · -- the loop goes on after six steps at this entry
      obtain ⟨_, _, -, he⟩ := exec_bind_ok.mp he
      obtain ⟨_, _, -, he⟩ := exec_bind_ok.mp he
      obtain ⟨_, _, -, he⟩ := exec_bind_ok.mp he
      obtain ⟨_, _, -, he⟩ := exec_bind_ok.mp he
      obtain ⟨_, _, -, he⟩ := exec_bind_ok.mp he
      obtain ⟨_, _, -, he⟩ := exec_bind_ok.mp he
      obtain ⟨_, _, -, he⟩ := exec_bind_ok.mp he
      obtain ⟨a, t, ha, -⟩ := exec_bind_ok.mp he
      exact ih _ _ _ ha

lemma deallocateLoop_spec {k : Kernel} {slots bs secs : List ℤ} (h : Stored k.disk slots bs secs) :
    ∀ (count : ℕ) (m : FreeMap), count ≤ slots.length → (∀ s ∈ bs ++ secs, Marked m s) → (bs ++ secs).Nodup →
    ∃ slots' freed m', exec (deallocateLoop slots count m) k = .ok ((slots', m'), k) ∧ Cleared m m' freed ∧
      freed ⊆ bs ++ secs ∧ (bs.length ≤ count → bs ++ secs ⊆ freed) := by
  induction h with
  | nil n =>
    intro count m hc _ _
    rw [List.length_replicate] at hc
    exact ⟨_, [], m, deallocateLoop_empty n count hc m k, .refl m, by simp, by simp⟩
  | @cons b part slots bs secs hb hpart hpos hle hfull hblock rest ih =>
    intro count m hc hm hnd
    cases count with
    | zero =>
      refine ⟨b :: slots, [], m, ?_, .refl m, by simp, by simp⟩
      rw [deallocateLoop]
      rfl
    | succ count =>
      have hbm : Marked m b := hm b (by simp)
      have hperm : (b :: bs ++ (part ++ secs)).Perm (part ++ ([b] ++ (bs ++ secs))) := by
        rw [← List.append_assoc]
        exact (List.perm_append_comm.append_right _).trans (by simp)
      have hnd := hperm.nodup_iff.mp hnd
      obtain ⟨hpn, hrn, hdisj⟩ := List.nodup_append.mp hnd
      obtain ⟨hbn, hrn⟩ := List.nodup_cons.mp hrn
      -- the data sectors of the block, then the block, then the rest of the table
      obtain ⟨m₁, hd₁, hc₁⟩ := IndirectBlock.deallocateLoop_spec part (32 - part.length) m
        (fun s hs => hm s (hperm.mem_iff.mpr (List.mem_append_left _ hs))) hpn
      have hbp : b ∉ part := fun hp => hdisj b hp b (by simp) rfl
      have hbm₁ : Marked m₁ b := hc₁.marked hbm hbp
      obtain ⟨m₂, hd₂, hc₂⟩ := Cleared.clear (m := m₁) hb
      obtain ⟨slots', freed, m', he, hc₃, hsub, hall⟩ := ih count m₂ (by simpa using hc) (fun s hs => by
        have hs' : s ∈ [b] ++ (bs ++ secs) := List.mem_append_right _ hs
        refine hc₂.marked (hc₁.marked (hm s (hperm.mem_iff.mpr (List.mem_append_right _ hs')))
          (fun hp => hdisj s hp s hs' rfl)) ?_
        rw [List.mem_singleton]
        rintro rfl
        exact hbn hs) hrn
      refine ⟨EmptyBlock :: slots', (part ++ [b]) ++ freed, m', ?_, (hc₁.trans hc₂).trans hc₃, ?_, ?_⟩
      · rw [deallocateLoop, if_neg hb.ne_empty, marked_test hbm]
        simp only [exec_bind, exec_lift_ok, exec_assert, if_true, IndirectBlock.fetchFrom,
          exec_read_inDisk hb, exec_pure, hblock, IndirectBlock.deallocate, hd₁, marked_test hbm₁, hd₂, he]
      · intro s hs
        rw [hperm.mem_iff]
        simp only [List.append_assoc, List.mem_append, List.mem_singleton] at hs ⊢
        rcases hs with hs | hs | hs
        · exact Or.inl hs
        · exact Or.inr (Or.inl hs)
        · exact Or.inr (Or.inr (List.mem_append.mp (hsub hs)))
      · intro hlen s hs
        have hall := hall (by simpa using hlen)
        rw [hperm.mem_iff] at hs
        simp only [List.append_assoc, List.mem_append, List.mem_singleton] at hs ⊢
        rcases hs with hs | hs | hs
        · exact Or.inl hs
        · exact Or.inr (Or.inl hs)
        · exact Or.inr (Or.inr (hall (List.mem_append.mpr hs)))

end FileHeader

lemma Cleared.of_taken {m m₁ m₂ : FreeMap} {l freed : List ℤ} (ht : Taken m m₁ l) (hc : Cleared m₁ m₂ freed)
    (hsub : freed ⊆ l) (hall : l ⊆ freed) : m₂ = m := by
  apply Bitmap.ext_bit (by decide)
  intro i hi
  have hin : InDisk i := ⟨by omega, by simp only [NumSectors]; omega⟩
  have hmem : ∀ m : FreeMap, m.bit i = decide ((i : ℤ) ∉ sectors m.free) := by
    intro m
    rw [Bool.eq_iff_iff, decide_eq_true_iff]
    exact ⟨fun h => (marked_iff.mp ⟨hin, h⟩).2, fun h => (marked_iff.mpr ⟨hin, h⟩).2⟩
  rw [hc i hi, hmem m₁, hmem m, Bool.eq_iff_iff, Bool.and_eq_true, decide_eq_true_iff, decide_eq_true_iff,
    decide_eq_true_iff]
  constructor
  · rintro ⟨hf, hl⟩ hm
    obtain ⟨used, hused, hp⟩ := ht
    rw [hused, sectors_append] at hm
    rcases List.mem_append.mp hm with hm | hm
    · exact hl (hall (hp.mem_iff.mp hm))
    · exact hf hm
  · intro hm
    exact ⟨fun hf => hm (ht.free_subset hf), fun hl => hm (ht.mem_free (hsub hl))⟩

namespace FileHeader

/-- `Deallocate` stops at no assertion, indexes only inside the table and leaves the free map `m`. -/
def DeallocatesTo (h : FileHeader) (m' m : FreeMap) (k : Kernel) : Prop :=
  ∃ h' k', exec (h.deallocate m') k = .ok ((h', m), k')

/-- `Deallocate` undoes the calls of `Allocate` exactly when these took at most `NumDirect` data
sectors: its loop runs over the data sectors, but over a table of blocks. -/
theorem deallocate_undoes_allocate_iff (k k' : Kernel) (m m' : FreeMap) (permisstion : ℤ) (h : FileHeader)
    (sizes : List ℤ) (hsizes : ∀ n ∈ sizes, 0 ≤ n)
    (ha : exec (allocateAll (fresh permisstion) m sizes) k = .ok ((true, h, m'), k')) :
    h.DeallocatesTo m' m k' ↔ totalNeeded sizes ≤ NumDirect := by
  obtain ⟨bs, secs, d', rfl, hon, hn, ht, -, hnum, -⟩ := allocateAll_inv sizes (fresh_on permisstion k.disk)
    List.nodup_nil (by simp) ha
  simp only [List.nil_append] at hon
  have hcount : h.numSectors.toNat = totalNeeded sizes := by
    rw [hnum hsizes rfl]
    simp
  have hmarked : ∀ s ∈ bs ++ secs, Marked m' s := fun s hs =>
    marked_iff.mpr ⟨ht.inDisk hs, ht.not_mem_free hs⟩
  constructor
  · rintro ⟨h', k', he⟩
    by_contra hlt
    rw [deallocate] at he
    obtain ⟨⟨ds, m₁⟩, k₁, hl, -⟩ := exec_bind_ok.mp he
    exact deallocateLoop_outside _ _ (by rw [hon.length, hcount]; omega) m' _ _ hl
  · intro hle
    obtain ⟨slots, freed, m₁, he, hc, hsub, hall⟩ := deallocateLoop_spec (k := { k with disk := d' })
      hon.stored (totalNeeded sizes) m' (by rw [hon.length]; exact hle) hmarked ht.nodup
    have hbl := hon.stored.blocks_length
    obtain rfl : m₁ = m := Cleared.of_taken ht hc hsub (hall (by omega))
    refine ⟨{ h with dataSectors := slots }, { k with disk := d' }, ?_⟩
    rw [deallocate, hcount, exec_bind, he]
    rfl

theorem deallocate_undoes_allocate_300 :
    ∃ h m' k', exec (allocateAll (fresh 0) (Bitmap.empty 1024) [300]) Kernel.blank = .ok ((true, h, m'), k') ∧
      h.DeallocatesTo m' (Bitmap.empty 1024) k' := by
  obtain ⟨h, m', k', ha⟩ := allocateAll_blank 300 (by decide)
  exact ⟨h, m', k', ha,
    (deallocate_undoes_allocate_iff _ k' _ m' 0 h [300] (by decide) ha).mpr (by decide)⟩

/-- Thirty data sectors are one more than the table has entries. -/
theorem deallocate_not_undoes_allocate_3840 :
    ¬∀ (k k' : Kernel) (m m' : FreeMap) (permisstion : ℤ) (h : FileHeader) (sizes : List ℤ),
      (∀ n ∈ sizes, 0 ≤ n) →
      exec (allocateAll (fresh permisstion) m sizes) k = .ok ((true, h, m'), k') →
      h.DeallocatesTo m' m k' := by
  intro hall
  obtain ⟨h, m', k', ha⟩ := allocateAll_blank 3840 (by decide)
  obtain ⟨bs, secs, d', rfl, hon, hn, -, -, hnum, -⟩ := allocateAll_inv [3840] (fresh_on 0 Kernel.blank.disk)
    List.nodup_nil (by simp) ha
  obtain ⟨h', k'', he⟩ := hall _ _ _ _ 0 h [3840] (by decide) ha
  rw [deallocate] at he
  obtain ⟨⟨ds, m₁⟩, k₁, hl, -⟩ := exec_bind_ok.mp he
  refine deallocateLoop_outside _ _ ?_ m' _ _ hl
  rw [hon.length, hnum (by decide) rfl]
  decide

end FileHeader

end NachosFileSys
