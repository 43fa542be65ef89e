import NachosFileSys.Growth

namespace NachosFileSys

open Lib.Programs Lib.Bytes

namespace FileHeader

def slot (h : FileHeader) (d : Disk) (p q : ℕ) : ℤ :=
  if h.dataSectors.getD p EmptyBlock = EmptyBlock then EmptyBlock
  else (IndirectBlock.ofSector (d (h.dataSectors.getD p EmptyBlock))).dataSectors.getD q EmptyBlock

def allocateMany : (ℕ → FileHeader) → FreeMap → List (ℕ × ℤ) → Nachos (Bool × (ℕ → FileHeader) × FreeMap)
  | hs, freeMap, [] => pure (true, hs, freeMap)
  | hs, freeMap, (i, size) :: calls => do
    let (success, h', freeMap') ← (hs i).allocate freeMap size
    if success then allocateMany (Function.update hs i h') freeMap' calls
    else pure (false, Function.update hs i h', freeMap')

def own (h : FileHeader) (d : Disk) : List ℤ := h.blocks ++ h.data d

end FileHeader

lemma Stored.slot_eq {d : Disk} {slots bs secs : List ℤ} (h : Stored d slots bs secs) :
    ∀ (p q : ℕ), q < 32 →
    (if slots.getD p EmptyBlock = EmptyBlock then EmptyBlock
      else (IndirectBlock.ofSector (d (slots.getD p EmptyBlock))).dataSectors.getD q EmptyBlock) =
      secs.getD (32 * p + q) EmptyBlock := by
  induction h with
  | nil n =>
    intro p q _
    have hz : (List.replicate n EmptyBlock).getD p EmptyBlock = EmptyBlock := by
      rw [List.getD_eq_getElem?_getD, List.getElem?_replicate]
      split <;> rfl
    rw [if_pos hz]
    rfl
  | @cons b part slots bs secs hb hpart hpos hle hfull hblock rest ih =>
    intro p q hq
    cases p with
    | zero =>
      rw [List.getD_cons_zero, if_neg hb.ne_empty, hblock, Nat.mul_zero, Nat.zero_add]
      by_cases hqp : q < part.length
      · rw [List.getD_append _ _ _ _ hqp, List.getD_append _ _ _ _ hqp]
      · rw [List.getD_append_right _ _ _ _ (by omega), List.getD_append_right _ _ _ _ (by omega)]
        -- a block that is not full is the last one
        have hbs : bs = [] := by
          by_contra hne
          have := hfull hne
          omega
        rw [rest.blocks_eq_nil.mp hbs, List.getD_nil, List.getD_eq_getElem?_getD, List.getElem?_replicate]
        split <;> rfl
    | succ p =>
      rw [List.getD_cons_succ, ih p q hq]
      by_cases hbs : bs = []
      · rw [rest.blocks_eq_nil.mp hbs, List.append_nil, List.getD_nil, List.getD_eq_default _ _ (by omega)]
      · have hf := hfull hbs
        rw [List.getD_append_right _ _ _ _ (by omega), hf]
        congr 1
        omega

namespace FileHeader

variable {h : FileHeader} {k k' : Kernel} {d d' : Disk} {m m' : FreeMap} {hs hs' : ℕ → FileHeader}

lemma On.slot_ne_empty_iff {bs secs : List ℤ} (hon : h.On d bs secs) {p q : ℕ} (hq : q < 32) :
    h.slot d p q ≠ EmptyBlock ↔ 32 * p + q < secs.length := by
  rw [slot, hon.stored.slot_eq p q hq]
  by_cases hlt : 32 * p + q < secs.length
  · rw [List.getD_eq_getElem _ _ hlt]
    exact iff_of_true (hon.stored.secs_inDisk _ (List.getElem_mem hlt)).ne_empty hlt
  · rw [List.getD_eq_default _ _ (by omega)]
    exact iff_of_false (fun hne => hne rfl) hlt

lemma byteToSector_eq (h : FileHeader) {offset : ℤ} (h0 : 0 ≤ offset) :
    h.byteToSector offset = h.byteToSector (((offset / 128).toNat : ℕ) * SectorSize) := by
  have hv : offset.tdiv SectorSize = ((((offset / 128).toNat : ℕ) : ℤ) * SectorSize).tdiv SectorSize := by
    rw [Int.mul_tdiv_cancel _ (by decide), Int.tdiv_eq_ediv_of_nonneg h0]
    simp only [SectorSize]
    omega
  rw [byteToSector, byteToSector, hv]

structure Disjoint (d : Disk) (m : FreeMap) (hs : ℕ → FileHeader) : Prop where
  on : ∀ i, (hs i).On d (hs i).blocks ((hs i).data d)
  nodup : ∀ i, ((hs i).own d).Nodup
  apart : ∀ {i j x}, x ∈ (hs i).own d → x ∈ (hs j).own d → i = j
  taken : ∀ {i x}, x ∈ (hs i).own d → x ∉ sectors m.free

lemma Disjoint.fresh (d : Disk) (m : FreeMap) (permisstion : ℕ → ℤ) :
    Disjoint d m fun i => FileHeader.fresh (permisstion i) := by
  have hb : ∀ i, (FileHeader.fresh (permisstion i)).blocks = [] := fun i => (fresh_on (permisstion i) d).blocks_eq
  have hd : ∀ i, (FileHeader.fresh (permisstion i)).data d = [] := fun i => (fresh_on (permisstion i) d).data_eq
  have ho : ∀ i, (FileHeader.fresh (permisstion i)).own d = [] := fun i => by rw [own, hb, hd, List.append_nil]
  refine ⟨fun i => ?_, fun i => ?_, fun {i j x} hx _ => ?_, fun {i x} hx => ?_⟩
  · rw [hb, hd]
    exact fresh_on (permisstion i) d
  · rw [ho]
    exact .nil
  · rw [ho] at hx
    cases hx
  · rw [ho] at hx
    cases hx

structure Extended (d : Disk) (m : FreeMap) (h : FileHeader) (d' : Disk) (m' : FreeMap) (h' : FileHeader) :
    Prop where
  blocks : h.blocks <+: h'.blocks
  data : h.data d <+: h'.data d'
  new : ∀ x ∈ h'.own d', x ∉ h.own d → x ∈ sectors m.free
  free : ∀ x ∈ sectors m'.free, x ∈ sectors m.free

lemma Extended.refl (d : Disk) (m : FreeMap) (h : FileHeader) : Extended d m h d m h :=
  ⟨List.prefix_rfl, List.prefix_rfl, fun _ hx hn => absurd hx hn, fun _ hx => hx⟩

lemma Extended.trans {h' h'' : FileHeader} {d'' : Disk} {m'' : FreeMap} (h₁ : Extended d m h d' m' h')
    (h₂ : Extended d' m' h' d'' m'' h'') : Extended d m h d'' m'' h'' where
  blocks := h₁.blocks.trans h₂.blocks
  data := h₁.data.trans h₂.data
  new x hx hn := by
    by_cases hx' : x ∈ h'.own d'
    · exact h₁.new x hx' hn
    · exact h₁.free x (h₂.new x hx hx')
  free x hx := h₁.free x (h₂.free x hx)

structure Accurate (d : Disk) (h : FileHeader) : Prop where
  numSectors : h.numSectors = (h.data d).length
  nonneg : 0 ≤ h.numBytes
  numBytes : h.numBytes ≤ 128 * (h.data d).length

lemma Disjoint.allocate (ha : Disjoint k.disk m hs) {i : ℕ} {size : ℤ} {h' : FileHeader}
    (he : exec ((hs i).allocate m size) k = .ok ((true, h', m'), k')) :
    Disjoint k'.disk m' (Function.update hs i h') ∧
      (∀ j, Extended k.disk m (hs j) k'.disk m' (Function.update hs i h' j)) ∧
      (∀ j, j ≠ i → (hs j).data k'.disk = (hs j).data k.disk) ∧
      (0 ≤ size → Accurate k.disk (hs i) → Accurate k'.disk h') := by
  have hnodup := List.nodup_append.mp (ha.nodup i)
  have htaken : ∀ b ∈ (hs i).blocks, b ∉ sectors m.free := fun b hb => ha.taken (List.mem_append_left _ hb)
  obtain ⟨ds, nbs, nsecs, d', rfl, rfl, hon, hlen, ht, hd⟩ := allocate_inv (ha.on i) hnodup.1 htaken he
  have hfree : ∀ {x}, x ∈ nbs ++ nsecs → x ∈ sectors m.free := fun hx => ht.mem_free hx
  have hblocks := hon.blocks_eq
  have hdata := hon.data_eq
  -- no block of another file has changed
  have hother : ∀ {j}, j ≠ i → ∀ b ∈ (hs j).blocks, d' b = k.disk b := by
    intro j hj b hb
    have hbo : b ∈ (hs j).own k.disk := List.mem_append_left _ hb
    refine hd b (fun hbi => hj (ha.apart hbo (List.mem_append_left _ hbi))) fun hbn => ?_
    exact ha.taken hbo (hfree (List.mem_append_left _ hbn))
  have hon' : ∀ {j}, j ≠ i → (hs j).On d' (hs j).blocks ((hs j).data k.disk) := fun hj =>
    (ha.on _).congr (hother hj)
  have hdata' : ∀ {j}, j ≠ i → (hs j).data d' = (hs j).data k.disk := fun hj => (hon' hj).data_eq
  have hown' : ∀ {j}, j ≠ i → (hs j).own d' = (hs j).own k.disk := fun hj => by rw [own, hdata' hj, own]
  have hownSelf : ∀ {x}, x ∈ ((hs i).grown size ds).own d' ↔ x ∈ (hs i).own k.disk ∨ x ∈ nbs ++ nsecs := by
    intro x
    rw [own, hblocks, hdata, own]
    simp only [List.mem_append]
    exact or_or_or_comm
  refine ⟨⟨fun j => ?_, fun j => ?_, fun {j j' x} hx hx' => ?_, fun {j x} hx => ?_⟩, fun j => ?_,
    fun j hj => hdata' hj, fun hsize hacc => ?_⟩
  · by_cases hj : j = i
    · subst hj
      rw [Function.update_self]
      dsimp only
      rw [hblocks, hdata]
      exact hon
    · rw [Function.update_of_ne hj]
      dsimp only
      rw [hdata' hj]
      exact hon' hj
  · by_cases hj : j = i
    · subst hj
      rw [Function.update_self]
      dsimp only
      rw [own, hblocks, hdata]
      have hall : ((hs j).own k.disk ++ (nbs ++ nsecs)).Nodup := List.nodup_append.mpr ⟨ha.nodup j, ht.nodup, by
        rintro x hx _ hx' rfl
        exact ha.taken hx (hfree hx')⟩
      refine (List.Perm.nodup_iff ?_).mp hall
      rw [own, List.append_assoc, List.append_assoc]
      refine List.Perm.append_left _ ?_
      rw [← List.append_assoc, ← List.append_assoc]
      exact List.perm_append_comm.append_right _
    · rw [Function.update_of_ne hj]
      dsimp only
      rw [hown' hj]
      exact ha.nodup j
  · dsimp only at hx hx'
    by_cases hj : j = i
    · by_cases hj' : j' = i
      · rw [hj, hj']
      · subst hj
        rw [Function.update_self, hownSelf] at hx
        rw [Function.update_of_ne hj', hown' hj'] at hx'
        rcases hx with hx | hx
        · exact ha.apart hx hx'
        · exact absurd (hfree hx) (ha.taken hx')
    · rw [Function.update_of_ne hj, hown' hj] at hx
      by_cases hj' : j' = i
      · subst hj'
        rw [Function.update_self, hownSelf] at hx'
        rcases hx' with hx' | hx'
        · exact ha.apart hx hx'
        · exact absurd (hfree hx') (ha.taken hx)
      · rw [Function.update_of_ne hj', hown' hj'] at hx'
        exact ha.apart hx hx'
  · dsimp only at hx
    intro hf
    by_cases hj : j = i
    · subst hj
      rw [Function.update_self, hownSelf] at hx
      rcases hx with hx | hx
      · exact ha.taken hx (ht.free_subset hf)
      · exact ht.not_mem_free hx hf
    · rw [Function.update_of_ne hj, hown' hj] at hx
      exact ha.taken hx (ht.free_subset hf)
  · by_cases hj : j = i
    · subst hj
      rw [Function.update_self]
      refine ⟨?_, ?_, fun x hx hn => ?_, fun x hx => ht.free_subset hx⟩
      · rw [hblocks]
        exact List.prefix_append _ _
      · dsimp only
        rw [hdata]
        exact List.prefix_append _ _
      · exact hfree ((hownSelf.mp hx).resolve_left hn)
    · rw [Function.update_of_ne hj]
      refine ⟨List.prefix_rfl, ?_, fun x hx hn => ?_, fun x hx => ht.free_subset hx⟩
      · dsimp only
        rw [hdata' hj]
      · dsimp only at hx
        rw [hown' hj] at hx
        exact absurd hx hn
  · have hle := hon.secs_le
    have hdr := divRoundUp_of_nonneg hsize
    have hneed := sectorsNeeded_of_nonneg hsize
    rw [List.length_append, hlen] at hle
    have hn := hacc.numSectors
    have h0 := hacc.nonneg
    have hroom : (128 : ℤ) * ((hs i).data k.disk).length + 128 * sectorsNeeded size < 2147483648 := by omega
    obtain ⟨hg, hgle⟩ := grown_fileLength_le ds hacc.numBytes (by omega) hroom
    refine ⟨?_, by rw [hg]; omega, ?_⟩
    · dsimp only
      rw [hdata, List.length_append, hlen, hneed]
      change int32 ((hs i).numSectors + divRoundUp size SectorSize) = _
      rw [hn, hdr, int32_of_bounds (by omega) (by omega)]
      omega
    · dsimp only
      rw [hdata, List.length_append, hlen]
      push_cast
      omega

lemma Disjoint.allocateMany (calls : List (ℕ × ℤ)) : ∀ {k k' : Kernel} {m m' : FreeMap} {hs hs' : ℕ → FileHeader},
    Disjoint k.disk m hs → exec (FileHeader.allocateMany hs m calls) k = .ok ((true, hs', m'), k') →
    Disjoint k'.disk m' hs' ∧ (∀ j, Extended k.disk m (hs j) k'.disk m' (hs' j)) ∧
      ∀ j, (∀ n, (j, n) ∈ calls → 0 ≤ n) → Accurate k.disk (hs j) → Accurate k'.disk (hs' j) := by
  induction calls with
  | nil =>
    intro k k' m m' hs hs' ha he
    cases he
    exact ⟨ha, fun j => .refl _ _ _, fun j _ hacc => hacc⟩
  | cons call calls ih =>
    obtain ⟨i, size⟩ := call
    intro k k' m m' hs hs' ha he
    rw [FileHeader.allocateMany] at he
    obtain ⟨⟨success, h₁, m₁⟩, k₁, hc, he⟩ := exec_bind_ok.mp he
    cases success with
    | false => cases he
    | true =>
      obtain ⟨ha₁, hx₁, hdata₁, hacc₁⟩ := ha.allocate hc
      obtain ⟨ha', hx', hacc'⟩ := ih ha₁ he
      refine ⟨ha', fun j => (hx₁ j).trans (hx' j), fun j hn hacc => ?_⟩
      apply hacc' j fun n hn' => hn n (List.mem_cons_of_mem _ hn')
      by_cases hj : j = i
      · subst hj
        rw [Function.update_self]
        exact hacc₁ (hn size List.mem_cons_self) hacc
      · rw [Function.update_of_ne hj]
        have hd := hdata₁ j hj
        exact ⟨by rw [hd]; exact hacc.numSectors, hacc.nonneg, by rw [hd]; exact hacc.numBytes⟩

lemma accurate_fresh (permisstion : ℤ) (d : Disk) : Accurate d (fresh permisstion) := by
  have hd : (fresh permisstion).data d = [] := (fresh_on permisstion d).data_eq
  refine ⟨?_, le_refl 0, ?_⟩
  · rw [hd]
    rfl
  · rw [hd]
    exact le_refl 0

lemma Accurate.exec_byteToSector (hacc : Accurate k.disk h) (hon : h.On k.disk h.blocks (h.data k.disk))
    {offset : ℤ}
    (h0 : 0 ≤ offset) (hlt : offset < h.numBytes) :
    ∃ hi : (offset / 128).toNat < (h.data k.disk).length,
      exec (h.byteToSector offset) k = .ok ((h.data k.disk)[(offset / 128).toNat], k) := by
  have hi : (offset / 128).toNat < (h.data k.disk).length := by
    have := hacc.numBytes
    omega
  refine ⟨hi, ?_⟩
  rw [byteToSector_eq h h0]
  exact FileHeader.exec_byteToSector hon _ hi

/-- A header that was fresh, after any calls of `Allocate` for it and for the other files, and after
further ones. -/
theorem header_representation {k k₁ k₂ : Kernel} {m m₁ m₂ : FreeMap} {hs hs₁ hs₂ : ℕ → FileHeader}
    {calls calls' : List (ℕ × ℤ)} {i : ℕ} {permisstion : ℤ} (ha : Disjoint k.disk m hs)
    (hfresh : hs i = fresh permisstion) (hsizes : ∀ n, (i, n) ∈ calls → 0 ≤ n)
    (he : exec (FileHeader.allocateMany hs m calls) k = .ok ((true, hs₁, m₁), k₁))
    (he' : exec (FileHeader.allocateMany hs₁ m₁ calls') k₁ = .ok ((true, hs₂, m₂), k₂)) :
    (∀ p q : ℕ, q < 32 → ((hs₁ i).slot k₁.disk p q ≠ EmptyBlock ↔ ((32 * p + q : ℕ) : ℤ) < (hs₁ i).numSectors)) ∧
    Disjoint k₁.disk m₁ hs₁ ∧ (∀ x ∈ (hs₁ i).own k₁.disk, x ∈ sectors m.free) ∧
    (∀ x ∈ (hs₂ i).own k₂.disk, x ∉ (hs₁ i).own k₁.disk → x ∈ sectors m₁.free) ∧
    (hs₁ i).numBytes ≤ (hs₁ i).numSectors * SectorSize ∧
    ∀ offset, 0 ≤ offset → offset < (hs₁ i).numBytes →
      (hs₁ i).dataSectors.getD (offset / 128 / 32).toNat EmptyBlock ≠ EmptyBlock ∧
      ∃ s, InDisk s ∧ exec ((hs₁ i).byteToSector offset) k₁ = .ok (s, k₁) ∧
        exec ((hs₂ i).byteToSector offset) k₂ = .ok (s, k₂) ∧
        ∀ offset', 0 ≤ offset' → offset' < (hs₁ i).numBytes →
          (exec ((hs₁ i).byteToSector offset') k₁ = .ok (s, k₁) ↔ offset' / 128 = offset / 128) := by
  have hown : (hs i).own k.disk = [] := by
    have hon := fresh_on permisstion k.disk
    rw [hfresh, own, hon.blocks_eq, hon.data_eq]
    rfl
  have hacc : Accurate k.disk (hs i) := hfresh ▸ accurate_fresh permisstion k.disk
  obtain ⟨ha₁, hx₁, hacc₁⟩ := ha.allocateMany calls he
  obtain ⟨ha₂, hx₂, -⟩ := ha₁.allocateMany calls' he'
  have hacc₁ := hacc₁ i hsizes hacc
  have hon := ha₁.on i
  have hnum := hacc₁.numSectors
  refine ⟨fun p q hq => ?_, ha₁, fun x hx => ?_, (hx₂ i).new, ?_, fun offset h0 hlt => ?_⟩
  · rw [hon.slot_ne_empty_iff hq, hnum, Nat.cast_lt]
  · exact (hx₁ i).new x hx (by rw [hown]; simp)
  · have := hacc₁.numBytes
    rw [hnum]
    simp only [SectorSize]
    omega
  · obtain ⟨hi, hs⟩ := hacc₁.exec_byteToSector hon h0 hlt
    obtain ⟨rest, hrest⟩ := (hx₂ i).data
    refine ⟨?_, _, hon.stored.secs_inDisk _ (List.getElem_mem hi), hs, ?_, fun offset' h0' hlt' => ?_⟩
    · obtain ⟨b, hb, hslot, -⟩ := hon.stored.lookup _ hi
      have hdiv : (offset / 128 / 32).toNat = (offset / 128).toNat / 32 := by omega
      rw [hdiv, List.getD_eq_getElem?_getD, hslot]
      exact (hon.stored.blocks_inDisk b hb).ne_empty
    · -- the later calls have only added data sectors
      have hi₂ : (offset / 128).toNat < ((hs₂ i).data k₂.disk).length := by
        rw [← hrest, List.length_append]
        omega
      rw [byteToSector_eq _ h0, FileHeader.exec_byteToSector (ha₂.on i) _ hi₂]
      simp only [← hrest, List.getElem_append_left hi]
    · obtain ⟨hi', hs'⟩ := hacc₁.exec_byteToSector hon h0' hlt'
      rw [hs', Except.ok.injEq, Prod.mk.injEq, and_iff_left rfl]
      rw [(List.nodup_append.mp (ha₁.nodup i)).2.1.getElem_inj_iff]
      omega

theorem header_representation_300 :
    ∃ hs₁ m₁ k₁ hs₂ m₂ k₂,
      exec (FileHeader.allocateMany (fun _ => fresh 0) (Bitmap.empty 1024) [(0, 300)]) Kernel.blank =
        .ok ((true, hs₁, m₁), k₁) ∧
      exec (FileHeader.allocateMany hs₁ m₁ [(1, 200)]) k₁ = .ok ((true, hs₂, m₂), k₂) ∧
      ∃ s, exec ((hs₁ 0).byteToSector 299) k₁ = .ok (s, k₁) ∧
      exec ((hs₂ 0).byteToSector 299) k₂ = .ok (s, k₂) := by
  have hfree : (Bitmap.empty 1024).free.length = 1024 := by rw [Bitmap.free_empty, List.length_range]
  obtain ⟨ds, nbs, nsecs, m₁, d₁, ha, hon, hlen, ht, -⟩ := allocate_ok (fresh_on 0 Kernel.blank.disk)
    List.nodup_nil (m := Bitmap.empty 1024) (by simp) 300 (by decide) (by rw [hfree]; decide)
  have hbl := hon.stored.blocks_length
  have htl := ht.length
  have hneed : sectorsNeeded 300 = 3 := by decide
  simp only [List.nil_append, List.length_append, hlen, hneed, hfree] at hbl htl
  have hneed' : sectorsNeeded 200 + newBlocks 0 (sectorsNeeded 200) = 3 := by decide
  obtain ⟨ds', _, _, m₂, d₂, hb, -⟩ := allocate_ok (fresh_on 0 d₁) List.nodup_nil
    (k := { Kernel.blank with disk := d₁ }) (m := m₁) (by simp) 200 (by decide) (by
      change sectorsNeeded 200 + newBlocks 0 (sectorsNeeded 200) ≤ _
      omega)
  have he : exec (FileHeader.allocateMany (fun _ => fresh 0) (Bitmap.empty 1024) [(0, 300)]) Kernel.blank =
      .ok ((true, Function.update (fun _ => fresh 0) 0 ((fresh 0).grown 300 ds), m₁),
        { Kernel.blank with disk := d₁ }) := by
    rw [FileHeader.allocateMany, exec_bind_of_ok ha]
    rfl
  have he' : exec (FileHeader.allocateMany (Function.update (fun _ => fresh 0) 0 ((fresh 0).grown 300 ds)) m₁
      [(1, 200)]) { Kernel.blank with disk := d₁ } =
      .ok ((true, Function.update (Function.update (fun _ => fresh 0) 0 ((fresh 0).grown 300 ds)) 1
        ((fresh 0).grown 200 ds'), m₂), { Kernel.blank with disk := d₂ }) := by
    rw [FileHeader.allocateMany, Function.update_of_ne one_ne_zero, exec_bind_of_ok hb]
    rfl
  obtain ⟨-, s, -, hs, hs', -⟩ :=
    (header_representation (Disjoint.fresh Kernel.blank.disk _ fun _ => 0) (i := 0) rfl
    (by simp) he he').2.2.2.2.2 299 (by decide) (by
      rw [Function.update_self]
      change (299 : ℤ) < int32 (0 + 300)
      decide)
  exact ⟨_, m₁, _, _, m₂, _, he, he', s, hs, hs'⟩

end FileHeader

end NachosFileSys
