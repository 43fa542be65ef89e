import NachosFileSys.Volume

namespace NachosFileSys

open Lib.Programs Lib.Bytes

lemma newBlocks_add (old a b : ℕ) : newBlocks old (a + b) = newBlocks old a + newBlocks (old + a) b := by
  simp only [newBlocks]
  omega

namespace FileHeader

def Room (m : FreeMap) (fileSize : ℤ) : Prop :=
  sectorsNeeded fileSize ≤ NumDirect * MaxSector ∧
    sectorsNeeded fileSize + newBlocks 0 (sectorsNeeded fileSize) ≤ m.free.length

lemma allocateAll_ok (sizes : List ℤ) : ∀ {h : FileHeader} {bs secs : List ℤ} {k : Kernel} {m : FreeMap},
    h.On k.disk bs secs → bs.Nodup → (∀ b ∈ bs, b ∉ sectors m.free) → secs.length + totalNeeded sizes ≤ 928 →
    totalNeeded sizes + newBlocks secs.length (totalNeeded sizes) ≤ m.free.length →
    ∃ h' m' k', exec (allocateAll h m sizes) k = .ok ((true, h', m'), k') := by
  induction sizes with
  | nil =>
    intro h bs secs k m _ _ _ _ _
    exact ⟨h, m, k, rfl⟩
  | cons size sizes ih =>
    intro h bs secs k m hon hnd hbf hcap hfree
    rw [totalNeeded_cons] at hcap hfree
    rw [newBlocks_add] at hfree
    obtain ⟨ds, nbs, nsecs, m₁, d₁, ha, hon₁, hn, ht, -⟩ := allocate_ok hon hnd hbf size (by omega) (by omega)
    have hbl := hon.stored.blocks_length
    have hbl₁ := hon₁.stored.blocks_length
    have hlen := ht.length
    rw [List.length_append, List.length_append] at hbl₁
    rw [List.length_append, hn] at hlen
    have hnb : nbs.length = newBlocks secs.length (sectorsNeeded size) := by
      simp only [newBlocks]
      omega
    obtain ⟨hnd₁, hbf₁⟩ := ht.append_blocks hnd hbf
    obtain ⟨h', m', k', he⟩ := ih (k := { k with disk := d₁ }) hon₁ hnd₁ hbf₁ (by rw [List.length_append]; omega)
      (by rw [List.length_append, hn]; omega)
    refine ⟨h', m', k', ?_⟩
    rw [allocateAll, exec_bind_of_ok ha]
    exact he

lemma allocateAll_numBytes (sizes : List ℤ) (hn : ∀ n ∈ sizes, 0 ≤ n) :
    ∀ {h h' : FileHeader} {bs secs : List ℤ} {k k' : Kernel} {m m' : FreeMap}, h.On k.disk bs secs → bs.Nodup →
    (∀ b ∈ bs, b ∉ sectors m.free) → 0 ≤ h.numBytes → h.numBytes ≤ 128 * secs.length →
    exec (allocateAll h m sizes) k = .ok ((true, h', m'), k') → h'.numBytes = h.numBytes + sizes.sum := by
  induction sizes with
  | nil =>
    intro h h' bs secs k k' m m' _ _ _ _ _ he
    cases he
    simp
  | cons size sizes ih =>
    intro h h' bs secs k k' m m' hon hnd hbf h0 hle he
    rw [allocateAll] at he
    obtain ⟨⟨success, h₁, m₁⟩, k₁, ha, he⟩ := exec_bind_ok.mp he
    cases success with
    | false => cases he
    | true =>
      obtain ⟨ds, nbs, nsecs, d₁, rfl, rfl, hon₁, hlen, ht, -⟩ := allocate_inv hon hnd hbf ha
      have hcap := hon₁.secs_le
      rw [List.length_append, hlen] at hcap
      have hsize := hn size List.mem_cons_self
      have hsl : (128 : ℤ) * secs.length + 128 * sectorsNeeded size < 2147483648 := by omega
      obtain ⟨hg, hgle⟩ := grown_fileLength_le ds hle (by omega) hsl
      obtain ⟨hnd₁, hbf₁⟩ := ht.append_blocks hnd hbf
      have := ih (fun n hn' => hn n (List.mem_cons_of_mem _ hn')) (k := { k with disk := d₁ }) hon₁ hnd₁ hbf₁
        (by omega) (by rw [List.length_append, hlen]; push_cast; omega) he
      rw [this, hg, List.sum_cons, add_assoc]

/-- Successive calls with `sizes` on a fresh header do what one call with their sum does, and the file then has no
more sectors than its bytes fill. -/
def Additive (permisstion : ℤ) (k : Kernel) (m : FreeMap) (sizes : List ℤ) : Prop :=
  ∃ h m₁ k₁ h' m₂ k₂,
    exec (allocateAll (fresh permisstion) m sizes) k = .ok ((true, h, m₁), k₁) ∧
    exec ((fresh permisstion).allocate m sizes.sum) k = .ok ((true, h', m₂), k₂) ∧
    m₁.free.length = m₂.free.length ∧ h.numBytes = h'.numBytes ∧ h.numSectors = h'.numSectors ∧
    (h.data k₁.disk).length = (h'.data k₂.disk).length ∧ h.numSectors = divRoundUp h.numBytes SectorSize

lemma Additive.total_eq {permisstion : ℤ} {k : Kernel} {m : FreeMap} {sizes : List ℤ}
    (h : Additive permisstion k m sizes) : totalNeeded sizes = sectorsNeeded sizes.sum := by
  obtain ⟨h, m₁, k₁, h', m₂, k₂, ha, hone, -, -, -, hdata, -⟩ := h
  obtain ⟨bs, secs, d₁, rfl, hon, hlen, -⟩ := allocateAll_inv sizes (fresh_on permisstion k.disk) List.nodup_nil
    (by simp) ha
  obtain ⟨ds, bs', secs', d₂, -, rfl, hon', hlen', -⟩ := allocate_inv (fresh_on permisstion k.disk) List.nodup_nil
    (by simp) hone
  rw [hon.data_eq, hon'.data_eq] at hdata
  simpa [hlen, hlen'] using hdata

/-- Successive calls take no more sectors than one call exactly when rounding up the sizes one by one gives no more
than rounding up their sum. -/
theorem additive_iff (permisstion : ℤ) (k : Kernel) (m : FreeMap) (sizes : List ℤ) (hn : ∀ n ∈ sizes, 0 ≤ n)
    (hroom : Room m sizes.sum) :
    Additive permisstion k m sizes ↔ (sizes.map fun n => (n + 127) / 128).sum = (sizes.sum + 127) / 128 := by
  have hs : 0 ≤ sizes.sum := List.sum_nonneg hn
  have htotal : ((totalNeeded sizes : ℕ) : ℤ) = (sizes.map fun n => (n + 127) / 128).sum := by
    clear hroom hs
    induction sizes with
    | nil => rfl
    | cons size sizes ih =>
      have h0 := hn size List.mem_cons_self
      rw [totalNeeded_cons, List.map_cons, List.sum_cons, Nat.cast_add,
        ih fun n hn' => hn n (List.mem_cons_of_mem _ hn'), sectorsNeeded_of_nonneg h0,
        Int.toNat_of_nonneg (by omega)]
  have hneed : ((sectorsNeeded sizes.sum : ℕ) : ℤ) = (sizes.sum + 127) / 128 := by
    rw [sectorsNeeded_of_nonneg hs, Int.toNat_of_nonneg (by omega)]
  rw [← htotal, ← hneed, Nat.cast_inj]
  refine ⟨Additive.total_eq, fun heq => ?_⟩
  obtain ⟨hcap, hfree⟩ := hroom
  have hon := fresh_on permisstion k.disk
  simp only [NumDirect, MaxSector] at hcap
  obtain ⟨h, m₁, k₁, ha⟩ := allocateAll_ok sizes hon List.nodup_nil (m := m) (by simp)
    (by rw [heq, List.length_nil]; omega) (by rw [heq]; exact hfree)
  obtain ⟨ds, bs', secs', m₂, d₂, hone, hon', hlen', ht', -⟩ := allocate_ok hon List.nodup_nil (m := m) (by simp)
    sizes.sum (by rw [List.length_nil]; omega) hfree
  have hbytes := allocateAll_numBytes sizes hn hon List.nodup_nil (by simp) (by rfl) (by rfl) ha
  obtain ⟨bs, secs, d₁, rfl, hon₁, hlen, ht, -, hnum, -⟩ := allocateAll_inv sizes hon List.nodup_nil (by simp) ha
  have hnum := hnum hn rfl
  have hup : divRoundUp sizes.sum SectorSize = (sectorsNeeded sizes.sum : ℕ) := by
    rw [hneed, divRoundUp_of_nonneg hs]
  have hg : ((fresh permisstion).grown sizes.sum ds).numBytes = sizes.sum := by
    have hle := le_sectorsNeeded sizes.sum
    change int32 (0 + sizes.sum) = sizes.sum
    rw [zero_add]
    exact int32_of_bounds (by omega) (by omega)
  have hgs : ((fresh permisstion).grown sizes.sum ds).numSectors = (sectorsNeeded sizes.sum : ℕ) := by
    change int32 (0 + divRoundUp sizes.sum SectorSize) = _
    rw [zero_add, hup]
    exact int32_of_bounds (by omega) (by omega)
  have hzero : (fresh permisstion).numBytes = 0 := rfl
  rw [hzero, zero_add] at hbytes
  rw [List.length_nil, Nat.cast_zero, zero_add, heq] at hnum
  refine ⟨h, m₁, _, _, m₂, _, ha, hone, ?_, by rw [hbytes, hg], by rw [hnum, hgs], ?_, by rw [hbytes, hup, hnum]⟩
  · have hb := hon₁.stored.blocks_length
    have hb' := hon'.stored.blocks_length
    have hl := ht.length
    have hl' := ht'.length
    simp only [List.nil_append, List.length_append] at hb hb' hl hl'
    omega
  · rw [hon₁.data_eq, hon'.data_eq]
    simp [hlen, hlen', heq]

theorem additive_sectors : Additive 0 Kernel.blank (Bitmap.empty 1024) [128, 256, 300] :=
  (additive_iff 0 Kernel.blank (Bitmap.empty 1024) [128, 256, 300] (by decide)
    ⟨by decide, by rw [Bitmap.free_empty, List.length_range]; decide⟩).mpr (by decide)

/-- Two calls for one byte each, on a map with every sector free. -/
theorem not_additive_bytes : ¬∀ (permisstion : ℤ) (k : Kernel) (m : FreeMap) (sizes : List ℤ),
    (∀ n ∈ sizes, 0 ≤ n) → Room m sizes.sum → Additive permisstion k m sizes := by
  intro hall
  have h := (hall 0 Kernel.blank (Bitmap.empty 1024) [1, 1] (by decide)
    ⟨by decide, by rw [Bitmap.free_empty, List.length_range]; decide⟩).total_eq
  exact absurd h (by decide)

end FileHeader

end NachosFileSys
