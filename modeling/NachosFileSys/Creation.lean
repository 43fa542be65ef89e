import NachosFileSys.Entries

namespace NachosFileSys

open Lib.Programs Lib.Bytes

lemma int32_int32 (x : ℤ) : int32 (int32 x) = int32 x := int32_of_bounds (int32_bounds x).1 (int32_bounds x).2

namespace FileHeader

lemma On.fits {h : FileHeader} {d : Disk} {bs secs : List ℤ} (hon : h.On d bs secs)
    (hp : int32 h.permisstion = h.permisstion) (hb : int32 h.numBytes = h.numBytes)
    (hn : int32 h.numSectors = h.numSectors) : h.Fits := by
  refine ⟨hp, hb, hn, hon.length, fun s hs => ?_⟩
  rw [hon.stored.slots_eq] at hs
  rcases List.mem_append.mp hs with hs | hs
  · exact Or.inr (hon.stored.blocks_inDisk s hs)
  · exact Or.inl (List.eq_of_mem_replicate hs)

lemma grown_fits {h : FileHeader} {fileSize : ℤ} {ds : List ℤ} {d : Disk} {bs secs : List ℤ}
    (hp : int32 h.permisstion = h.permisstion) (hon : (h.grown fileSize ds).On d bs secs) :
    (h.grown fileSize ds).Fits :=
  hon.fits hp (int32_int32 _) (int32_int32 _)

lemma fresh_grown_numBytes {p n : ℤ} {ds : List ℤ} (hn : int32 n = n) :
    ((fresh p).grown n ds).numBytes = n := by
  change int32 (0 + n) = n
  rw [zero_add, hn]

lemma exec_new (k : Kernel) :
    ∃ p k', exec new k = .ok (fresh p, k') ∧ int32 p = p ∧ k'.disk = k.disk ∧ k'.maps = k.maps := by
  refine ⟨(wordOf fun c => ((List.range 4).map k.heap).getD c 0).toInt, { k with heap := fun i => k.heap (i + 4) },
    ?_, int32_of_bounds (toInt_bounds _).1 (toInt_bounds _).2, rfl, rfl⟩
  rw [new, exec_bind, exec_malloc]
  rfl

end FileHeader

lemma Taken.marked_mono {m m' : FreeMap} {l : List ℤ} (ht : Taken m m' l) {x : ℤ} (hx : Marked m x) :
    Marked m' x := by
  rw [marked_iff] at hx ⊢
  exact ⟨hx.1, fun hf => hx.2 (ht.free_subset hf)⟩

lemma Taken.marked {m m' : FreeMap} {l : List ℤ} (ht : Taken m m' l) {x : ℤ} (hx : x ∈ l) : Marked m' x :=
  marked_iff.mpr ⟨ht.inDisk hx, ht.not_mem_free hx⟩

lemma cutInUse_congr {d d' : Disk} {s : ℤ} (hb : (hdrAt d s).numBytes ≤ 128 * (dataAt d s).length)
    (ho : ∀ x ∈ owned d s, d' x = d x) (hcut : Cuts (hdrAt d s).numBytes) : cutInUse d' s = cutInUse d s := by
  have hs := ho s (mem_owned_self _ _)
  have hlt := (cuts_iff _).mp hcut
  rw [cutInUse, cutInUse, hdrAt_congr hs, dataAt_congr hs fun b hb => ho b (mem_owned_block hb)]
  refine byteIn_congr ?_ fun x hx => ho x (mem_owned_data hx)
  omega

lemma DirAt.congr {d d' : Disk} {s : ℤ} (h : DirAt d s) (ho : ∀ x ∈ owned d s, d' x = d x) : DirAt d' s := by
  have hs := ho s (mem_owned_self _ _)
  have hb : ∀ b ∈ blocksAt d s, d' b = d b := fun b hb => ho b (mem_owned_block hb)
  refine ⟨(h.file.congr hs hb).1, ?_, fun hcut => ?_⟩
  · rw [hdrAt_congr hs, dataAt_congr hs hb]
    exact h.backed
  · rw [hdrAt_congr hs] at hcut
    rw [cutInUse_congr h.backed ho hcut]
    exact h.unused hcut

lemma tableAt_congr {d d' : Disk} {s : ℤ} (hback : (hdrAt d s).numBytes ≤ 128 * (dataAt d s).length)
    (ho : ∀ x ∈ owned d s, d' x = d x) : tableAt d' s = tableAt d s := by
  have hs := ho s (mem_owned_self _ _)
  have hb : ∀ b ∈ blocksAt d s, d' b = d b := fun b hb => ho b (mem_owned_block hb)
  rw [tableAt, tableAt, hdrAt_congr hs, dataAt_congr hs hb]
  apply List.map_congr_left
  intro i hi
  have hi := List.mem_range.mp hi
  congr 1
  apply bytesIn_congr
  intro q h1 h2
  apply byteIn_congr
  · rw [slotsIn] at hi
    simp only [EntrySize, NumDirEntries] at hi h1 h2
    omega
  · exact fun x hx => ho x (mem_owned_data hx)

namespace Storage

variable {d d₁ d' : Disk} {m m₁ m₂ : FreeMap} {kind : ℤ → Option Kind} {s : ℤ} {c : Kind}

lemma kind_of_free (hs : Storage d m kind) {x : ℤ} (hx : x ∈ sectors m.free) : kind x = none := by
  cases hk : kind x with
  | none => rfl
  | some c => exact absurd (mem_owned_self d x) (hs.not_owned_of_free hk hx)

lemma newFile (hs : Storage d m kind) {i : ℕ} (hi : m.free = i :: m₁.free) {nbs nsecs : List ℤ}
    (ht : Taken m₁ m₂ (nbs ++ nsecs)) {hdr : FileHeader} (hon : hdr.On d₁ nbs nsecs) (hfits : hdr.Fits)
    (hd₁ : ∀ x, x ∉ nbs → d₁ x = d x) (c : Kind) :
    Storage (Function.update d₁ i hdr.toSector) m₂ (Function.update kind i (some c)) ∧
      hdrAt (Function.update d₁ i hdr.toSector) i = hdr ∧
      dataAt (Function.update d₁ i hdr.toSector) i = nsecs ∧
      Taken m m₂ (owned (Function.update d₁ i hdr.toSector) i) ∧
      ∀ x, Marked m x → Function.update d₁ (i : ℤ) hdr.toSector x = d x := by
  have hhead : Taken m m₁ [(i : ℤ)] := ⟨[i], by rw [hi, List.singleton_append], .refl _⟩
  have hall : Taken m m₂ ((i : ℤ) :: (nbs ++ nsecs)) := hhead.trans ht
  have hnd := hall.nodup
  obtain ⟨hin, hnd'⟩ := List.nodup_cons.mp hnd
  have hib : (i : ℤ) ∉ nbs := fun hb => hin (List.mem_append_left _ hb)
  have hhdr : hdrAt (Function.update d₁ (i : ℤ) hdr.toSector) i = hdr := by
    rw [hdrAt, Function.update_self, FileHeader.ofSector_toSector hdr hfits]
  have hon' : (hdrAt (Function.update d₁ (i : ℤ) hdr.toSector) i).On (Function.update d₁ (i : ℤ) hdr.toSector)
      nbs nsecs := by
    rw [hhdr]
    exact hon.congr fun b hb => Function.update_of_ne (by rintro rfl; exact hib hb) _ _
  obtain ⟨hfile, hbs, hds⟩ := FileAt.of_on (hall.inDisk List.mem_cons_self) hon'
  have hown : owned (Function.update d₁ (i : ℤ) hdr.toSector) i = (i : ℤ) :: (nbs ++ nsecs) := by
    rw [owned, hbs, hds]
  have hframe : ∀ x, Marked m x → Function.update d₁ (i : ℤ) hdr.toSector x = d x := by
    intro x hx
    have hfree := (marked_iff.mp hx).2
    have hxi : x ≠ i := fun he => hfree (he ▸ hall.mem_free List.mem_cons_self)
    have hxb : x ∉ nbs := fun hb => hfree (hall.mem_free (List.mem_cons_of_mem _ (List.mem_append_left _ hb)))
    rw [Function.update_of_ne hxi, hd₁ x hxb]
  refine ⟨?_, hhdr, hds, by rw [hown]; exact hall, hframe⟩
  refine hs.put ((i : ℤ) :: (nbs ++ nsecs)) (fun x hx => hall.marked_mono hx)
    (fun x hx => ⟨hall.marked hx, hall.mem_free hx⟩) ?_
    (fun hk _ x hx => hframe x (hs.marked hk x hx)) hfile ?_ ?_ c
  · intro h0
    have hk := hs.kind_of_free (hall.mem_free List.mem_cons_self)
    rw [h0, hs.map] at hk
    cases hk
  · rw [hown]
    exact hnd
  · rw [hown]
    exact fun x hx => Or.inl hx

lemma owned_of_write (hs : Storage d m kind) (hk : kind s = some c) (h : ∀ x, x ∉ dataAt d s → d' x = d x)
    {x : ℤ} {c' : Kind} (hne : x ≠ s) (hkx : kind x = some c') : ∀ y ∈ owned d x, d' y = d y := fun y hy =>
  h y fun hy' => hs.apart hkx hk hne y hy (mem_owned_data hy')

lemma tableAt_of_write (hs : Storage d m kind) (hk : kind s = some c) (h : ∀ x, x ∉ dataAt d s → d' x = d x)
    {x : ℤ} (hne : x ≠ s) (hkx : kind x = some .dir) (hback : (hdrAt d x).numBytes ≤ 128 * (dataAt d x).length) :
    tableAt d' x = tableAt d x :=
  tableAt_congr hback (hs.owned_of_write hk h hne hkx)

end Storage

/-- The entry that the next name in the directory at sector `s` takes is not one that the end of the file cuts. -/
def NextWhole (d : Disk) (s : ℤ) : Prop := Cuts (hdrAt d s).numBytes → freeSlot (tableAt d s) ≠ none

/-- The disk `d'` is `d` with a new file at sector `i`, and an entry for it in the directory at sector
`s` if there was room for one. -/
structure Installed (d : Disk) (kind : ℤ → Option Kind) (s : ℤ) (name : CString) (i : ℤ) (isDir : Byte) (c : Kind)
    (fileSize : ℤ) (d' : Disk) : Prop where
  storage : Storage d' (freeMapAt d') (Function.update kind i (some c))
  table : tableAt d' s = withEntry (tableAt d s) name i isDir
  others : ∀ {x}, kind x = some .dir → x ≠ s → tableAt d' x = tableAt d x
  hdrs : ∀ {x c'}, kind x = some c' → hdrAt d' x = hdrAt d x
  datas : ∀ {x c'}, kind x = some c' → dataAt d' x = dataAt d x
  files : ∀ {x}, kind x = some .plain → ∀ y ∈ owned d x, d' y = d y
  spared : ∀ y, Marked (freeMapAt d) y → y ∉ dataAt d s → y ∉ dataAt d FreeMapSector → d' y = d y
  taken : Taken (freeMapAt d) (freeMapAt d') (owned d' i)
  hdr : ∃ p ds, hdrAt d' i = (FileHeader.fresh p).grown fileSize ds
  data : (dataAt d' i).length = sectorsNeeded fileSize
  free : (freeMapAt d).free.length =
    (freeMapAt d').free.length + (sectorsNeeded fileSize + newBlocks 0 (sectorsNeeded fileSize)) + 1
  block : 0 < sectorsNeeded fileSize → ∀ b : ℕ, (freeMapAt d).free[1]? = some b →
    (hdrAt d' i).dataSectors.head? = some (b : ℤ)
  unused : NextWhole d s → CutUnused d' s
  next : freeSlot (tableAt d s) = none → ∃ old : DirectoryEntry, ∀ q < EntrySize,
    EntrySize * slotsIn (hdrAt d s).numBytes + q < min 200 (hdrAt d s).numBytes.toNat →
    byteIn d' (dataAt d s) (EntrySize * slotsIn (hdrAt d s).numBytes + q) =
    (old.filled name i isDir).toBytes.getD q 0

namespace Installed

variable {fs : FileSystem} {d d' : Disk} {kind : ℤ → Option Kind}
    {s i n x : ℤ} {name : CString} {isDir : Byte} {c : Kind}

lemma backed (hinst : Installed d kind s name i isDir c n d')
    (hs : Grounded fs d kind) (hkx : kind x = some .dir) :
    (hdrAt d' x).numBytes ≤ 128 * (dataAt d' x).length := by
  rw [hinst.hdrs hkx, hinst.datas hkx]
  exact hs.backed hkx

lemma cutUnused (hinst : Installed d kind s name i isDir c n d')
    (hs : Grounded fs d kind) (hks : kind s = some .dir)
    (hkx : kind x = some .dir) (hwhole : x = s → NextWhole d s) (hu : CutUnused d x) : CutUnused d' x := by
  by_cases hx : x = s
  · subst hx
    exact hinst.unused (hwhole rfl)
  · have hne : x ≠ FreeMapSector := hs.dir_ne_map hkx
    intro hcut
    rw [hinst.hdrs hkx] at hcut
    rw [cutInUse_congr (hs.backed hkx) (fun y hy => ?_) hcut]
    · exact hu hcut
    · exact hinst.spared y (hs.storage.marked hkx y hy)
        (fun h => hs.storage.apart hkx hks hx y hy (mem_owned_data h))
        fun h => hs.storage.apart hkx hs.storage.map hne y hy (mem_owned_data h)

end Installed

lemma sectorsNeeded_pos {n : ℤ} {free : ℕ} (hlt : sectorsNeeded n < free)
    (hfail : ¬(sectorsNeeded n ≤ 928 ∧ sectorsNeeded n + newBlocks 0 (sectorsNeeded n) < free)) :
    0 < sectorsNeeded n := by
  have hz : newBlocks 0 0 = 0 := rfl
  rcases Nat.eq_zero_or_pos (sectorsNeeded n) with h0 | h0
  · rw [h0, hz] at hfail
    omega
  · exact h0

namespace Storage

variable {fs : FileSystem} {d : Disk} {kind : ℤ → Option Kind} {s : ℤ}

/-- The disk `d'` is `d` with the header and the blocks of a new file at sector `i`, and `m` is what is left of the
free map. -/
structure Placed (d : Disk) (kind : ℤ → Option Kind) (i : ℤ) (c : Kind) (fileSize : ℤ) (m : FreeMap) (d' : Disk) :
    Prop where
  new : kind i = none
  storage : Storage d' m (Function.update kind i (some c))
  same : ∀ y, Marked (freeMapAt d) y → d' y = d y
  taken : Taken (freeMapAt d) m (owned d' i)
  hdr : ∃ p ds, hdrAt d' i = (FileHeader.fresh p).grown fileSize ds
  data : (dataAt d' i).length = sectorsNeeded fileSize
  free : (freeMapAt d).free.length =
    m.free.length + (sectorsNeeded fileSize + newBlocks 0 (sectorsNeeded fileSize)) + 1
  block : 0 < sectorsNeeded fileSize → ∀ b : ℕ, (freeMapAt d).free[1]? = some b →
    (hdrAt d' i).dataSectors.head? = some (b : ℤ)

lemma exec_place (hs : Storage d (freeMapAt d) kind) {k : Kernel} (hd : k.disk = d) {i : ℕ} {m₁ : FreeMap}
    (hi : (freeMapAt d).free = i :: m₁.free) {p : ℤ} (hp : int32 p = p) {fileSize : ℤ}
    (hcap : sectorsNeeded fileSize ≤ 928)
    (hfree : sectorsNeeded fileSize + newBlocks 0 (sectorsNeeded fileSize) ≤ m₁.free.length) (c : Kind) :
    ∃ hdr m₂ k₁ d₂, exec ((FileHeader.fresh p).allocate m₁ fileSize) k = .ok ((true, hdr, m₂), k₁) ∧
      exec (hdr.writeBack i) k₁ = .ok ((), ⟨d₂, k.maps, k.heap⟩) ∧ Placed d kind i c fileSize m₂ d₂ := by
  subst hd
  obtain ⟨ds, nbs, nsecs, m₂, d₁, ha, hon, hlen, ht, hd₁⟩ := FileHeader.allocate_ok
    (FileHeader.fresh_on p k.disk) List.nodup_nil (m := m₁) (by simp) fileSize (by simpa using hcap) hfree
  simp only [List.nil_append] at hon
  have hmem : (i : ℤ) ∈ sectors (freeMapAt k.disk).free := by
    rw [hi]
    exact List.mem_cons_self
  obtain ⟨hst, hhdr, hdata, htaken, hmarked⟩ := hs.newFile hi ht hon (FileHeader.grown_fits hp hon)
    (fun x hx => hd₁ x (by simp) hx) c
  refine ⟨_, m₂, { k with disk := d₁ }, _, ha, exec_write_inDisk (inDisk_of_free hmem) _ _,
      hs.kind_of_free hmem, hst,
    hmarked, htaken, ⟨p, ds, hhdr⟩, by rw [hdata, hlen], ?_, fun hpos b hb => ?_⟩
  · have hcount := ht.length
    rw [List.length_append, hon.stored.blocks_length, hlen] at hcount
    rw [hi, List.length_cons, hcount]
    simp only [newBlocks]
    omega
  · rw [hhdr]
    rw [hi, List.getElem?_cons_succ] at hb
    cases hm : m₁.free with
    | nil =>
      rw [hm] at hb
      cases hb
    | cons b' rest =>
      rw [hm] at hb
      cases hb
      exact FileHeader.fresh_allocate_block hpos hm ha

namespace Placed

variable {d' : Disk} {i fileSize : ℤ} {c c' : Kind} {m : FreeMap} {x : ℤ}

lemma kind_eq (hp : Placed d kind i c fileSize m d') (hk : kind x = some c') :
    Function.update kind i (some c) x = some c' := by
  rw [Function.update_of_ne, hk]
  rintro rfl
  rw [hp.new] at hk
  cases hk

lemma owned_eq (hp : Placed d kind i c fileSize m d') (hs : Storage d (freeMapAt d) kind) (hk : kind x = some c') :
    ∀ y ∈ owned d x, d' y = d y :=
  fun y hy => hp.same y (hs.marked hk y hy)

lemma hdrAt_eq (hp : Placed d kind i c fileSize m d') (hs : Storage d (freeMapAt d) kind) (hk : kind x = some c') :
    hdrAt d' x = hdrAt d x :=
  hdrAt_congr (hp.owned_eq hs hk _ (mem_owned_self _ _))

lemma dataAt_eq (hp : Placed d kind i c fileSize m d') (hs : Storage d (freeMapAt d) kind)
    (hk : kind x = some c') :
    dataAt d' x = dataAt d x :=
  dataAt_congr (hp.owned_eq hs hk _ (mem_owned_self _ _)) fun b hb => hp.owned_eq hs hk b (mem_owned_block hb)

end Placed

/-- The disk `d'` is `d` but for the contents of the directory file at sector `s`, which is `dir`,
and the free map, which is `m`. -/
structure Recorded (d : Disk) (kind : ℤ → Option Kind) (s : ℤ) (dir : Directory) (m : FreeMap) (d' : Disk) :
    Prop where
  storage : Storage d' m kind
  map : freeMapAt d' = m
  same : ∀ y, y ∉ dataAt d s → y ∉ dataAt d FreeMapSector → d' y = d y
  structure_eq : ∀ {x c}, kind x = some c → d' x = d x ∧ ∀ b ∈ blocksAt d x, d' b = d b
  table : tableAt d' s = dir.table.take (slotsIn (hdrAt d s).numBytes)
  others : ∀ {x}, kind x = some .dir → x ≠ s → (hdrAt d x).numBytes ≤ 128 * (dataAt d x).length →
    tableAt d' x = tableAt d x
  bytes : ∀ q < min 200 (hdrAt d s).numBytes.toNat, byteIn d' (dataAt d s) q = dir.toBytes.getD q 0

lemma exec_record {k : Kernel} {m : FreeMap} (hs : Storage k.disk m kind) (hk : kind s = some .dir)
    (hback : (hdrAt k.disk s).numBytes ≤ 128 * (dataAt k.disk s).length) (hcur : fs.freeMapFile.Current k.disk)
    (hmap : fs.freeMapFile.hdrSector = FreeMapSector) {dir : Directory} (hmin : NumDirEntries ≤ dir.table.length)
    (hmax : dir.table.length ≤ 20) :
    ∃ k₁ k', exec (dir.writeBack ⟨hdrAt k.disk s, 0, s⟩) k = .ok ((), k₁) ∧
      exec (m.writeBack fs.freeMapFile) k₁ = .ok ((), k') ∧ k'.maps = k.maps ∧
      Recorded k.disk kind s dir m k'.disk := by
  obtain ⟨k₁, hw₁, hm₁, hout₁, htab₁, hbytes₁⟩ := exec_writeBack_directory (hs.file hk) hback (hs.nodup hk)
    (f := ⟨hdrAt k.disk s, 0, s⟩) rfl rfl dir hmin hmax
  have hs₁ : Storage k₁.disk m kind := hs.write hk hout₁
  have hstr₁ : ∀ {x c}, kind x = some c → k₁.disk x = k.disk x ∧ ∀ b ∈ blocksAt k.disk x, k₁.disk b = k.disk b :=
    fun hkx => hs.structure_of_write hk hout₁ hkx
  have hcur₁ : fs.freeMapFile.Current k₁.disk := by
    rw [OpenFile.Current, hmap] at hcur ⊢
    rw [hdrAt_congr (hstr₁ hs.map).1]
    exact hcur
  obtain ⟨k', hw, hm, hout, hmap'⟩ := exec_writeBack_map hs₁ hcur₁ hmap m
  have hne : ∀ {x}, kind x = some .dir → x ≠ FreeMapSector := by
    rintro x hkx rfl
    rw [hs.map] at hkx
    cases hkx
  refine ⟨k₁, k', hw₁, hw, hm.trans hm₁, hs₁.write hs.map hout,
      hmap', fun y hys hy0 => ?_, fun {x c} hkx => ?_, ?_,
    fun {x} hkx hxs hb => ?_, fun q hq => ?_⟩
  · rw [← dataAt_congr (hstr₁ hs.map).1 (hstr₁ hs.map).2] at hy0
    rw [hout y hy0, hout₁ y hys]
  · have hstr := hs₁.structure_of_write hs.map hout hkx
    refine ⟨hstr.1.trans (hstr₁ hkx).1, fun b hb => (hstr.2 b ?_).trans ((hstr₁ hkx).2 b hb)⟩
    rw [blocksAt, hdrAt_congr (hstr₁ hkx).1]
    exact hb
  · rw [hs₁.tableAt_of_write hs.map hout (hne hk) hk (by
      rw [hdrAt_congr (hstr₁ hk).1, dataAt_congr (hstr₁ hk).1 (hstr₁ hk).2]; exact hback), htab₁]
  · rw [hs₁.tableAt_of_write hs.map hout (hne hkx) hkx (by
      rw [hdrAt_congr (hstr₁ hkx).1, dataAt_congr (hstr₁ hkx).1 (hstr₁ hkx).2]; exact hb),
      hs.tableAt_of_write hk hout₁ hxs hkx hb]
  · rw [← hbytes₁ q hq]
    refine byteIn_congr (by omega) fun x hx => ?_
    refine hs₁.owned_of_write hs.map hout (hne hk) hk x (mem_owned_data ?_)
    rw [dataAt_congr (hstr₁ hk).1 (hstr₁ hk).2]
    exact hx

namespace Recorded

variable {d' : Disk} {dir : Directory} {m : FreeMap} {x : ℤ} {c : Kind}

lemma hdrAt_eq (hr : Recorded d kind s dir m d') (hk : kind x = some c) : hdrAt d' x = hdrAt d x :=
  hdrAt_congr (hr.structure_eq hk).1

lemma dataAt_eq (hr : Recorded d kind s dir m d') (hk : kind x = some c) : dataAt d' x = dataAt d x :=
  dataAt_congr (hr.structure_eq hk).1 (hr.structure_eq hk).2

lemma owned_eq (hr : Recorded d kind s dir m d') (hs : Storage d m kind) (hk : kind x = some c) :
    owned d' x = owned d x :=
  ((hs.file hk).congr (hr.structure_eq hk).1 (hr.structure_eq hk).2).2

end Recorded

end Storage

namespace Grounded

variable {fs : FileSystem} {d : Disk} {kind : ℤ → Option Kind} {s : ℤ} {name : CString}

lemma exec_install (hs : Grounded fs d kind) (hk : kind s = some .dir) {k : Kernel} (hd : k.disk = d) {i : ℕ}
    {m₁ : FreeMap} (hi : (freeMapAt d).free = i :: m₁.free) {p : ℤ} (hp : int32 p = p) {fileSize : ℤ}
    (hcap : sectorsNeeded fileSize ≤ 928)
    (hfree : sectorsNeeded fileSize + newBlocks 0 (sectorsNeeded fileSize) ≤ m₁.free.length) {isDir : Byte}
    {dir : Directory} (hins : Inserted (tableAt d s) name i isDir dir) (c : Kind) :
    ∃ hdr m₂ k₁ k₂ k₃ k', exec ((FileHeader.fresh p).allocate m₁ fileSize) k = .ok ((true, hdr, m₂), k₁) ∧
      exec (hdr.writeBack i) k₁ = .ok ((), k₂) ∧ exec (dir.writeBack ⟨hdrAt d s, 0, s⟩) k₂ = .ok ((), k₃) ∧
      exec (m₂.writeBack fs.freeMapFile) k₃ = .ok ((), k') ∧ k'.maps = k.maps ∧
      Installed d kind s name i isDir c fileSize k'.disk := by
  have hst := hs.storage
  obtain ⟨hdr, m₂, k₁, d₂, ha, hw, hpl⟩ := hst.exec_place hd hi hp hcap hfree c
  have hcur : fs.freeMapFile.Current d₂ := by
    have h0 := hs.mapSector
    have hc := hs.mapFile
    rw [OpenFile.Current, h0] at hc ⊢
    rw [hpl.hdrAt_eq hst hst.map]
    exact hc
  have hback : ∀ {x}, kind x = some .dir → (hdrAt d₂ x).numBytes ≤ 128 * (dataAt d₂ x).length := fun hkx => by
    rw [hpl.hdrAt_eq hst hkx, hpl.dataAt_eq hst hkx]
    exact hs.backed hkx
  obtain ⟨k₃, k', hw₃, hw', hm, hr⟩ :=
    hpl.storage.exec_record (k := ⟨d₂, k.maps, k.heap⟩) (hpl.kind_eq hk) (hback hk) hcur
    hs.mapSector hins.min hins.max
  dsimp only at hw₃ hr
  rw [hpl.hdrAt_eq hst hk] at hw₃
  have hhdr : ∀ {x c'}, kind x = some c' → hdrAt k'.disk x = hdrAt d x := fun hkx =>
    (hr.hdrAt_eq (hpl.kind_eq hkx)).trans (hpl.hdrAt_eq hst hkx)
  have hdata : ∀ {x c'}, kind x = some c' → dataAt k'.disk x = dataAt d x := fun hkx =>
    (hr.dataAt_eq (hpl.kind_eq hkx)).trans (hpl.dataAt_eq hst hkx)
  have hbytes : ∀ q < min 200 (hdrAt d s).numBytes.toNat,
      byteIn k'.disk (dataAt d s) q = dir.toBytes.getD q 0 := fun q hq => by
    rw [← hpl.dataAt_eq hst hk]
    exact hr.bytes q (by rwa [hpl.hdrAt_eq hst hk])
  have hspared : ∀ y, Marked (freeMapAt d) y → y ∉ dataAt d s → y ∉ dataAt d FreeMapSector → k'.disk y = d y := by
    intro y hy hys hy0
    rw [← hpl.dataAt_eq hst hk] at hys
    rw [← hpl.dataAt_eq hst hst.map] at hy0
    rw [hr.same y hys hy0, hpl.same y hy]
  have hki : Function.update kind (i : ℤ) (some c) i = some c := Function.update_self _ _ _
  refine ⟨hdr, m₂, k₁, _, k₃, k', ha, hw, hw₃, hw', hm, by rw [hr.map]; exact hr.storage,
      ?_, fun {x} hkx hxs => ?_,
    hhdr, hdata, fun {x} hkx y hy => ?_, hspared, ?_, ?_, ?_, ?_, fun hpos b hb => ?_, fun hwhole hcut => ?_,
    fun hfull => ?_⟩
  · rw [hr.table, hpl.hdrAt_eq hst hk, ← hins.take, tableAt_length]
  · rw [hr.others (hpl.kind_eq hkx) hxs (hback hkx)]
    exact tableAt_congr (hs.backed hkx) (hpl.owned_eq hst hkx)
  · -- a plain file shares no sector with the directory and the free map
    have hxs : x ≠ s := by
      rintro rfl
      rw [hk] at hkx
      cases hkx
    exact hspared y (hst.marked hkx y hy) (fun h => hst.apart hkx hk hxs y hy (mem_owned_data h))
      fun h => hst.apart hkx hst.map (hs.plain_ne_map hkx) y hy (mem_owned_data h)
  · rw [hr.map, hr.owned_eq hpl.storage hki]
    exact hpl.taken
  · rw [hr.hdrAt_eq hki]
    exact hpl.hdr
  · rw [hr.dataAt_eq hki]
    exact hpl.data
  · rw [hr.map]
    exact hpl.free
  · rw [hr.hdrAt_eq hki]
    exact hpl.block hpos b hb
  · rw [hhdr hk] at hcut
    have hslots := (cuts_iff _).mp hcut
    have hlt : slotsIn (hdrAt d s).numBytes < dir.table.length := by
      have := hins.min
      simp only [EntrySize, NumDirEntries] at hslots this
      omega
    have hzero := hins.unused (hwhole hcut)
    rw [tableAt_length] at hzero
    rw [← hzero _ (List.getElem?_eq_getElem hlt)]
    refine cutInUse_of_bytes (by rw [hhdr hk]; exact hcut) (fun q hq => ?_)
      (by rw [hhdr hk]; exact List.getElem?_eq_getElem hlt)
    rw [hhdr hk] at hq
    rw [hdata hk, hbytes q hq]
  · obtain ⟨old, hold⟩ := hins.next hfull
    rw [tableAt_length] at hold
    obtain ⟨hlt, hget⟩ := List.getElem?_eq_some_iff.mp hold
    refine ⟨old, fun q hq hqlen => ?_⟩
    rw [hbytes _ hqlen, Directory.getD_toBytes _ _ _ hlt hq, hget]

end Grounded

namespace FileSystem

def createIn (fs : FileSystem) (dirFile : OpenFile) (directory : Directory) (name : CString) (initialSize : ℤ) :
    Nachos Bool :=
  if directory.find name ≠ -1 then pure false
  else do
    let freeMap ← fs.fetchFreeMap
    let (sector, freeMap) ← lift freeMap.findAndSet
    if sector = -1 then pure false
    else
      let (added, directory) ← directory.add name sector
      if !added then pure false
      else
        let hdr ← FileHeader.new
        let (allocated, hdr, freeMap) ← hdr.allocate freeMap initialSize
        if !allocated then pure false
        else
          hdr.writeBack sector
          directory.writeBack dirFile
          freeMap.writeBack fs.freeMapFile
          pure true

lemma create_eq (fs : FileSystem) (path : CString) (initialSize wdSector : ℤ) :
    fs.create path initialSize wdSector = (do
      let (wdSector, name) ← parsePath path wdSector
      if wdSector < 0 then pure false
      else
        let directory ← Directory.new NumDirEntries
        let dirFile ← OpenFile.new wdSector
        let directory ← directory.fetchFrom dirFile
        fs.createIn dirFile directory name initialSize) := rfl

end FileSystem

namespace Sound

variable {fs : FileSystem} {d : Disk} {kind : ℤ → Option Kind} {s wd : ℤ} {name path : CString} {k : Kernel}

lemma exec_enter (hs : Sound fs d kind) (hwd : kind wd = some .dir) (hd : k.disk = d)
    (hr : resolve d (components path) wd = some (s, name)) (f : OpenFile → Directory → ℤ → CString → Nachos Bool) :
    ∃ dir k', k'.disk = d ∧ Extends k.maps k'.maps ∧
      (AtRest k.maps → k'.maps .openFileCount s = some (counted 0 (k.maps .openFileCount s))) ∧
      Loaded (tableAt d s) dir ∧
      exec (do
        let (wdSector, name) ← parsePath path wd
        if wdSector < 0 then pure false
        else
          let directory ← Directory.new NumDirEntries
          let dirFile ← OpenFile.new wdSector
          let directory ← directory.fetchFrom dirFile
          f dirFile directory wdSector name) k = exec (f ⟨hdrAt d s, 0, s⟩ dir s name) k' := by
  have hks := hs.kind_of_resolve _ hwd hr
  obtain ⟨k₁, h₁, hd₁, hx₁, hb₁⟩ := hs.exec_walk (components path) hwd hd
  obtain ⟨dir, k₂, h₂, hd₂, hm₂, hlen, hnew⟩ := Directory.exec_new k₁
  obtain ⟨k₃, h₃, hd₃, hx₃, hc₃⟩ := hs.exec_openDirectory hks (hd₂.trans hd₁)
  obtain ⟨dir', h₄, hl⟩ := hs.exec_loadDirectory hks hd₃ hlen hnew 0
  refine ⟨dir', k₃, hd₃, hx₁.trans (hm₂ ▸ hx₃), fun hrest => ?_, hl, ?_⟩
  · rw [hc₃, Function.update_self, hm₂, (hb₁ hrest (by rw [hr]; rfl)).counted_eq]
  rw [hr, Option.getD_some] at h₁
  have h0 : ¬s < 0 := not_lt.mpr (hs.inDisk hks).1
  rw [exec_bind, parsePath, h₁]
  dsimp only
  rw [if_neg h0]
  simp only [exec_bind, h₂, h₃, h₄]

lemma exec_enter_none (hs : Sound fs d kind) (hwd : kind wd = some .dir) (hd : k.disk = d)
    (hr : resolve d (components path) wd = none) {α : Type} (a : α) (f : ℤ → CString → Nachos α) :
    ∃ k', k'.disk = d ∧ Extends k.maps k'.maps ∧
      exec (do
        let (wdSector, name) ← parsePath path wd
        if wdSector < 0 then pure a else f wdSector name) k = .ok (a, k') := by
  obtain ⟨k₁, h₁, hd₁, hx₁, -⟩ := hs.exec_walk (components path) hwd hd
  refine ⟨k₁, hd₁, hx₁, ?_⟩
  rw [hr, Option.getD_none] at h₁
  rw [exec_bind, parsePath, h₁]
  rfl

lemma find_none {dir : Directory} (hl : Loaded (tableAt d s) dir) (he : lookupIn d s name = none) :
    dir.find name = -1 := by
  rw [hl.find_eq, he]
  rfl

end Sound

namespace Grounded

variable {fs : FileSystem} {d : Disk} {kind : ℤ → Option Kind} {s : ℤ} {name : CString}

lemma find_ne (hs : Grounded fs d kind) (hks : kind s = some .dir)
    {dir : Directory} (hl : Loaded (tableAt d s) dir)
    {e : DirectoryEntry} (he : lookupIn d s name = some e) : dir.find name ≠ -1 := by
  rw [hl.find_eq, he]
  exact (hs.inDisk (hs.kind_of_lookupIn hks he)).ne_empty

lemma names_of_installed (hs : Grounded fs d kind) (hks : kind s = some .dir)
    (hnone : lookupIn d s name = none) {i : ℤ}
    (hi : i ∈ sectors (freeMapAt d).free) {isDir : Byte} {tables : ℤ → List DirectoryEntry}
    (htab : tables s = withEntry (tableAt d s) name i isDir)
    (hothers : ∀ {x}, kind x = some .dir → x ≠ s → tables x = tableAt d x)
    (hbare : isDir ≠ 0 → Names.Bare (Function.update kind i (some .dir)) (tables i)) :
    Names tables (Function.update kind i (some (if isDir = 0 then .plain else .dir))) := by
  have hfresh : kind i = none := hs.storage.kind_of_free hi
  have hne : ∀ {x c'}, kind x = some c' → x ≠ i := by
    rintro x c' hkx rfl
    rw [hfresh] at hkx
    cases hkx
  have hold : ∀ {x c'}, Function.update kind i (some (if isDir = 0 then Kind.plain else .dir)) x =
      some c' → x ≠ i →
      kind x = some c' := fun hkx hx => by rwa [Function.update_of_ne hx] at hkx
  -- first the file, then its entry
  have hadd : Names (Function.update tables s (tableAt d s))
      (Function.update kind i (some (if isDir = 0 then .plain else .dir))) := by
    have hcongr : Names (Function.update tables s (tableAt d s)) kind := hs.names.congr fun x hkx => ?_
    · refine hcongr.addFile hfresh _ fun hc => ?_
      have hd : isDir ≠ 0 := by
        rintro rfl
        cases hc
      rw [Function.update_of_ne (hne hks).symm, if_neg hd]
      exact hbare hd
    · by_cases hx : x = s
      · rw [hx, Function.update_self]
      · rw [Function.update_of_ne hx, hothers hkx hx]
  have hks' : Function.update kind i (some (if isDir = 0 then Kind.plain else .dir)) s = some .dir := by
    rw [Function.update_of_ne (hne hks)]
    exact hks
  have hlink := hadd.withEntry name isDir (h := i) hks' (inDisk_of_free hi)
    (fun h1 => hne hs.names.root h1.symm) (Function.update_self _ _ _) (fun {s' e'} hk he ho heq => ?_)
    (by rw [Function.update_self]; exact hnone)
  · rw [Function.update_self, ← htab, Function.update_idem, Function.update_eq_self] at hlink
    exact hlink
  · by_cases hs' : s' = i
    · subst hs'
      rw [Function.update_of_ne (hne hks).symm] at he
      have hd : isDir ≠ 0 := by
        rintro rfl
        rw [Function.update_self] at hk
        cases hk
      exact (hbare hd).not_owning he ho
    · have hks' := hold hk hs'
      have he' : e' ∈ tableAt d s' := by
        by_cases hx : s' = s
        · rwa [hx, Function.update_self, ← hx] at he
        · rwa [Function.update_of_ne hx, hothers hks' hx] at he
      exact hne (hs.names.points hks' he' ho.1) heq

/-- The state after a new file has been installed. A directory is made only when its first entries have
been written. -/
lemma grounded_of_installed (hs : Grounded fs d kind) (hks : kind s = some .dir)
    (hnone : lookupIn d s name = none) {i : ℤ}
    (hi : i ∈ sectors (freeMapAt d).free) {isDir : Byte} {c : Kind} {n : ℤ} {d' : Disk}
    (hinst : Installed d kind s name i isDir c n d') (hc : c = if isDir = 0 then .plain else .dir)
    (hbare : isDir ≠ 0 → Names.Bare (Function.update kind i (some .dir)) (tableAt d' i))
    (hback : c = .dir → (hdrAt d' i).numBytes ≤ 128 * (dataAt d' i).length) :
    Grounded fs d' (Function.update kind i (some c)) where
  storage := hinst.storage
  names := by
    rw [hc]
    exact hs.names_of_installed hks hnone hi hinst.table hinst.others hbare
  backed {x} hk := by
    by_cases hx : x = i
    · subst hx
      rw [Function.update_self] at hk
      exact hback (Option.some.inj hk)
    · rw [Function.update_of_ne hx] at hk
      exact hinst.backed hs hk
  mapFile := by
    have h := hs.mapFile
    rw [OpenFile.Current, hs.mapSector] at h ⊢
    rw [hinst.hdrs hs.storage.map]
    exact h
  mapSector := hs.mapSector

end Grounded

namespace Sound

variable {fs : FileSystem} {d : Disk} {kind : ℤ → Option Kind} {s wd : ℤ} {name path : CString} {k : Kernel}

lemma sound_of_installed (hs : Sound fs d kind) (hks : kind s = some .dir)
    {i : ℤ} {isDir : Byte} {c : Kind} {n : ℤ}
    {d' : Disk} (hinst : Installed d kind s name i isDir c n d') (hwhole : NextWhole d s)
    (hg : Grounded fs d' (Function.update kind i (some c))) (hdir : c = .dir → CutUnused d' i) :
    Sound fs d' (Function.update kind i (some c)) := by
  refine ⟨hg, fun {x} hk => ?_⟩
  by_cases hx : x = i
  · subst hx
    rw [Function.update_self] at hk
    exact hdir (Option.some.inj hk)
  · rw [Function.update_of_ne hx] at hk
    exact hinst.cutUnused hs.toGrounded hks hk (fun _ => hwhole) (hs.unused hk)

lemma exec_createIn (hs : Sound fs d kind) (hd : k.disk = d) {dir : Directory} (hl : Loaded (tableAt d s) dir)
    (hnone : lookupIn d s name = none) {i : ℕ} {rest : List ℕ}
    (hi : (freeMapAt d).free = i :: rest) (file : OpenFile)
    (n : ℤ) :
    ∃ m₁ dir' p k', m₁.free = rest ∧ Inserted (tableAt d s) name i 0 dir' ∧ int32 p = p ∧ k'.disk = d ∧
      k'.maps = k.maps ∧
      exec (fs.createIn file dir name n) k =
        exec (do
          let (allocated, hdr, freeMap) ← (FileHeader.fresh p).allocate m₁ n
          if !allocated then pure false
          else
            hdr.writeBack i
            dir'.writeBack file
            freeMap.writeBack fs.freeMapFile
            pure true) k' := by
  subst hd
  obtain ⟨m₁, hm₁, hf₁, -⟩ := Bitmap.findAndSet_cons _ hi
  obtain ⟨dir', k₁, h₁, hd₁, hmap₁, hins⟩ := Directory.exec_add hl hnone i k
  obtain ⟨p, k₂, h₂, hp, hd₂, hmap₂⟩ := FileHeader.exec_new k₁
  refine ⟨m₁, dir', p, k₂, hf₁, hins, hp, hd₂.trans hd₁, hmap₂.trans hmap₁, ?_⟩
  have hne : ¬((i : ℤ) = -1) := by omega
  rw [FileSystem.createIn, if_neg (not_not.mpr (find_none hl hnone)),
    exec_bind_of_ok (exec_fetchFreeMap hs.storage hs.mapFile hs.mapSector),
    hm₁, exec_bind_of_ok (exec_lift_ok _ _)]
  dsimp only
  rw [if_neg hne, exec_bind_of_ok h₁]
  dsimp only
  rw [if_neg (by simp), exec_bind_of_ok h₂]

lemma exec_create_none (hs : Sound fs d kind) (hwd : kind wd = some .dir) (hd : k.disk = d)
    (hr : resolve d (components path) wd = none) (n : ℤ) :
    ∃ k', exec (fs.create path n wd) k = .ok (false, k') ∧ k'.disk = d ∧ Extends k.maps k'.maps := by
  obtain ⟨k', hd', hx, he⟩ := hs.exec_enter_none hwd hd hr false fun wdSector name => do
    let directory ← Directory.new NumDirEntries
    let dirFile ← OpenFile.new wdSector
    let directory ← directory.fetchFrom dirFile
    fs.createIn dirFile directory name n
  exact ⟨k', he, hd', hx⟩

lemma exec_create_present (hs : Sound fs d kind) (hwd : kind wd = some .dir) (hd : k.disk = d)
    (hr : resolve d (components path) wd = some (s, name)) {e : DirectoryEntry} (he : lookupIn d s name = some e)
    (n : ℤ) : ∃ k', exec (fs.create path n wd) k = .ok (false, k') ∧ k'.disk = d ∧ Extends k.maps k'.maps := by
  have hks := hs.kind_of_resolve _ hwd hr
  obtain ⟨dir, k', hd', hx, -, hl, hstart⟩ := hs.exec_enter hwd hd hr fun f dir _ name => fs.createIn f dir name n
  refine ⟨k', ?_, hd', hx⟩
  rw [FileSystem.create_eq, hstart, FileSystem.createIn, if_pos (hs.find_ne hks hl he)]
  rfl

lemma exec_create_refused (hs : Sound fs d kind) (hwd : kind wd = some .dir) (hd : k.disk = d)
    (hr : resolve d (components path) wd = some (s, name)) (hnone : lookupIn d s name = none) {n : ℤ}
    (hfew : (freeMapAt d).free.length ≤ sectorsNeeded n) :
    ∃ k', exec (fs.create path n wd) k = .ok (false, k') ∧ k'.disk = d ∧ Extends k.maps k'.maps := by
  obtain ⟨dir, k₁, hd₁, hx, -, hl, hstart⟩ := hs.exec_enter hwd hd hr fun f dir _ name => fs.createIn f dir name n
  rw [FileSystem.create_eq, hstart]
  cases hi : (freeMapAt d).free with
  | nil =>
    refine ⟨k₁, ?_, hd₁, hx⟩
    subst hd₁
    rw [FileSystem.createIn, if_neg (not_not.mpr (find_none hl hnone)),
      exec_bind_of_ok (exec_fetchFreeMap hs.storage hs.mapFile hs.mapSector), Bitmap.findAndSet_full _ hi,
      exec_bind_of_ok (exec_lift_ok _ _)]
    dsimp only
    rw [if_pos rfl, exec_pure]
  | cons i rest =>
    obtain ⟨m₁, dir', p, k₂, hf₁, -, -, hd₂, hm₂, he⟩ := hs.exec_createIn hd₁ hl hnone hi ⟨hdrAt d s, 0, s⟩ n
    refine ⟨k₂, ?_, hd₂, hm₂ ▸ hx⟩
    rw [hi, List.length_cons] at hfew
    rw [he, exec_bind, FileHeader.allocate_refuse _ _ _ _ (by rw [hf₁]; omega)]
    dsimp only
    rw [if_pos (by simp), exec_pure]

/-- Clear sectors for the header and the data, but not for the indirect blocks, or more data than a
header can hold. -/
lemma exec_create_aborts (hs : Sound fs d kind) (hwd : kind wd = some .dir) (hd : k.disk = d)
    (hr : resolve d (components path) wd = some (s, name)) (hnone : lookupIn d s name = none) {n : ℤ}
    (hlt : sectorsNeeded n < (freeMapAt d).free.length)
    (hfail : ¬(sectorsNeeded n ≤ 928 ∧
      sectorsNeeded n + newBlocks 0 (sectorsNeeded n) < (freeMapAt d).free.length)) :
    exec (fs.create path n wd) k = .error .assertion := by
  obtain ⟨dir, k₁, hd₁, hx, -, hl, hstart⟩ := hs.exec_enter hwd hd hr fun f dir _ name => fs.createIn f dir name n
  rw [FileSystem.create_eq, hstart]
  obtain ⟨i, rest, hi⟩ : ∃ i rest, (freeMapAt d).free = i :: rest := List.exists_cons_of_length_pos (by omega)
  obtain ⟨m₁, dir', p, k₂, hf₁, -, -, hd₂, -, he⟩ := hs.exec_createIn hd₁ hl hnone hi ⟨hdrAt d s, 0, s⟩ n
  rw [hi, List.length_cons] at hfail hlt
  rw [he, exec_bind, FileHeader.allocate_abort (FileHeader.fresh_on p k₂.disk) List.nodup_nil n
    (sectorsNeeded_pos hlt hfail) (by rw [hf₁]; omega) (by rw [hf₁, List.length_nil]; omega)]

lemma exec_create_succeeds (hs : Sound fs d kind) (hwd : kind wd = some .dir) (hd : k.disk = d)
    (hr : resolve d (components path) wd = some (s, name)) (hnone : lookupIn d s name = none) {n : ℤ}
    (hcap : sectorsNeeded n ≤ 928)
    (hlt : sectorsNeeded n + newBlocks 0 (sectorsNeeded n) < (freeMapAt d).free.length) :
    ∃ (i : ℕ) (k' : Kernel), (freeMapAt d).free.head? = some i ∧ exec (fs.create path n wd) k = .ok (true, k') ∧
      Extends k.maps k'.maps ∧
      (AtRest k.maps → k'.maps .openFileCount s = some (counted 0 (k.maps .openFileCount s))) ∧
      Installed d kind s name i 0 .plain n k'.disk ∧
      (NextWhole d s → Sound fs k'.disk (Function.update kind i (some .plain))) := by
  have hks := hs.kind_of_resolve _ hwd hr
  obtain ⟨dir, k₁, hd₁, hx, hcount, hl, hstart⟩ :=
    hs.exec_enter hwd hd hr fun f dir _ name => fs.createIn f dir name n
  rw [FileSystem.create_eq, hstart]
  obtain ⟨i, rest, hi⟩ : ∃ i rest, (freeMapAt d).free = i :: rest := List.exists_cons_of_length_pos (by omega)
  obtain ⟨m₁, dir', p, k₂, hf₁, hins, hp, hd₂, hm₂, he⟩ := hs.exec_createIn hd₁ hl hnone hi ⟨hdrAt d s, 0, s⟩ n
  rw [hi, List.length_cons] at hlt
  have hmem : (i : ℤ) ∈ sectors (freeMapAt d).free := by rw [hi]; simp
  rw [← hf₁] at hi
  obtain ⟨hdr, m₂, k₃, k₄, k₅, k', h₃, h₄, h₅, h₆, hm, hinst⟩ := hs.exec_install hks hd₂ hi hp hcap
    (by rw [hf₁]; omega) hins .plain
  refine ⟨i, k', by rw [hi, List.head?_cons], ?_, by rw [hm, hm₂]; exact hx,
      by rw [hm, hm₂]; exact hcount, hinst, ?_⟩
  · rw [he]
    simp only [exec_bind, h₃, Bool.not_true, Bool.false_eq_true, if_false, h₄, h₅, h₆, exec_pure]
  · exact fun hwhole => hs.sound_of_installed hks hinst hwhole
      (hs.grounded_of_installed hks hnone hmem hinst rfl (fun h => absurd rfl h) fun h => by cases h)
      fun h => by cases h

end Sound

end NachosFileSys
