import NachosFileSys.Volume

namespace NachosFileSys

open Lib.Programs Lib.Bytes

lemma getD_bytesIn (d : Disk) (secs : List ℤ) (p n i : ℕ) (hi : i < n) :
    (bytesIn d secs p n).getD i 0 = byteIn d secs (p + i) := by
  rw [List.getD_eq_getElem?_getD, getElem?_bytesIn, if_pos hi, Option.getD_some]

lemma getD_drop {α : Type} (l : List α) (n i : ℕ) (a : α) : (l.drop n).getD i a = l.getD (n + i) a := by
  rw [List.getD_eq_getElem?_getD, List.getD_eq_getElem?_getD, List.getElem?_drop]

namespace Bitmap

variable {n : ℕ}

@[simp] lemma toBytes_length (b : Bitmap n) : b.toBytes.length = 4 * numWords n := by
  rw [toBytes, List.length_ofFn]

lemma ofBytes_toBytes (b : Bitmap n) : ofBytes b.toBytes = b := by
  cases b with
  | mk words =>
    rw [ofBytes, Bitmap.mk.injEq]
    apply Vector.ext
    intro j hj
    rw [Vector.getElem_ofFn, ← wordOf_byteOf words[j]]
    have hc : ∀ c < 4, (toBytes ⟨words⟩).getD (4 * j + c) 0 = byteOf words[j] c := by
      intro c hc
      rw [List.getD_eq_getElem _ _ (by rw [toBytes_length]; omega)]
      simp only [toBytes, List.getElem_ofFn]
      have hd : (4 * j + c) / 4 = j := by omega
      have hm : (4 * j + c) % 4 = c := by omega
      simp only [hd, hm]
      rfl
    simp only [wordOf, hc 0 (by omega), hc 1 (by omega), hc 2 (by omega), hc 3 (by omega)]

lemma ofBytes_congr {bytes bytes' : List Byte} (h : ∀ i < 4 * numWords n, bytes.getD i 0 = bytes'.getD i 0) :
    (ofBytes bytes : Bitmap n) = ofBytes bytes' := by
  rw [ofBytes, ofBytes, Bitmap.mk.injEq]
  apply Vector.ext
  intro j hj
  simp only [Vector.getElem_ofFn, wordOf]
  rw [h (4 * j + 0) (by omega), h (4 * j + 1) (by omega), h (4 * j + 2) (by omega), h (4 * j + 3) (by omega)]

end Bitmap

def freeMapAt (d : Disk) : FreeMap := Bitmap.ofBytes (bytesIn d (dataAt d FreeMapSector) 0 128)

def OpenFile.Current (f : OpenFile) (d : Disk) : Prop := f.hdr = hdrAt d f.hdrSector

lemma OpenFile.Current.backed {f : OpenFile} {d : Disk} (hf : f.Current d) (hfile : FileAt d f.hdrSector)
    (hle : (hdrAt d f.hdrSector).numBytes ≤ 128 * (dataAt d f.hdrSector).length) :
    f.Backed d (blocksAt d f.hdrSector) (dataAt d f.hdrSector) := by
  rw [OpenFile.Current] at hf
  refine ⟨by rw [hf]; exact hfile.on, ?_⟩
  rw [hf]
  exact hle

lemma freeMap_bytes : ((numWords 1024 : ℕ) : ℤ) * 4 = ((128 : ℕ) : ℤ) := by decide

section FreeMapFile

variable {m : FreeMap} {kind : ℤ → Option Kind} {k : Kernel} {f : OpenFile}

lemma freeMapFile_backed (hs : Storage k.disk m kind) (hf : f.Current k.disk) (h0 : f.hdrSector = FreeMapSector) :
    f.Backed k.disk (blocksAt k.disk FreeMapSector) (dataAt k.disk FreeMapSector) ∧
      f.hdr.fileLength = FreeMapFileSize := by
  have hlen := hs.mapLength
  have hb := hs.mapBacked
  have hfile := hs.file hs.map
  rw [← h0] at hlen hb hfile ⊢
  refine ⟨hf.backed hfile (by rw [hlen]; simp only [FreeMapFileSize]; omega), ?_⟩
  rw [OpenFile.Current] at hf
  rw [hf]
  exact hlen

lemma exec_fetchFrom_map (hs : Storage k.disk m kind) (hf : f.Current k.disk) (h0 : f.hdrSector = FreeMapSector)
    (b : FreeMap) : exec (b.fetchFrom f) k = .ok (freeMapAt k.disk, k) := by
  obtain ⟨hback, hlen⟩ := freeMapFile_backed hs hf h0
  have hread := OpenFile.exec_readAt hback 128 0 (by omega)
  rw [hlen, Nat.cast_zero] at hread
  have hcopy : copyInto b.toBytes 0 (bytesIn k.disk (dataAt k.disk FreeMapSector) 0 128) =
      .ok (bytesIn k.disk (dataAt k.disk FreeMapSector) 0 128) := by
    rw [copyInto, if_pos (by rw [bytesIn_length, Bitmap.toBytes_length]; decide)]
    rw [Int.toNat_zero, overlay_full _ _ (by rw [bytesIn_length, Bitmap.toBytes_length]; decide)]
  rw [Bitmap.fetchFrom, freeMap_bytes, exec_bind, hread]
  dsimp only
  change exec (lift (copyInto b.toBytes 0 (bytesIn k.disk (dataAt k.disk FreeMapSector) 0 128) >>= _)) k = _
  rw [hcopy]
  rfl

lemma exec_fetchFreeMap {fs : FileSystem} (hs : Storage k.disk m kind) (hf : fs.freeMapFile.Current k.disk)
    (h0 : fs.freeMapFile.hdrSector = FreeMapSector) : exec fs.fetchFreeMap k = .ok (freeMapAt k.disk, k) := by
  rw [FileSystem.fetchFreeMap, Bitmap.new_eq (by omega), exec_bind, exec_lift_ok]
  exact exec_fetchFrom_map hs hf h0 _

lemma exec_writeBack_map (hs : Storage k.disk m kind) (hf : f.Current k.disk) (h0 : f.hdrSector = FreeMapSector)
    (m' : FreeMap) :
    ∃ k', exec (m'.writeBack f) k = .ok ((), k') ∧ k'.maps = k.maps ∧
      (∀ x, x ∉ dataAt k.disk FreeMapSector → k'.disk x = k.disk x) ∧ freeMapAt k'.disk = m' := by
  obtain ⟨hback, hlen⟩ := freeMapFile_backed hs hf h0
  have hnd := hs.data_nodup hs.map
  have ht : transferred f.hdr.fileLength 0 128 = 128 := by rw [hlen]; rfl
  obtain ⟨k', he, hm, hframe, hbytes⟩ := OpenFile.exec_writeAt hback hnd m'.toBytes 128 0 (by omega)
    (by rw [ht, Bitmap.toBytes_length]; decide)
  have hout : ∀ x, x ∉ dataAt k.disk FreeMapSector → k'.disk x = k.disk x := fun x hx =>
    hframe x fun q _ _ hq => hx (List.mem_of_getElem? hq)
  refine ⟨k', ?_, hm, hout, ?_⟩
  · rw [Nat.cast_zero] at he
    rw [Bitmap.writeBack, freeMap_bytes, exec_bind, he]
    rfl
  · have hst := hs.structure_of_write hs.map hout hs.map
    rw [freeMapAt, dataAt_congr hst.1 hst.2]
    conv_rhs => rw [← Bitmap.ofBytes_toBytes m']
    apply Bitmap.ofBytes_congr
    intro i hi
    have hi : i < 128 := hi
    rw [getD_bytesIn _ _ _ _ _ hi, Nat.zero_add, hbytes i (by rw [hlen]; simp only [FreeMapFileSize]; omega), ht,
      if_pos (by omega), Nat.sub_zero]

end FreeMapFile

namespace DirectoryEntry

lemma toBytes_length (e : DirectoryEntry) : e.toBytes.length = EntrySize := by
  simp [toBytes]

lemma ofBytes_congr {b b' : List Byte} (h : ∀ i < EntrySize, b.getD i 0 = b'.getD i 0) :
    ofBytes b = ofBytes b' := by
  have hv : ∀ (n o : ℕ), o + n ≤ EntrySize →
      (Vector.ofFn fun i : Fin n => b.getD (o + i) 0) = Vector.ofFn fun i : Fin n => b'.getD (o + i) 0 := by
    intro n o ho
    congr 1
    funext i
    exact h _ (by omega)
  rw [ofBytes, ofBytes, h 0 (by decide), h 1 (by decide), hv 2 2 (by decide), hv 10 8 (by decide),
    hv 2 18 (by decide)]
  congr 1
  simp only [wordOf]
  rw [h (4 + 0) (by decide), h (4 + 1) (by decide), h (4 + 2) (by decide), h (4 + 3) (by decide)]

lemma ofBytes_toBytes (e : DirectoryEntry) : ofBytes e.toBytes = e := by
  -- a field of `n` bytes at offset `o`
  have hv : ∀ {n : ℕ} (l l' : List Byte) (v : Vector Byte n) (o : ℕ), l.length = o →
      e.toBytes = l ++ v.toList ++ l' →
      ∀ (i : ℕ) (hi : i < n), e.toBytes.getD (o + i) 0 = v[i] := by
    intro n l l' v o ho he i hi
    rw [he, List.getD_eq_getElem?_getD, List.getElem?_append_left (by simp; omega),
      List.getElem?_append_right (by omega), ← ho, Nat.add_sub_cancel_left, Vector.getElem?_toList,
      Vector.getElem?_eq_getElem hi, Option.getD_some]
  have hp := hv [e.isDir, e.inUse] _ e.pad 2 rfl (by
    rw [toBytes, List.append_assoc, List.append_assoc])
  have hn := hv _ e.trail.toList e.name 8 (by simp) rfl
  have ht := hv _ [] e.trail 18 (by simp) (List.append_nil _).symm
  have hs : (wordOf fun c => e.toBytes.getD (4 + c) 0) = e.sector := by
    rw [← wordOf_byteOf e.sector]
    have hc :=
      hv ([e.isDir, e.inUse] ++ e.pad.toList) _ (Vector.ofFn fun c : Fin 4 => byteOf e.sector c) 4 (by simp)
      (by rw [toBytes, List.append_assoc]; rfl)
    simp only [wordOf, hc 0 (by omega), hc 1 (by omega), hc 2 (by omega), hc 3 (by omega),
      Vector.getElem_ofFn]
  cases e with
  | mk isDir inUse pad sector name trail =>
    rw [ofBytes, hs, DirectoryEntry.mk.injEq]
    refine ⟨rfl, rfl, ?_, rfl, ?_, ?_⟩
    · apply Vector.ext
      intro i hi
      rw [Vector.getElem_ofFn, hp i hi]
    · apply Vector.ext
      intro i hi
      rw [Vector.getElem_ofFn, hn i hi]
    · apply Vector.ext
      intro i hi
      rw [Vector.getElem_ofFn, ht i hi]

end DirectoryEntry

namespace Directory

lemma toBytes_length (d : Directory) : d.toBytes.length = EntrySize * d.table.length := by
  rw [toBytes, List.length_flatMap, List.map_congr_left (g := fun _ => EntrySize) fun e _ => e.toBytes_length,
    List.map_const', List.sum_replicate, smul_eq_mul, Nat.mul_comm]

lemma getD_toBytes (table : List DirectoryEntry) : ∀ (i j : ℕ) (hi : i < table.length), j < EntrySize →
    (toBytes ⟨table⟩).getD (EntrySize * i + j) 0 = table[i].toBytes.getD j 0 := by
  induction table with
  | nil => intro i j hi; simp at hi
  | cons e table ih =>
    intro i j hi hj
    have hcons : toBytes ⟨e :: table⟩ = e.toBytes ++ toBytes ⟨table⟩ := List.flatMap_cons
    rw [hcons, List.getD_eq_getElem?_getD]
    cases i with
    | zero =>
      rw [List.getElem?_append_left (by rw [e.toBytes_length]; omega), ← List.getD_eq_getElem?_getD]
      congr 1
      omega
    | succ i =>
      have hlen := e.toBytes_length
      have hsub : EntrySize * (i + 1) + j - e.toBytes.length = EntrySize * i + j := by
        rw [hlen]
        simp only [EntrySize]
        omega
      rw [List.getElem?_append_right (by rw [hlen]; simp only [EntrySize]; omega), hsub,
        ← List.getD_eq_getElem?_getD, ih i j (by simpa using hi) hj]
      rfl

end Directory

/-- The entries that lie wholly inside a directory file of `len` bytes, up to `NumDirEntries`. -/
def slotsIn (len : ℤ) : ℕ := min NumDirEntries (len.toNat / EntrySize)

/-- A directory file of this length ends with an entry, or after the last entry that is ever read. -/
def CleanLength (len : ℤ) : Prop := len ≤ 0 ∨ 20 ∣ len ∨ DirectoryFileSize ≤ len

/-- A directory file of this length ends inside an entry, after the entry's `inUse`. -/
def Cuts (len : ℤ) : Prop := 0 < len ∧ len < DirectoryFileSize ∧ 2 ≤ len % 20

instance (len : ℤ) : Decidable (Cuts len) := inferInstanceAs (Decidable (_ ∧ _))

lemma CleanLength.not_cuts {len : ℤ} (h : CleanLength len) : ¬Cuts len := by
  rintro ⟨h0, h1, h2⟩
  simp only [CleanLength, DirectoryFileSize] at h h1
  omega

lemma slotsIn_bytes_le (len : ℤ) : EntrySize * slotsIn len ≤ min 200 len.toNat := by
  simp only [slotsIn, EntrySize, NumDirEntries]
  omega

lemma cuts_iff (len : ℤ) : Cuts len ↔ EntrySize * slotsIn len + 1 < min 200 len.toNat := by
  simp only [Cuts, slotsIn, EntrySize, NumDirEntries, DirectoryFileSize]
  omega

lemma slot_of_inUse {len : ℤ} {i : ℕ} (hi : slotsIn len ≤ i) (hlt : EntrySize * i + 1 < min 200 len.toNat) :
    i = slotsIn len := by
  simp only [slotsIn, EntrySize, NumDirEntries] at hi hlt ⊢
  omega

def tableAt (d : Disk) (s : ℤ) : List DirectoryEntry :=
  (List.range (slotsIn (hdrAt d s).numBytes)).map fun i =>
    DirectoryEntry.ofBytes (bytesIn d (dataAt d s) (EntrySize * i) EntrySize)

lemma tableAt_length (d : Disk) (s : ℤ) : (tableAt d s).length = slotsIn (hdrAt d s).numBytes := by
  rw [tableAt, List.length_map, List.length_range]

lemma slotsIn_le (len : ℤ) : slotsIn len ≤ NumDirEntries := min_le_left _ _

lemma tableAt_of_bytes {d : Disk} {s : ℤ} {dir : Directory} (hmin : NumDirEntries ≤ dir.table.length)
    (hbytes : ∀ q < min 200 (hdrAt d s).numBytes.toNat, byteIn d (dataAt d s) q = dir.toBytes.getD q 0) :
    tableAt d s = dir.table.take (slotsIn (hdrAt d s).numBytes) := by
  have hslots := slotsIn_bytes_le (hdrAt d s).numBytes
  have hle := slotsIn_le (hdrAt d s).numBytes
  rw [tableAt]
  apply List.ext_getElem
  · rw [List.length_map, List.length_range, List.length_take]
    omega
  · intro i h1 h2
    have hi : i < slotsIn (hdrAt d s).numBytes := by simpa using h1
    rw [List.getElem_map, List.getElem_range, List.getElem_take, ← DirectoryEntry.ofBytes_toBytes dir.table[i]]
    apply DirectoryEntry.ofBytes_congr
    intro j hj
    have hij : EntrySize * i + j < min 200 (hdrAt d s).numBytes.toNat := by
      simp only [EntrySize] at hj hslots ⊢
      omega
    rw [getD_bytesIn _ _ _ _ _ hj, hbytes _ hij]
    exact Directory.getD_toBytes dir.table i j (by omega) hj

/-- `inUse` of the entry after the whole ones, as the file of the directory at sector `s` has it. -/
def cutInUse (d : Disk) (s : ℤ) : Byte := byteIn d (dataAt d s) (EntrySize * slotsIn (hdrAt d s).numBytes + 1)

lemma cutInUse_of_bytes {d : Disk} {s : ℤ} {dir : Directory}
    {e : DirectoryEntry} (hcut : Cuts (hdrAt d s).numBytes)
    (hbytes : ∀ q < min 200 (hdrAt d s).numBytes.toNat, byteIn d (dataAt d s) q = dir.toBytes.getD q 0)
    (he : dir.table[slotsIn (hdrAt d s).numBytes]? = some e) : cutInUse d s = e.inUse := by
  obtain ⟨hlt, rfl⟩ := List.getElem?_eq_some_iff.mp he
  rw [cutInUse, hbytes _ ((cuts_iff _).mp hcut), Directory.getD_toBytes _ _ _ hlt (by decide)]
  rfl

structure DirAt (d : Disk) (s : ℤ) : Prop where
  file : FileAt d s
  backed : (hdrAt d s).numBytes ≤ 128 * (dataAt d s).length
  unused : Cuts (hdrAt d s).numBytes → cutInUse d s = 0

section DirectoryFile

variable {k : Kernel} {f : OpenFile} {s : ℤ}

lemma exec_fetchFrom_bytes (hfile : FileAt k.disk s)
    (hback : (hdrAt k.disk s).numBytes ≤ 128 * (dataAt k.disk s).length)
    (hf : f.Current k.disk) (hfs : f.hdrSector = s)
    (dir : Directory) (hdir : dir.table.length = NumDirEntries) :
    ∃ bytes : List Byte, exec (dir.fetchFrom f) k = .ok (Directory.ofBytes NumDirEntries bytes, k) ∧
      ∀ q, bytes.getD q 0 = if q < min 200 (hdrAt k.disk s).numBytes.toNat then byteIn k.disk (dataAt k.disk s) q
        else dir.toBytes.getD q 0 := by
  subst hfs
  have hback := hf.backed hfile hback
  have hlen : f.hdr.fileLength = (hdrAt k.disk f.hdrSector).numBytes := by
    rw [OpenFile.Current] at hf
    rw [hf]
    rfl
  have hread := OpenFile.exec_readAt hback 200 0 (by omega)
  have ht : transferred f.hdr.fileLength 0 200 = min 200 (hdrAt k.disk f.hdrSector).numBytes.toNat := by
    rw [transferred, hlen, Nat.sub_zero]
  have hbl := Directory.toBytes_length dir
  rw [ht, Nat.cast_zero] at hread
  generalize hm : min 200 (hdrAt k.disk f.hdrSector).numBytes.toNat = m at hread
  have hover : 0 + (bytesIn k.disk (dataAt k.disk f.hdrSector) 0 m).length ≤ dir.toBytes.length := by
    rw [bytesIn_length, hbl, hdir]
    simp only [EntrySize, NumDirEntries]
    omega
  have hsize : ((dir.tableSize : ℕ) : ℤ) * EntrySize = ((200 : ℕ) : ℤ) := by
    rw [Directory.tableSize, hdir]
    rfl
  refine ⟨overlay dir.toBytes 0 (bytesIn k.disk (dataAt k.disk f.hdrSector) 0 m), ?_, fun q => ?_⟩
  · rw [Directory.fetchFrom, hsize, exec_bind, hread]
    dsimp only
    have hcopy := OpenFile.copyInto_natCast dir.toBytes 0 _ hover
    rw [Nat.cast_zero] at hcopy
    rw [hcopy, Directory.tableSize, hdir]
    rfl
  · rw [OpenFile.getD_overlay _ _ _ hover, bytesIn_length, Nat.zero_add, Nat.sub_zero]
    by_cases hq : q < m
    · rw [if_pos ⟨Nat.zero_le q, hq⟩, if_pos hq, getD_bytesIn _ _ _ _ _ hq, Nat.zero_add]
    · rw [if_neg fun h => hq h.2, if_neg hq]

lemma ofBytes_eq {d : Disk} {s : ℤ} {bytes : List Byte} (h : ∀ q < min 200 (hdrAt d s).numBytes.toNat,
    bytes.getD q 0 = byteIn d (dataAt d s) q) : Directory.ofBytes NumDirEntries bytes = ⟨tableAt d s ++
      (List.range' (slotsIn (hdrAt d s).numBytes) (NumDirEntries - slotsIn (hdrAt d s).numBytes)).map fun i =>
        DirectoryEntry.ofBytes (bytes.drop (EntrySize * i))⟩ := by
  have hslots := slotsIn_bytes_le (hdrAt d s).numBytes
  have hle := slotsIn_le (hdrAt d s).numBytes
  rw [Directory.ofBytes, tableAt, Directory.mk.injEq]
  generalize slotsIn (hdrAt d s).numBytes = m at hslots hle
  have hrange : List.range NumDirEntries = List.range m ++ List.range' m (NumDirEntries - m) := by
    have h : List.range' 0 m ++ List.range' (0 + m) (NumDirEntries - m) =
        List.range' 0 (m + (NumDirEntries - m)) :=
      List.range'_append_1
    rwa [Nat.zero_add, Nat.add_sub_cancel' hle, ← List.range_eq_range', ← List.range_eq_range', eq_comm] at h
  rw [hrange, List.map_append]
  congr 1
  refine List.map_congr_left fun i hi => DirectoryEntry.ofBytes_congr fun j hj => ?_
  have hi := List.mem_range.mp hi
  rw [getD_drop, h _ (by simp only [EntrySize] at hj hslots ⊢; omega), getD_bytesIn _ _ _ _ _ hj]

lemma exec_fetchFrom_directory (hd : DirAt k.disk s) (hf : f.Current k.disk)
    (hfs : f.hdrSector = s) (dir : Directory)
    (hdir : dir.table.length = NumDirEntries) (hnew : ∀ e ∈ dir.table, e.inUse = 0) :
    ∃ junk, exec (dir.fetchFrom f) k = .ok (⟨tableAt k.disk s ++ junk⟩, k) ∧
      (tableAt k.disk s ++ junk).length = NumDirEntries ∧ ∀ e ∈ junk, e.inUse = 0 := by
  obtain ⟨bytes, he, hbytes⟩ := exec_fetchFrom_bytes hd.file hd.backed hf hfs dir hdir
  have hle := slotsIn_le (hdrAt k.disk s).numBytes
  refine ⟨_, by rw [he, ofBytes_eq fun q hq => by rw [hbytes, if_pos hq]], ?_, fun e he => ?_⟩
  · rw [List.length_append, List.length_map, List.length_range', tableAt_length, Nat.add_sub_cancel' hle]
  · obtain ⟨i, hi, rfl⟩ := List.mem_map.mp he
    rw [List.mem_range'_1] at hi
    change (bytes.drop (EntrySize * i)).getD 1 0 = 0
    rw [getD_drop, hbytes]
    split
    · rename_i hlt
      have hslot := slot_of_inUse hi.1 hlt
      rw [hslot] at hlt ⊢
      exact hd.unused ((cuts_iff _).mpr hlt)
    · have hlt : i < dir.table.length := by omega
      rw [Directory.getD_toBytes dir.table i 1 hlt (by decide)]
      exact hnew _ (List.getElem_mem hlt)

lemma exec_writeBack_bytes (hfile : FileAt k.disk s)
    (hback : (hdrAt k.disk s).numBytes ≤ 128 * (dataAt k.disk s).length) (hnd : (owned k.disk s).Nodup)
    (hf : f.Current k.disk) (hfs : f.hdrSector = s) (dir : Directory) (hmin : NumDirEntries ≤ dir.table.length)
    (hmax : dir.table.length ≤ 20) :
    ∃ k', exec (dir.writeBack f) k = .ok ((), k') ∧ k'.maps = k.maps ∧
      (∀ x, x ∉ dataAt k.disk s → k'.disk x = k.disk x) ∧ hdrAt k'.disk s = hdrAt k.disk s ∧
      dataAt k'.disk s = dataAt k.disk s ∧ ∀ q < min 200 (hdrAt k.disk s).numBytes.toNat,
        byteIn k'.disk (dataAt k.disk s) q = dir.toBytes.getD q 0 := by
  subst hfs
  have hback := hf.backed hfile hback
  have hlen : f.hdr.fileLength = (hdrAt k.disk f.hdrSector).numBytes := by
    rw [OpenFile.Current] at hf
    rw [hf]
    rfl
  obtain ⟨hhdr, hnd'⟩ := List.nodup_cons.mp hnd
  have hbl := Directory.toBytes_length dir
  have hn : EntrySize * dir.table.length ≤ 400 := by simp only [EntrySize]; omega
  have htr : transferred f.hdr.fileLength 0 (EntrySize * dir.table.length) ≤ EntrySize * dir.table.length :=
    min_le_left _ _
  obtain ⟨k', he, hm, hframe, hbytes⟩ := OpenFile.exec_writeAt hback hnd' dir.toBytes
    (EntrySize * dir.table.length) 0 (by omega) (by rw [hbl]; exact htr)
  have hout : ∀ x, x ∉ dataAt k.disk f.hdrSector → k'.disk x = k.disk x := fun x hx =>
    hframe x fun q _ _ hq => hx (List.mem_of_getElem? hq)
  have hself : k'.disk f.hdrSector = k.disk f.hdrSector := hout _ fun hx => hhdr (List.mem_append_right _ hx)
  have hblocks : ∀ b ∈ blocksAt k.disk f.hdrSector, k'.disk b = k.disk b := fun b hb => hout b fun hx =>
    (List.nodup_append.mp hnd').2.2 b hb b hx rfl
  refine ⟨k', ?_, hm, hout, hdrAt_congr hself, dataAt_congr hself hblocks, fun q hq => ?_⟩
  · have hsize : ((dir.tableSize : ℕ) : ℤ) * EntrySize = ((EntrySize * dir.table.length : ℕ) : ℤ) := by
      rw [Directory.tableSize, Nat.cast_mul, mul_comm]
    rw [Nat.cast_zero] at he
    rw [Directory.writeBack, hsize, exec_bind, he]
    rfl
  · rw [hbytes q (by rw [hlen]; omega), if_pos ⟨Nat.zero_le q, by
      rw [transferred, hlen]
      simp only [EntrySize, NumDirEntries] at hmin ⊢
      omega⟩, Nat.sub_zero]

lemma exec_writeBack_directory (hfile : FileAt k.disk s)
    (hback : (hdrAt k.disk s).numBytes ≤ 128 * (dataAt k.disk s).length) (hnd : (owned k.disk s).Nodup)
    (hf : f.Current k.disk) (hfs : f.hdrSector = s) (dir : Directory) (hmin : NumDirEntries ≤ dir.table.length)
    (hmax : dir.table.length ≤ 20) :
    ∃ k', exec (dir.writeBack f) k = .ok ((), k') ∧ k'.maps = k.maps ∧
      (∀ x, x ∉ dataAt k.disk s → k'.disk x = k.disk x) ∧
      tableAt k'.disk s = dir.table.take (slotsIn (hdrAt k.disk s).numBytes) ∧
      ∀ q < min 200 (hdrAt k.disk s).numBytes.toNat, byteIn k'.disk (dataAt k.disk s) q =
      dir.toBytes.getD q 0 := by
  obtain ⟨k', he, hm, hout, hhdr, hdata, hbytes⟩ := exec_writeBack_bytes hfile hback hnd hf hfs dir hmin hmax
  refine ⟨k', he, hm, hout, ?_, hbytes⟩
  rw [← hhdr] at hbytes ⊢
  rw [← hdata] at hbytes
  exact tableAt_of_bytes hmin hbytes

end DirectoryFile

end NachosFileSys
