import NachosFileSys.Creation

namespace NachosFileSys

open Lib.Programs Lib.Bytes

lemma Storage.freeMapAt_of_write {d d' : Disk} {m : FreeMap}
    {kind : ℤ → Option Kind} (hs : Storage d m kind) {s : ℤ}
    {c : Kind} (hk : kind s = some c) (hne : s ≠ FreeMapSector) (h : ∀ x, x ∉ dataAt d s → d' x = d x) :
    freeMapAt d' = freeMapAt d := by
  have hst := hs.structure_of_write hk h hs.map
  have hback := hs.mapBacked
  rw [freeMapAt, freeMapAt, dataAt_congr hst.1 hst.2]
  congr 1
  apply bytesIn_congr
  intro q _ hq
  exact byteIn_congr (by omega) fun x hx => h x fun hx' =>
    hs.apart hs.map hk (Ne.symm hne) x (mem_owned_data hx) (mem_owned_data hx')

lemma Installed.write {fs : FileSystem} {d d' d'' : Disk} {kind : ℤ → Option Kind}
    {s i n : ℤ} {name : CString} {isDir : Byte}
    {c : Kind} (hinst : Installed d kind s name i isDir c n d')
    (hs : Grounded fs d kind) (hks : kind s = some .dir)
    (hi : kind i = none) (h : ∀ x, x ∉ dataAt d' i → d'' x = d' x) : Installed d kind s name i isDir c n d'' := by
  have hmap := hs.storage.map
  have hki : Function.update kind i (some c) i = some c := Function.update_self _ _ _
  have hne : ∀ {x c'}, kind x = some c' → x ≠ i := by
    rintro x c' hkx rfl
    rw [hi] at hkx
    cases hkx
  have hkind : ∀ {x c'}, kind x = some c' → Function.update kind i (some c) x = some c' := fun hkx => by
    rw [Function.update_of_ne (hne hkx)]
    exact hkx
  have hst : ∀ {x c'}, Function.update kind i (some c) x = some c' →
      d'' x = d' x ∧ ∀ b ∈ blocksAt d' x, d'' b = d' b :=
    fun hkx => hinst.storage.structure_of_write hki h hkx
  have hown : ∀ {x c'}, kind x = some c' → ∀ y ∈ owned d' x, d'' y = d' y := fun hkx =>
    hinst.storage.owned_of_write hki h (hne hkx) (hkind hkx)
  have htab : ∀ {x}, kind x = some .dir → tableAt d'' x = tableAt d' x := fun hkx =>
    tableAt_congr (hinst.backed hs hkx) (hown hkx)
  refine ⟨?_, (htab hks).trans hinst.table, fun hkx hx => (htab hkx).trans (hinst.others hkx hx),
    fun hkx => (hdrAt_congr (hst (hkind hkx)).1).trans (hinst.hdrs hkx),
    fun hkx => (dataAt_congr (hst (hkind hkx)).1 (hst (hkind hkx)).2).trans (hinst.datas hkx),
    fun {x} hkx y hy => ?_, fun y hy hys hy0 => ?_, ?_, ?_, ?_,
    ?_, fun hpos b hb => ?_, fun hwhole hcut => ?_, fun hfull => ?_⟩
  · rw [hinst.storage.freeMapAt_of_write hki (Ne.symm (hne hmap)) h]
    exact hinst.storage.write hki h
  · have hfile : owned d' x = owned d x := by
      rw [owned, owned, hinst.datas hkx, blocksAt, blocksAt, hinst.hdrs hkx]
    rw [hown hkx y (by rw [hfile]; exact hy), hinst.files hkx y hy]
  · rw [h y fun hy' => (marked_iff.mp hy).2 (hinst.taken.mem_free (mem_owned_data hy')), hinst.spared y hy hys hy0]
  · rw [hinst.storage.freeMapAt_of_write hki (Ne.symm (hne hmap)) h,
      ((hinst.storage.file hki).congr (hst hki).1 (hst hki).2).2]
    exact hinst.taken
  · obtain ⟨p, ds, hp⟩ := hinst.hdr
    exact ⟨p, ds, (hdrAt_congr (hst hki).1).trans hp⟩
  · rw [dataAt_congr (hst hki).1 (hst hki).2]
    exact hinst.data
  · rw [hinst.storage.freeMapAt_of_write hki (Ne.symm (hne hmap)) h]
    exact hinst.free
  · rw [hdrAt_congr (hst hki).1]
    exact hinst.block hpos b hb
  · rw [hdrAt_congr (hst (hkind hks)).1] at hcut
    rw [cutInUse_congr (hinst.backed hs hks) (hown hks) hcut]
    exact hinst.unused hwhole hcut
  · obtain ⟨old, hold⟩ := hinst.next hfull
    refine ⟨old, fun q hq hqlen => ?_⟩
    rw [← hold q hq hqlen]
    have hback := hs.backed hks
    refine byteIn_congr (by omega) fun x hx => hown hks x (mem_owned_data ?_)
    rw [hinst.datas hks]
    exact hx

lemma mem_sectors_of_head {l : List ℕ} {i : ℕ} (h : l.head? = some i) : (i : ℤ) ∈ sectors l :=
  List.mem_map.mpr ⟨i, List.mem_of_mem_head? h, rfl⟩

abbrev dot : CString := [0x2e]
abbrev dotdot : CString := [0x2e, 0x2e]

lemma Directory.exec_links {dir : Directory} (hlen : dir.table.length = NumDirEntries)
    (hnew : ∀ e ∈ dir.table, e.inUse = 0) (sector wd : ℤ) (k : Kernel) :
    ∃ old old' dir₁ dir₂, exec (dir.addDirectory dot sector) k = .ok ((true, dir₁), k) ∧
      exec (dir₁.addDirectory dotdot wd) k = .ok ((true, dir₂), k) ∧
      Loaded [DirectoryEntry.filled old dot sector 1, DirectoryEntry.filled old' dotdot wd 1] dir₂ := by
  have hl : Loaded [] dir := ⟨hlen, dir.table, rfl, hnew⟩
  obtain ⟨old, dir₁, h₁, hl₁⟩ := exec_addDirectory_next hl rfl (by decide)
    (show List.find? (named dot) [] = none from rfl) sector k
  have hfull : freeSlot ([] ++ [DirectoryEntry.filled old dot sector 1]) = none := by
    simp [freeSlot, DirectoryEntry.filled]
  have hnone : ([] ++ [DirectoryEntry.filled old dot sector 1]).find? (named dotdot) = none := by
    rw [List.nil_append, List.find?_eq_none]
    intro e he hn
    rw [List.mem_singleton] at he
    rw [he] at hn
    have hk := (named_iff.mp hn).2
    rw [DirectoryEntry.filled_key] at hk
    revert hk
    decide
  obtain ⟨old', dir₂, h₂, hl₂⟩ := exec_addDirectory_next hl₁ hfull (by simp) hnone wd k
  exact ⟨old, old', dir₁, dir₂, h₁, h₂, hl₂⟩

def Linked (d : Disk) (i s n : ℤ) : Prop :=
  ∃ (old old' : DirectoryEntry) (dir : Directory), Loaded [old.filled dot i 1, old'.filled dotdot s 1] dir ∧
    tableAt d i = dir.table.take (slotsIn n)

/-- The file of the directory at sector `i`, of length `n`, has what it has room for of the table of
a new directory in the one at sector `s`. -/
structure LinksWritten (d : Disk) (i s n : ℤ) (old old' : DirectoryEntry) (dir : Directory) : Prop where
  links : Loaded [old.filled dot i 1, old'.filled dotdot s 1] dir
  length : (hdrAt d i).numBytes = n
  backed : n ≤ 128 * (dataAt d i).length
  bytes : ∀ q < min 200 n.toNat, byteIn d (dataAt d i) q = dir.toBytes.getD q 0

namespace LinksWritten

variable {d : Disk} {i s n : ℤ} {old old' : DirectoryEntry} {dir : Directory}

lemma table (h : LinksWritten d i s n old old' dir) : tableAt d i = dir.table.take (slotsIn n) := by
  have hbytes := h.bytes
  rw [← h.length] at hbytes ⊢
  exact tableAt_of_bytes h.links.length.ge hbytes

lemma linked (h : LinksWritten d i s n old old' dir) : Linked d i s n := ⟨old, old', dir, h.links, h.table⟩

lemma cutUnused (h : LinksWritten d i s n old old' dir) (hn : Cuts n → 40 ≤ n) : CutUnused d i := by
  intro hcut
  have hbytes := h.bytes
  rw [h.length] at hcut
  have h40 := hn hcut
  have hlt := (cuts_iff n).mp hcut
  have hslots : 2 ≤ slotsIn n := by
    simp only [slotsIn, EntrySize, NumDirEntries]
    omega
  obtain ⟨junk, ht, hj⟩ := h.links.eq
  have hlen := h.links.length
  have hget : slotsIn n < dir.table.length := by
    simp only [EntrySize, NumDirEntries] at hlt hlen
    omega
  have hjunk : dir.table[slotsIn n] ∈ junk := by
    have happ : dir.table[slotsIn n]? = junk[slotsIn n - 2]? := by
      rw [ht]
      exact List.getElem?_append_right hslots
    exact List.mem_of_getElem? (happ.symm.trans (List.getElem?_eq_getElem hget))
  rw [← h.length] at hbytes hcut
  rw [cutInUse_of_bytes hcut hbytes (by rw [h.length]; exact List.getElem?_eq_getElem hget)]
  exact hj _ hjunk

end LinksWritten

lemma Names.bare_of_links {kind : ℤ → Option Kind} {sector wd : ℤ} (hs : InDisk sector) (hw : InDisk wd)
    (hks : kind sector = some .dir) (hkw : kind wd = some .dir) {old old' : DirectoryEntry} {dir : Directory}
    (hl : Loaded [DirectoryEntry.filled old dot sector 1, DirectoryEntry.filled old' dotdot wd 1] dir) (n : ℕ) :
    Names.Bare kind (dir.table.take n) := by
  obtain ⟨junk, ht, hj⟩ := hl.eq
  -- an entry in use is one of the two
  have hget : ∀ {i : ℕ} {e : DirectoryEntry}, (dir.table.take n)[i]? = some e → e.inUse ≠ 0 →
      (i = 0 ∧ e = DirectoryEntry.filled old dot sector 1) ∨
      i = 1 ∧ e = DirectoryEntry.filled old' dotdot wd 1 := by
    intro i e he hu
    rw [List.getElem?_take] at he
    split at he
    · rw [ht] at he
      match i, he with
      | 0, he =>
        cases he
        exact Or.inl ⟨rfl, rfl⟩
      | 1, he =>
        cases he
        exact Or.inr ⟨rfl, rfl⟩
      | i + 2, he => exact absurd (hj e (List.mem_of_getElem? he)) hu
    · cases he
  have hdot : ∀ {sector : ℤ} (old : DirectoryEntry), (old.filled dot sector 1).Dotted := fun old =>
    Or.inl (by rw [DirectoryEntry.filled_key]; decide)
  have hdotdot : ∀ {sector : ℤ} (old : DirectoryEntry), (old.filled dotdot sector 1).Dotted := fun old =>
    Or.inr (by rw [DirectoryEntry.filled_key]; decide)
  refine ⟨fun e he hu => ?_, fun {i i' e e'} he he' hu hu' hkey => ?_⟩
  · obtain ⟨i, hi⟩ := List.mem_iff_getElem?.mp he
    rcases hget hi hu with ⟨-, rfl⟩ | ⟨-, rfl⟩
    · exact ⟨by simp [DirectoryEntry.filled], hdot old, by rw [old.filled_sector _ _ hs]; exact hks⟩
    · exact ⟨by simp [DirectoryEntry.filled], hdotdot old', by rw [old'.filled_sector _ _ hw]; exact hkw⟩
  · rcases hget he hu with ⟨rfl, rfl⟩ | ⟨rfl, rfl⟩ <;> rcases hget he' hu' with ⟨rfl, rfl⟩ | ⟨rfl, rfl⟩
    · rfl
    · rw [DirectoryEntry.filled_key, DirectoryEntry.filled_key] at hkey
      revert hkey
      decide
    · rw [DirectoryEntry.filled_key, DirectoryEntry.filled_key] at hkey
      revert hkey
      decide
    · rfl

namespace FileSystem

def makeDirIn (fs : FileSystem) (dirFile : OpenFile) (directory : Directory) (wdSector : ℤ) (name : CString)
    (initialSize : ℤ) : Nachos Bool :=
  if directory.find name ≠ -1 then do
    dirFile.close
    pure false
  else do
    let freeMap ← fs.fetchFreeMap
    let (sector, freeMap) ← lift freeMap.findAndSet
    if sector = -1 then
      dirFile.close
      pure false
    else
      let (added, directory) ← directory.addDirectory name sector
      if !added then
        dirFile.close
        pure false
      else
        assert (directory.find name ≠ -1)
        let hdr ← FileHeader.new
        let (allocated, hdr, freeMap) ← hdr.allocate freeMap initialSize
        if !allocated then
          dirFile.close
          pure false
        else
          hdr.writeBack sector
          directory.writeBack dirFile
          freeMap.writeBack fs.freeMapFile
          let newDir ← Directory.new NumDirEntries
          let newFile ← OpenFile.new sector
          let (added, newDir) ← newDir.addDirectory dot sector
          assert added
          let (added, newDir) ← newDir.addDirectory dotdot wdSector
          assert added
          newDir.writeBack newFile
          newFile.close
          dirFile.close
          pure true

lemma makeDir_eq (fs : FileSystem) (path : CString) (initialSize wdSector : ℤ) :
    fs.makeDir path initialSize wdSector = (do
      let (wdSector, name) ← parsePath path wdSector
      if wdSector < 0 then pure false
      else
        let directory ← Directory.new NumDirEntries
        let dirFile ← OpenFile.new wdSector
        let directory ← directory.fetchFrom dirFile
        fs.makeDirIn dirFile directory wdSector name initialSize) := rfl

end FileSystem

namespace Sound

variable {fs : FileSystem} {d : Disk} {kind : ℤ → Option Kind} {s wd : ℤ} {name path : CString} {k : Kernel}

lemma exec_close_false (file : OpenFile) (hf : file.hdrSector ≠ FreeMapSector) (k : Kernel) :
    ∃ k', exec (do
        file.close
        pure false) k = .ok (false, k') ∧ k'.disk = k.disk ∧ Extends k.maps k'.maps := by
  obtain ⟨k', he, hd, hx, -⟩ := OpenFile.exec_close file hf k
  exact ⟨k', by rw [exec_bind_of_ok he, exec_pure], hd, hx⟩

lemma exec_makeDirIn (hs : Sound fs d kind) (hd : k.disk = d) {dir : Directory} (hl : Loaded (tableAt d s) dir)
    (hnone : lookupIn d s name = none) {i : ℕ} {rest : List ℕ}
    (hi : (freeMapAt d).free = i :: rest) (file : OpenFile)
    (n : ℤ) :
    ∃ m₁ dir' p k', m₁.free = rest ∧ Inserted (tableAt d s) name i 1 dir' ∧ int32 p = p ∧ k'.disk = d ∧
      k'.maps = k.maps ∧
      exec (fs.makeDirIn file dir s name n) k =
        exec (do
          let (allocated, hdr, freeMap) ← (FileHeader.fresh p).allocate m₁ n
          if !allocated then
            file.close
            pure false
          else
            hdr.writeBack i
            dir'.writeBack file
            freeMap.writeBack fs.freeMapFile
            let newDir ← Directory.new NumDirEntries
            let newFile ← OpenFile.new i
            let (added, newDir) ← newDir.addDirectory dot i
            assert added
            let (added, newDir) ← newDir.addDirectory dotdot s
            assert added
            newDir.writeBack newFile
            newFile.close
            file.close
            pure true) k' := by
  subst hd
  obtain ⟨m₁, hm₁, hf₁, -⟩ := Bitmap.findAndSet_cons _ hi
  obtain ⟨dir', k₁, h₁, hd₁, hmap₁, hins⟩ := Directory.exec_addDirectory hl hnone i k
  obtain ⟨p, k₂, h₂, hp, hd₂, hmap₂⟩ := FileHeader.exec_new k₁
  refine ⟨m₁, dir', p, k₂, hf₁, hins, hp, hd₂.trans hd₁, hmap₂.trans hmap₁, ?_⟩
  have hne : ¬((i : ℤ) = -1) := by omega
  have hin : InDisk i := inDisk_of_free (m := freeMapAt k.disk) (by rw [hi]; simp)
  have hassert : exec (assert (dir'.find name ≠ -1)) k₁ = .ok ((), k₁) := by
    rw [exec_assert, if_pos (by simpa using hins.find hnone hin)]
  rw [FileSystem.makeDirIn, if_neg (not_not.mpr (find_none hl hnone)),
    exec_bind_of_ok (exec_fetchFreeMap hs.storage hs.mapFile hs.mapSector),
    hm₁, exec_bind_of_ok (exec_lift_ok _ _)]
  dsimp only
  rw [if_neg hne, exec_bind_of_ok h₁]
  dsimp only
  rw [if_neg (by simp), exec_bind_of_ok hassert, exec_bind_of_ok h₂]

lemma exec_makeDir_none (hs : Sound fs d kind) (hwd : kind wd = some .dir) (hd : k.disk = d)
    (hr : resolve d (components path) wd = none) (n : ℤ) :
    ∃ k', exec (fs.makeDir path n wd) k = .ok (false, k') ∧ k'.disk = d ∧ Extends k.maps k'.maps := by
  obtain ⟨k', hd', hx, he⟩ := hs.exec_enter_none hwd hd hr false fun wdSector name => do
    let directory ← Directory.new NumDirEntries
    let dirFile ← OpenFile.new wdSector
    let directory ← directory.fetchFrom dirFile
    fs.makeDirIn dirFile directory wdSector name n
  exact ⟨k', he, hd', hx⟩

lemma exec_makeDir_present (hs : Sound fs d kind) (hwd : kind wd = some .dir) (hd : k.disk = d)
    (hr : resolve d (components path) wd = some (s, name)) {e : DirectoryEntry} (he : lookupIn d s name = some e)
    (n : ℤ) : ∃ k', exec (fs.makeDir path n wd) k = .ok (false, k') ∧ k'.disk = d ∧ Extends k.maps k'.maps := by
  have hks := hs.kind_of_resolve _ hwd hr
  obtain ⟨dir, k₁, hd₁, hx₁, -, hl, hstart⟩ :=
    hs.exec_enter hwd hd hr fun f dir wd name => fs.makeDirIn f dir wd name n
  obtain ⟨k', hc, hd', hx'⟩ := exec_close_false ⟨hdrAt d s, 0, s⟩ (hs.dir_ne_map hks) k₁
  refine ⟨k', ?_, hd'.trans hd₁, hx₁.trans hx'⟩
  rw [FileSystem.makeDir_eq, hstart, FileSystem.makeDirIn, if_pos (hs.find_ne hks hl he), hc]

lemma exec_makeDir_refused (hs : Sound fs d kind) (hwd : kind wd = some .dir) (hd : k.disk = d)
    (hr : resolve d (components path) wd = some (s, name)) (hnone : lookupIn d s name = none) {n : ℤ}
    (hfew : (freeMapAt d).free.length ≤ sectorsNeeded n) :
    ∃ k', exec (fs.makeDir path n wd) k = .ok (false, k') ∧ k'.disk = d ∧ Extends k.maps k'.maps := by
  have hks := hs.kind_of_resolve _ hwd hr
  obtain ⟨dir, k₁, hd₁, hx₁, -, hl, hstart⟩ :=
    hs.exec_enter hwd hd hr fun f dir wd name => fs.makeDirIn f dir wd name n
  rw [FileSystem.makeDir_eq, hstart]
  cases hi : (freeMapAt d).free with
  | nil =>
    obtain ⟨k', hc, hd', hx'⟩ := exec_close_false ⟨hdrAt d s, 0, s⟩ (hs.dir_ne_map hks) k₁
    refine ⟨k', ?_, hd'.trans hd₁, hx₁.trans hx'⟩
    subst hd₁
    rw [FileSystem.makeDirIn, if_neg (not_not.mpr (find_none hl hnone)),
      exec_bind_of_ok (exec_fetchFreeMap hs.storage hs.mapFile hs.mapSector), Bitmap.findAndSet_full _ hi,
      exec_bind_of_ok (exec_lift_ok _ _)]
    dsimp only
    rw [if_pos rfl, hc]
  | cons i rest =>
    obtain ⟨m₁, dir', p, k₂, hf₁, -, -, hd₂, hm₂, he⟩ := hs.exec_makeDirIn hd₁ hl hnone hi ⟨hdrAt d s, 0, s⟩ n
    obtain ⟨k', hc, hd', hx'⟩ := exec_close_false ⟨hdrAt d s, 0, s⟩ (hs.dir_ne_map hks) k₂
    refine ⟨k', ?_, hd'.trans hd₂, hx₁.trans (hm₂ ▸ hx')⟩
    rw [hi, List.length_cons] at hfew
    rw [he, exec_bind_of_ok (FileHeader.allocate_refuse _ _ _ _ (by rw [hf₁]; omega))]
    dsimp only
    rw [if_pos (by simp), hc]

lemma exec_makeDir_aborts (hs : Sound fs d kind) (hwd : kind wd = some .dir) (hd : k.disk = d)
    (hr : resolve d (components path) wd = some (s, name)) (hnone : lookupIn d s name = none) {n : ℤ}
    (hlt : sectorsNeeded n < (freeMapAt d).free.length)
    (hfail : ¬(sectorsNeeded n ≤ 928 ∧
      sectorsNeeded n + newBlocks 0 (sectorsNeeded n) < (freeMapAt d).free.length)) :
    exec (fs.makeDir path n wd) k = .error .assertion := by
  obtain ⟨dir, k₁, hd₁, hx₁, -, hl, hstart⟩ :=
    hs.exec_enter hwd hd hr fun f dir wd name => fs.makeDirIn f dir wd name n
  rw [FileSystem.makeDir_eq, hstart]
  obtain ⟨i, rest, hi⟩ : ∃ i rest, (freeMapAt d).free = i :: rest := List.exists_cons_of_length_pos (by omega)
  obtain ⟨m₁, dir', p, k₂, hf₁, -, -, hd₂, -, he⟩ := hs.exec_makeDirIn hd₁ hl hnone hi ⟨hdrAt d s, 0, s⟩ n
  rw [hi, List.length_cons] at hfail hlt
  rw [he, exec_bind, FileHeader.allocate_abort (FileHeader.fresh_on p k₂.disk) List.nodup_nil n
    (sectorsNeeded_pos hlt hfail) (by rw [hf₁]; omega) (by rw [hf₁, List.length_nil]; omega)]

lemma exec_makeDir_written (hs : Sound fs d kind) (hwd : kind wd = some .dir) (hd : k.disk = d)
    (hr : resolve d (components path) wd = some (s, name)) (hnone : lookupIn d s name = none) {n : ℤ}
    (hn : int32 n = n) (hcap : sectorsNeeded n ≤ 928)
    (hlt : sectorsNeeded n + newBlocks 0 (sectorsNeeded n) < (freeMapAt d).free.length) :
    ∃ (i : ℕ) (k' : Kernel) (old old' : DirectoryEntry) (new : Directory), (freeMapAt d).free.head? = some i ∧
      exec (fs.makeDir path n wd) k = .ok (true, k') ∧ Extends k.maps k'.maps ∧
      Installed d kind s name i 1 .dir n k'.disk ∧ LinksWritten k'.disk i s n old old' new := by
  have hks := hs.kind_of_resolve _ hwd hr
  obtain ⟨dir, k₁, hd₁, hx₁, -, hl, hstart⟩ :=
    hs.exec_enter hwd hd hr fun f dir wd name => fs.makeDirIn f dir wd name n
  rw [FileSystem.makeDir_eq, hstart]
  obtain ⟨i, rest, hi⟩ : ∃ i rest, (freeMapAt d).free = i :: rest := List.exists_cons_of_length_pos (by omega)
  obtain ⟨m₁, dir', p, k₂, hf₁, hins, hp, hd₂, hm₂, he⟩ := hs.exec_makeDirIn hd₁ hl hnone hi ⟨hdrAt d s, 0, s⟩ n
  rw [hi, List.length_cons] at hlt
  have hmem : (i : ℤ) ∈ sectors (freeMapAt d).free := by rw [hi]; simp
  have hfresh : kind i = none := hs.storage.kind_of_free hmem
  have hki : Function.update kind (i : ℤ) (some Kind.dir) i = some .dir := Function.update_self _ _ _
  rw [← hf₁] at hi
  obtain ⟨hdr, m₂, k₃, k₄, k₅, k₆, h₃, h₄, h₅, h₆, hm, hinst⟩ := hs.exec_install hks hd₂ hi hp hcap
    (by rw [hf₁]; omega) hins .dir
  -- the new directory file
  have hlen : (hdrAt k₆.disk i).numBytes = n := by
    obtain ⟨p, ds, hh⟩ := hinst.hdr
    rw [hh, FileHeader.fresh_grown_numBytes hn]
  have hfile := hinst.storage.file hki
  have hback : (hdrAt k₆.disk i).numBytes ≤ 128 * (dataAt k₆.disk i).length := by
    rw [hlen, hinst.data]
    exact le_sectorsNeeded n
  obtain ⟨new, k₇, h₇, hd₇, hm₇, hnl, hnu⟩ := Directory.exec_new k₆
  have hi0 : (i : ℤ) ≠ FreeMapSector := by
    intro h0
    rw [h0, hs.storage.map] at hfresh
    cases hfresh
  obtain ⟨k₈, h₈, hd₈, hx₈, -⟩ := OpenFile.exec_new hfile.inDisk k₇
  rw [hd₇] at h₈ hd₈
  obtain ⟨old, old', new₁, new₂, h₉, h₁₀, hlinks⟩ := Directory.exec_links hnl hnu i s k₈
  have hlen₂ : new₂.table.length = NumDirEntries := hlinks.length
  have hcur : (OpenFile.mk (hdrAt k₆.disk i) 0 i).Current k₈.disk := by
    rw [hd₈]
    rfl
  obtain ⟨k₉, h₁₁, hm₉, hout, hhdr, hdata, hbytes⟩ := exec_writeBack_bytes (by rw [hd₈]; exact hfile)
    (by rw [hd₈]; exact hback) (by rw [hd₈]; exact hinst.storage.nodup hki) hcur rfl new₂ hlen₂.ge
    (by rw [hlen₂]; decide)
  dsimp only at hout hhdr hdata hbytes
  rw [hd₈] at hout hhdr hdata hbytes
  rw [hlen] at hback hbytes
  have hinst' : Installed d kind s name i 1 .dir n k₉.disk := hinst.write hs.toGrounded hks hfresh hout
  obtain ⟨k₁₀, h₁₂, hd₁₀, hx₁₀, -⟩ := OpenFile.exec_close ⟨hdrAt k₆.disk i, 0, i⟩ hi0 k₉
  obtain ⟨k', h₁₃, hd', hx', -⟩ := OpenFile.exec_close ⟨hdrAt d s, 0, s⟩ (hs.dir_ne_map hks) k₁₀
  have hdisk : k'.disk = k₉.disk := hd'.trans hd₁₀
  rw [← hdisk] at hinst' hhdr hdata hbytes
  refine ⟨i, k', old, old', new₂, by rw [hi, List.head?_cons], ?_, ?_, hinst',
    hlinks, by rw [hhdr, hlen], ?_, ?_⟩
  · rw [he]
    simp only [exec_bind, h₃, Bool.not_true, Bool.false_eq_true,
      if_false, h₄, h₅, h₆, h₇, h₈, h₉, h₁₀, h₁₁, h₁₂, h₁₃,
      exec_assert, if_true, exec_pure]
  · refine hx₁.trans (Extends.trans ?_ (hx₁₀.trans hx'))
    rw [hm₉, ← hm₂, ← hm, ← hm₇]
    exact hx₈ hi0
  · rw [hdata]
    exact hback
  · rw [hdata]
    exact hbytes

lemma exec_makeDir_succeeds (hs : Sound fs d kind) (hwd : kind wd = some .dir) (hd : k.disk = d)
    (hr : resolve d (components path) wd = some (s, name)) (hnone : lookupIn d s name = none) {n : ℤ}
    (hn : int32 n = n) (hcap : sectorsNeeded n ≤ 928)
    (hlt : sectorsNeeded n + newBlocks 0 (sectorsNeeded n) < (freeMapAt d).free.length) :
    ∃ (i : ℕ) (k' : Kernel) (old old' : DirectoryEntry) (new : Directory), (freeMapAt d).free.head? = some i ∧
      exec (fs.makeDir path n wd) k = .ok (true, k') ∧ Extends k.maps k'.maps ∧
      Installed d kind s name i 1 .dir n k'.disk ∧ LinksWritten k'.disk i s n old old' new ∧
      Grounded fs k'.disk (Function.update kind i (some .dir)) ∧
      ((Cuts n → 40 ≤ n) → NextWhole d s → Sound fs k'.disk (Function.update kind i (some .dir))) := by
  obtain ⟨i, k', old, old', new, hi, he, hx, hinst, hlinks⟩ := hs.exec_makeDir_written hwd hd hr hnone hn hcap hlt
  have hks := hs.kind_of_resolve _ hwd hr
  have hmem := mem_sectors_of_head hi
  have hki : Function.update kind (i : ℤ) (some Kind.dir) i = some .dir := Function.update_self _ _ _
  have hksi : Function.update kind (i : ℤ) (some Kind.dir) s = some .dir := by
    rw [Function.update_of_ne]
    · exact hks
    · rintro rfl
      rw [hs.storage.kind_of_free hmem] at hks
      cases hks
  have hfile := hinst.storage.file hki
  have hg : Grounded fs k'.disk (Function.update kind (i : ℤ) (some .dir)) := by
    refine hs.grounded_of_installed hks hnone hmem hinst rfl (fun _ => ?_) fun _ => ?_
    · rw [hlinks.table]
      exact Names.bare_of_links hfile.inDisk (hs.inDisk hks) hki hksi hlinks.links _
    · rw [hlinks.length]
      exact hlinks.backed
  exact ⟨i, k', old, old', new, hi, he, hx, hinst, hlinks, hg, fun h40 hwhole =>
    hs.sound_of_installed hks hinst hwhole hg fun _ => hlinks.cutUnused h40⟩

end Sound

end NachosFileSys
