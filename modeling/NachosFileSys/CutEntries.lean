import NachosFileSys.Navigation

/-! A directory whose file ends inside an entry. `FetchFrom` leaves the rest of that entry as it is
in memory, which is what the heap held when the table was allocated. -/

namespace NachosFileSys

open Lib.Programs Lib.Bytes Lib.Runs

def Kernel.Filled (c : Byte) (k : Kernel) : Prop := ∀ i, k.heap i = c

lemma Kernel.Filled.of_handle {c : Byte} {k k' : Kernel} {r : Request} {a : r.Reply} (hk : k.Filled c)
    (h : Kernel.handle r k = .ok (a, k')) : k'.Filled c := by
  cases r with
  | readSector s =>
    rw [Kernel.handle] at h
    split at h <;> cases h
    exact hk
  | writeSector s data =>
    rw [Kernel.handle] at h
    split at h <;> cases h
    exact hk
  | malloc n =>
    cases h
    exact fun i => hk (i + n)
  | find m key =>
    cases h
    exact hk
  | assign m key value =>
    cases h
    exact hk
  | p m key =>
    rw [Kernel.handle] at h
    split at h
    · cases h
    · split at h <;> cases h
      exact hk
  | v m key =>
    rw [Kernel.handle] at h
    split at h <;> cases h
    exact hk
  | stop f => cases h

lemma Kernel.Filled.of_exec {α : Type} {c : Byte} (p : Nachos α) : ∀ {k k' : Kernel} {a : α}, k.Filled c →
    exec p k = .ok (a, k') → k'.Filled c := by
  induction p with
  | pure a =>
    intro k k' b hk h
    cases h
    exact hk
  | request r next ih =>
    intro k k' b hk h
    rw [exec, Prog.run_request] at h
    split at h
    · rename_i a k₁ hr
      exact ih a (hk.of_handle hr) h
    · cases h

structure Directory.Blank (c : Byte) (dir : Directory) : Prop where
  length : dir.table.length = NumDirEntries
  entries : ∀ e ∈ dir.table, e.inUse = 0 ∧ e.name = Vector.replicate 10 c

lemma Directory.exec_new_filled {c : Byte} {k : Kernel} (hk : k.Filled c) :
    ∃ dir k', exec (new NumDirEntries) k = .ok (dir, k') ∧ k'.disk = k.disk ∧ k'.Filled c ∧ dir.Blank c := by
  have he : exec (new NumDirEntries) k = .ok (⟨(ofBytes NumDirEntries
      ((List.range (EntrySize * NumDirEntries)).map k.heap)).table.map fun e => { e with inUse := 0 }⟩,
        { k with heap := fun i => k.heap (i + EntrySize * NumDirEntries) }) := by
    rw [new, exec_bind, exec_malloc]
    rfl
  refine ⟨_, _, he, rfl, fun i => hk _, ?_, ?_⟩
  · rw [List.length_map, ofBytes, List.length_map, List.length_range]
  · intro e he
    obtain ⟨e', he', rfl⟩ := List.mem_map.mp he
    obtain ⟨i, hi, rfl⟩ := List.mem_map.mp he'
    refine ⟨rfl, ?_⟩
    apply Vector.ext
    intro j hj
    have hi := List.mem_range.mp hi
    simp only [EntrySize, NumDirEntries] at hi ⊢
    rw [Vector.getElem_replicate, DirectoryEntry.ofBytes, Vector.getElem_ofFn,
      getD_drop, List.getD_eq_getElem?_getD,
      List.getElem?_map, List.getElem?_range (by omega), Option.map_some, Option.getD_some, hk]

/-- The file of the directory at sector `i` ends after the `sector` field of its first entry, the one for `.`. -/
structure CutDirectory (d : Disk) (i : ℤ) : Prop where
  file : FileAt d i
  notMap : i ≠ FreeMapSector
  length : (hdrAt d i).numBytes = 8
  backed : 8 ≤ 128 * (dataAt d i).length
  bytes : ∃ old : DirectoryEntry, ∀ q < 8, byteIn d (dataAt d i) q = (old.filled dot i 1).toBytes.getD q 0

lemma CutDirectory.exec_fetchFrom {d : Disk} {i : ℤ} (h : CutDirectory d i)
    {c : Byte} {k : Kernel} (hd : k.disk = d)
    {dir : Directory} (hdir : dir.Blank c) :
    ∃ e rest, exec (dir.fetchFrom ⟨hdrAt d i, 0, i⟩) k = .ok (⟨e :: rest⟩, k) ∧ e.inUse = 1 ∧ e.isDir = 1 ∧
      e.sector.toInt = i ∧ e.name = Vector.replicate 10 c ∧ ∀ e' ∈ rest, e'.inUse = 0 := by
  subst hd
  obtain ⟨old, hold⟩ := h.bytes
  have hcur : (OpenFile.mk (hdrAt k.disk i) 0 i).Current k.disk := rfl
  have hback := h.backed
  obtain ⟨bytes, he, hbytes⟩ := exec_fetchFrom_bytes h.file (by rw [h.length]; omega) hcur rfl dir hdir.length
  rw [h.length] at hbytes
  have hlen := hdir.length
  -- the first eight bytes are those on disk, the others those in memory
  have hdisk : ∀ q < 8, bytes.getD q 0 = (old.filled dot i 1).toBytes.getD q 0 := fun q hq => by
    rw [hbytes, if_pos (lt_of_lt_of_eq hq (by decide)), hold q hq]
  have hheap : ∀ q, 8 ≤ q → bytes.getD q 0 = dir.toBytes.getD q 0 := fun q hq => by
    rw [hbytes, if_neg (not_lt.mpr (le_trans (le_of_eq (by decide)) hq))]
  have hfilled := (old.filled dot i 1).ofBytes_toBytes
  refine ⟨DirectoryEntry.ofBytes bytes,
    (List.range 9).map fun j => DirectoryEntry.ofBytes (bytes.drop (EntrySize * (j + 1))), ?_, ?_, ?_, ?_, ?_, ?_⟩
  · rw [he]
    rfl
  · exact (hdisk 1 (by decide)).trans (congrArg DirectoryEntry.inUse hfilled)
  · exact (hdisk 0 (by decide)).trans (congrArg DirectoryEntry.isDir hfilled)
  · have hsector : (DirectoryEntry.ofBytes bytes).sector = (old.filled dot i 1).sector := by
      rw [← congrArg DirectoryEntry.sector hfilled]
      simp only [DirectoryEntry.ofBytes, wordOf]
      rw [hdisk (4 + 0) (by decide), hdisk (4 + 1) (by decide),
          hdisk (4 + 2) (by decide), hdisk (4 + 3) (by decide)]
    rw [hsector, old.filled_sector dot 1 h.file.inDisk]
  · have hzero : 0 < dir.table.length := by rw [hlen]; decide
    rw [← (hdir.entries _ (List.getElem_mem hzero)).2,
      ← congrArg DirectoryEntry.name (DirectoryEntry.ofBytes_toBytes dir.table[0])]
    simp only [DirectoryEntry.ofBytes]
    congr 1
    funext j
    rw [hheap _ (Nat.le_add_right 8 _), ← Directory.getD_toBytes dir.table 0 _ hzero
        (by simp only [EntrySize]; omega)]
    congr 1
    omega
  · intro e' he'
    obtain ⟨j, hj, rfl⟩ := List.mem_map.mp he'
    have hj := List.mem_range.mp hj
    have hlt : j + 1 < dir.table.length := by rw [hlen]; simp only [NumDirEntries]; omega
    rw [← (hdir.entries _ (List.getElem_mem hlt)).1,
      ← congrArg DirectoryEntry.inUse (DirectoryEntry.ofBytes_toBytes dir.table[j + 1])]
    change (bytes.drop (EntrySize * (j + 1))).getD 1 0 = _
    rw [getD_drop, hheap _ (by simp only [EntrySize]; omega),
        Directory.getD_toBytes dir.table (j + 1) 1 hlt (by decide)]
    rfl

lemma System.boot_cut :
    ∃ (sys₀ sys : System) (i : ℤ) (e : DirectoryEntry), System.boot Kernel.blank = .ok sys₀ ∧
      System.step (.makeDir 0 bin 8) sys₀ = .ok sys ∧ (∀ t, sys.wd t = DirectorySector) ∧
      DirAt sys.kernel.disk DirectorySector ∧ lookupIn sys.kernel.disk DirectorySector bin = some e ∧
      e.sector.toInt = i ∧ e.isDir = 1 ∧
      (∀ e' ∈ tableAt sys.kernel.disk DirectorySector, e'.inUse ≠ 0 → e' = e) ∧
      CutDirectory sys.kernel.disk i := by
  obtain ⟨sys, hb, hf, hst, hwd, -⟩ := System.boot_spec Kernel.blank
  have hs := hst.sound
  have hfree := hf.free
  have hres : resolve sys.kernel.disk (components bin) (sys.wd 0) = some (DirectorySector, bin) := by
    rw [hwd]
    rfl
  have hneed : sectorsNeeded 8 = 1 := by decide
  have hblocks : newBlocks 0 1 = 1 := rfl
  obtain ⟨i, k, old, old', new, hi, he, -, hinst, hlinks⟩ :=
    hs.exec_makeDir_written (hst.wd 0) rfl hres (hf.lookupIn_root bin) (n := 8) (by decide) (by rw [hneed]; omega)
      (by rw [hneed, hblocks]; omega)
  have hin := inDisk_of_free (mem_sectors_of_head hi)
  have hroom := freeSlot_of_unused (by rw [hf.slots]; decide) hf.unused
  obtain ⟨j, hj⟩ := Option.ne_none_iff_exists'.mp hroom
  obtain ⟨old₀, hold, -⟩ := freeSlot_spec hj
  obtain ⟨e, hlook, hsec, hdir⟩ := hinst.lookupIn_eq hin (hf.lookupIn_root bin) hroom
  have honly : ∀ e' ∈ tableAt k.disk DirectorySector, e'.inUse ≠ 0 → e' = old₀.filled bin i 1 := by
    intro e' he' hu
    rw [hinst.table, withEntry, hj] at he'
    dsimp only at he'
    rw [modify_eq_set_of_getElem? hold] at he'
    rcases List.mem_or_eq_of_mem_set he' with he' | rfl
    · exact absurd (hf.unused e' he') hu
    · rfl
  obtain ⟨junk, htable, -⟩ := hlinks.links.eq
  have hne : (i : ℤ) ≠ FreeMapSector := by
    intro h0
    have hfresh := hs.storage.kind_of_free (mem_sectors_of_head hi)
    rw [h0, hs.storage.map] at hfresh
    cases hfresh
  have hroot : DirAt k.disk DirectorySector := by
    refine ⟨hinst.storage.file (c := .dir) ?_, hinst.backed hs.toGrounded hs.names.root,
      hinst.cutUnused hs.toGrounded hs.names.root hs.names.root (fun _ => hf.nextWhole) (hs.unused hs.names.root)⟩
    rw [Function.update_of_ne]
    · exact hs.names.root
    · intro h0
      have hfresh := hs.storage.kind_of_free (mem_sectors_of_head hi)
      rw [← h0, hs.names.root] at hfresh
      cases hfresh
  refine ⟨sys, { sys with kernel := k }, i, e, hb, ?_, hwd, hroot, hlook, hsec, hdir, ?_,
    hinst.storage.file (Function.update_self _ _ _), hne, hlinks.length, by exact_mod_cast hlinks.backed, old,
    fun q hq => ?_⟩
  · rw [System.step, he]
    rfl
  · have hmem := Sound.lookupIn_spec hlook
    rw [honly e hmem.1 hmem.2.1]
    exact honly
  · rw [hlinks.bytes q (lt_of_lt_of_eq hq (by decide))]
    have hget :=
      Directory.getD_toBytes new.table 0 q (by rw [hlinks.links.length]; decide) (by simp only [EntrySize]; omega)
    have hfirst : new.table[0]? = some (old.filled dot i 1) := by
      rw [htable]
      rfl
    rw [Nat.mul_zero, Nat.zero_add, (List.getElem?_eq_some_iff.mp hfirst).2] at hget
    exact hget

end NachosFileSys
