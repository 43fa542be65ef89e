import NachosFileSys.Findability

namespace NachosFileSys

open Lib.Programs Lib.Bytes

lemma strncmpEq_iff_getD (n : ℕ) : ∀ s t : List Byte, strncmpEq s t n = true ↔
    ∀ q < min n ((chars t).length + 1), s.getD q 0 = (chars t).getD q 0 := by
  induction n with
  | zero => intro s t; simp [strncmpEq]
  | succ n ih =>
    intro s t
    have hhead : s.getD 0 0 = s.headD 0 := by cases s <;> rfl
    have htail : ∀ q, s.getD (q + 1) 0 = s.tail.getD q 0 := by cases s <;> simp
    rw [strncmpEq, chars_eq t]
    by_cases ht : t.headD 0 = 0
    · rw [if_pos ht, ht, List.length_nil, Nat.zero_add, Nat.min_eq_right (Nat.succ_pos n)]
      have hone : (∀ q < 1, s.getD q 0 = ([] : List Byte).getD q 0) ↔ s.headD 0 = 0 := by
        rw [← hhead]
        exact ⟨fun h => h 0 Nat.one_pos, fun h q hq => by rwa [Nat.lt_one_iff.mp hq]⟩
      rw [hone]
      by_cases hs : s.headD 0 = 0
      · rw [if_neg (not_not.mpr hs), if_pos hs]
        exact iff_of_true rfl hs
      · rw [if_pos hs]
        exact iff_of_false Bool.false_ne_true hs
    · rw [if_neg ht, List.length_cons, Nat.add_min_add_right, Nat.forall_lt_succ_left, hhead, List.getD_cons_zero]
      by_cases hst : s.headD 0 = t.headD 0
      · rw [if_neg (not_not.mpr hst), hst, if_neg ht, ih]
        simp only [htail, List.getD_cons_succ, true_and]
      · rw [if_pos hst]
        exact iff_of_false Bool.false_ne_true fun h => hst h.1

lemma key_eq_iff (s : List Byte) (name : CString) : key s = key name ↔
    ∀ q < min FileNameMaxLen ((chars name).length + 1), s.getD q 0 = (chars name).getD q 0 := by
  rw [key, key, ← strncmpEq_iff, strncmpEq_iff_getD]

namespace DirectoryEntry

lemma toBytes_sector (e : DirectoryEntry) {c : ℕ} (hc : c < 4) : e.toBytes.getD (4 + c) 0 = byteOf e.sector c := by
  conv_rhs => rw [← ofBytes_toBytes e]
  rw [ofBytes, byteOf_wordOf _ c hc]

lemma toBytes_name (e : DirectoryEntry) {q : ℕ} (hq : q < 10) :
    e.toBytes.getD (8 + q) 0 = e.name.toList.getD q 0 := by
  conv_rhs => rw [← ofBytes_toBytes e]
  simp [ofBytes, hq]

lemma ofBytes_readable (b : List Byte) (inUse : Byte) {q : ℕ} (hq : 4 ≤ q) (hlt : q < 17) :
    ({ ofBytes b with inUse := inUse } : DirectoryEntry).toBytes.getD q 0 = b.getD q 0 := by
  by_cases h8 : q < 8
  · obtain ⟨c, rfl⟩ := Nat.exists_eq_add_of_le hq
    rw [toBytes_sector _ (by omega), ofBytes, byteOf_wordOf _ _ (by omega)]
  · obtain ⟨c, rfl⟩ := Nat.exists_eq_add_of_le (not_lt.mp h8)
    rw [toBytes_name _ (by omega)]
    simp [ofBytes, show c < 10 by omega]

def expected (sector : ℤ) (name : CString) (q : ℕ) : Byte :=
  if q < 8 then byteOf (BitVec.ofInt 32 sector) (q - 4) else (chars name).getD (q - 8) 0

lemma filled_toBytes (old : DirectoryEntry) (name : CString) (sector : ℤ) (isDir : Byte) {q : ℕ} (hq : 4 ≤ q)
    (hlt : q < 17) : (old.filled name sector isDir).toBytes.getD q 0 = expected sector name q := by
  rw [expected]
  split
  · obtain ⟨c, rfl⟩ := Nat.exists_eq_add_of_le hq
    rw [toBytes_sector _ (by omega), Nat.add_sub_cancel_left]
    rfl
  · obtain ⟨c, rfl⟩ := Nat.exists_eq_add_of_le (not_lt.mp ‹¬q < 8›)
    rw [toBytes_name _ (by omega), Nat.add_sub_cancel_left]
    have hc : c < FileNameMaxLen := by
      simp only [FileNameMaxLen]
      omega
    simp [filled, strncpy, hc, show c < 10 by omega]

lemma expected_iff (c : DirectoryEntry) {sector : ℤ} (hs : InDisk sector) (name : CString) :
    c.sector.toInt = sector ∧ key c.name.toList = key name ↔
      ∀ q, 4 ≤ q → q < 8 + min FileNameMaxLen ((chars name).length + 1) →
      c.toBytes.getD q 0 = expected sector name q := by
  have hsec : c.sector.toInt = sector ↔ c.sector = BitVec.ofInt 32 sector := by
    constructor
    · rintro rfl
      exact (BitVec.ofInt_toInt).symm
    · intro h
      rw [h]
      have h1 := hs.1
      have h2 := hs.2
      simp only [NumSectors] at h2
      exact int32_of_bounds (by omega) (by omega)
  rw [hsec, key_eq_iff]
  constructor
  · rintro ⟨h₁, h₂⟩ q hq hlt
    rw [expected]
    split
    · obtain ⟨b, rfl⟩ := Nat.exists_eq_add_of_le hq
      rw [c.toBytes_sector (by omega), h₁, Nat.add_sub_cancel_left]
    · obtain ⟨b, rfl⟩ := Nat.exists_eq_add_of_le (not_lt.mp ‹¬q < 8›)
      rw [c.toBytes_name (by simp only [FileNameMaxLen] at hlt; omega), Nat.add_sub_cancel_left]
      exact h₂ b (by omega)
  · intro h
    constructor
    · have hbyte : ∀ b < 4, byteOf c.sector b = byteOf (BitVec.ofInt 32 sector) b := fun b hb => by
        have hb' := h (4 + b) (by omega) (by omega)
        rwa [c.toBytes_sector hb, expected, if_pos (by omega), Nat.add_sub_cancel_left] at hb'
      rw [← wordOf_byteOf c.sector, ← wordOf_byteOf (BitVec.ofInt 32 sector)]
      simp only [wordOf, hbyte 0 (by decide), hbyte 1 (by decide), hbyte 2 (by decide), hbyte 3 (by decide)]
    · intro q hq
      have hq' := h (8 + q) (by omega) (by omega)
      rwa [c.toBytes_name (by simp only [FileNameMaxLen] at hq; omega), expected, if_neg (by omega),
        Nat.add_sub_cancel_left] at hq'

end DirectoryEntry

/-- The file of the directory at sector `s` holds, of the entry that it cuts, the bytes of one for `name`. -/
def CutHolds (d : Disk) (s : ℤ) (name : CString) (sector : ℤ) (isDir : Byte) : Prop :=
  ∃ old : DirectoryEntry, ∀ q < EntrySize,
    EntrySize * slotsIn (hdrAt d s).numBytes + q < min 200 (hdrAt d s).numBytes.toNat →
    byteIn d (dataAt d s) (EntrySize * slotsIn (hdrAt d s).numBytes + q) =
    (old.filled name sector isDir).toBytes.getD q 0

/-- What a lookup reads of the entry for `name` at `sector` and a directory file of `len` bytes does not hold is in
the memory in which the table is allocated. -/
def Completed (heap : ℕ → Byte) (len : ℤ) (sector : ℤ) (name : CString) : Prop :=
  ∀ q, 4 ≤ q → q < 8 + min FileNameMaxLen ((chars name).length + 1) → len ≤ (EntrySize * slotsIn len + q : ℕ) →
    heap (EntrySize * slotsIn len + q) = DirectoryEntry.expected sector name q

structure CutLoaded (d : Disk) (s : ℤ) (heap : ℕ → Byte) (name : CString) (sector : ℤ) (isDir : Byte)
    (cut : DirectoryEntry) (junk : List DirectoryEntry) : Prop where
  inUse : cut.inUse = 1
  isDir : cut.isDir = isDir
  junk : ∀ e ∈ junk, e.inUse = 0
  named : cut.sector.toInt = sector ∧ key cut.name.toList = key name ↔
      Completed heap (hdrAt d s).numBytes sector name

lemma Directory.new_bytes {k k₁ : Kernel} {dir : Directory} (he : exec (new NumDirEntries) k = .ok (dir, k₁))
    {i q : ℕ}
    (hi : i < NumDirEntries) (hq : 4 ≤ q) (hlt : q < 17) :
    dir.toBytes.getD (EntrySize * i + q) 0 = k.heap (EntrySize * i + q) := by
  have hnew : exec (new NumDirEntries) k = .ok (⟨(ofBytes NumDirEntries
      ((List.range (EntrySize * NumDirEntries)).map k.heap)).table.map fun e => { e with inUse := 0 }⟩,
        { k with heap := fun i => k.heap (i + EntrySize * NumDirEntries) }) := by
    rw [new, exec_bind, exec_malloc]
    rfl
  rw [hnew] at he
  cases he
  rw [getD_toBytes _ i q (by simpa [ofBytes] using hi) (by simp only [EntrySize]; omega), List.getElem_map]
  simp only [ofBytes, List.getElem_map, List.getElem_range]
  rw [DirectoryEntry.ofBytes_readable _ _ hq hlt, getD_drop, List.getD_eq_getElem?_getD, List.getElem?_map,
    List.getElem?_range (by simp only [EntrySize, NumDirEntries] at hi ⊢; omega)]
  rfl

lemma CutLoaded.entryNamed_eq {d : Disk} {s sector : ℤ} {heap : ℕ → Byte} {name : CString} {isDir : Byte}
    {cut : DirectoryEntry} {junk : List DirectoryEntry} (h : CutLoaded d s heap name sector isDir cut junk)
    (name' : CString) :
    Directory.entryNamed ⟨tableAt d s ++ cut :: junk⟩ name' =
      (lookupIn d s name').or (if key cut.name.toList = key name' then some cut else none) := by
  rw [Directory.entryNamed, List.find?_append, lookupIn]
  congr 1
  split
  · exact List.find?_cons_of_pos (named_iff.mpr ⟨by rw [h.inUse]; decide, ‹_›⟩)
  · rw [List.find?_cons_of_neg fun hn => ‹¬key cut.name.toList = key name'› (named_iff.mp hn).2,
        List.find?_eq_none]
    exact fun e he hn => (named_iff.mp hn).1 (h.junk e he)

namespace Grounded

variable {fs : FileSystem} {d : Disk} {kind : ℤ → Option Kind} {s sector : ℤ} {name : CString} {isDir : Byte}

lemma exec_loadCut (hs : Grounded fs d kind) (hk : kind s = some .dir) (hcut : Cuts (hdrAt d s).numBytes)
    (hsec : InDisk sector) (hold : CutHolds d s name sector isDir) {k k₁ k₂ : Kernel} {dir : Directory}
    (hnew : exec (Directory.new NumDirEntries) k = .ok (dir, k₁)) (hd : k₂.disk = d) (pos : ℤ) :
    ∃ cut junk, exec (dir.fetchFrom ⟨hdrAt d s, pos, s⟩) k₂ = .ok (⟨tableAt d s ++ cut :: junk⟩, k₂) ∧
      CutLoaded d s k.heap name sector isDir cut junk := by
  subst hd
  obtain ⟨dir', k₁', hnew', -, -, hlen, hunused⟩ := Directory.exec_new k
  cases hnew.symm.trans hnew'
  have hf : (OpenFile.mk (hdrAt k₂.disk s) pos s).Current k₂.disk := rfl
  obtain ⟨bytes, he, hbytes⟩ := exec_fetchFrom_bytes (hs.storage.file hk) (hs.backed hk) hf rfl dir hlen
  have hlt := (cuts_iff _).mp hcut
  have hmin : min 200 (hdrAt k₂.disk s).numBytes.toNat = (hdrAt k₂.disk s).numBytes.toNat :=
    min_eq_right (by have := hcut.2.1; simp only [DirectoryFileSize] at this; omega)
  have hsplit := ofBytes_eq (d := k₂.disk) (s := s) fun q hq => by rw [hbytes, if_pos hq]
  obtain ⟨old, hold⟩ := hold
  generalize hm : slotsIn (hdrAt k₂.disk s).numBytes = m at hlt hold hsplit
  have hm10 : m < NumDirEntries := by
    simp only [EntrySize, NumDirEntries] at hlt ⊢
    omega
  have hone : NumDirEntries - m = NumDirEntries - m - 1 + 1 := by omega
  rw [hone, List.range'_succ, List.map_cons] at hsplit
  have hcutByte : ∀ q < EntrySize, (bytes.drop (EntrySize * m)).getD q 0 =
      if EntrySize * m + q < (hdrAt k₂.disk s).numBytes.toNat then (old.filled name sector isDir).toBytes.getD q 0
      else dir.toBytes.getD (EntrySize * m + q) 0 := fun q hq => by
    rw [getD_drop, hbytes, hmin]
    split
    · rw [hold q hq (by omega)]
    · rfl
  refine ⟨_, _, by rw [he, hsplit], ?_, ?_, fun e he => ?_, ?_⟩
  · exact (hcutByte 1 (by decide)).trans (by rw [if_pos (by omega)]; rfl)
  · exact (hcutByte 0 (by decide)).trans (by rw [if_pos (by omega)]; rfl)
  · obtain ⟨i, hi, rfl⟩ := List.mem_map.mp he
    rw [List.mem_range'_1] at hi
    change (bytes.drop (EntrySize * i)).getD 1 0 = 0
    have hi10 : i < dir.table.length := by omega
    rw [getD_drop, hbytes, if_neg, Directory.getD_toBytes dir.table i 1 hi10 (by decide)]
    · exact hunused _ (List.getElem_mem hi10)
    · intro hin
      have hslot := slot_of_inUse (by omega) hin
      omega
  · rw [DirectoryEntry.expected_iff _ hsec, Completed, hm]
    refine forall_congr' fun q => forall₂_congr fun hq hlt => ?_
    have hq17 : q < 17 := by
      simp only [FileNameMaxLen] at hlt
      omega
    rw [DirectoryEntry.ofBytes_readable _ (DirectoryEntry.ofBytes _).inUse hq hq17,
      hcutByte q (by simp only [EntrySize]; omega)]
    split
    · exact iff_of_true (old.filled_toBytes name sector isDir hq hq17) fun h => absurd h (by omega)
    · rw [Directory.new_bytes hnew hm10 hq hq17]
      exact ⟨fun h _ => h, fun h => h (by omega)⟩

end Grounded

lemma Directory.printLoop_append (es es' : List DirectoryEntry) :
    printLoop (es ++ es') = printLoop es >>= fun _ => printLoop es' := by
  induction es with
  | nil => rfl
  | cons e es ih =>
    rw [List.cons_append, printLoop, printLoop, ih, bind_assoc]

namespace FileSystem

variable {k k' : Kernel} {dirFile f : OpenFile} {dir : Directory} {name : CString}

lemma exec_openIn (hprint : exec dir.print k = .ok ((), k)) (hfind : InDisk (dir.find name))
    (hmap : f.hdrSector ≠ FreeMapSector) :
    ∃ k', exec (openIn f dir name) k = .ok (some ⟨hdrAt k.disk (dir.find name), 0, dir.find name⟩, k') := by
  obtain ⟨k₁, h₁, -⟩ := OpenFile.exec_new hfind k
  obtain ⟨k₂, h₂, -⟩ := exec_register .semaphoreRead (dir.find name) 1 rfl (by decide)
    (k₁.setMap .openFileCount (dir.find name) (counted 1 (k₁.maps .openFileCount (dir.find name))))
  obtain ⟨k', h₃, -⟩ := OpenFile.exec_close f hmap k₂
  refine ⟨k', ?_⟩
  rw [openIn, exec_bind_of_ok hprint]
  dsimp only
  rw [if_pos hfind.1, exec_bind_of_ok h₁, exec_bind_of_ok (exec_countOpen _ _ _),
    exec_bind_of_ok h₂, exec_bind_of_ok h₃,
    exec_pure]

lemma openIn_inv (he : exec (openIn dirFile dir name) k = .ok (some f, k')) :
    (∃ k₁, exec dir.print k = .ok ((), k₁)) ∧ f.hdrSector = dir.find name := by
  rw [openIn] at he
  obtain ⟨u, k₁, hprint, he⟩ := exec_bind_ok.mp he
  refine ⟨⟨k₁, hprint⟩, ?_⟩
  dsimp only at he
  split at he
  · obtain ⟨file, k₂, hnew, he⟩ := exec_bind_ok.mp he
    obtain ⟨u₁, k₃, -, he⟩ := exec_bind_ok.mp he
    obtain ⟨u₂, k₄, -, he⟩ := exec_bind_ok.mp he
    obtain ⟨u₃, k₅, -, he⟩ := exec_bind_ok.mp he
    cases he
    rw [OpenFile.new] at hnew
    obtain ⟨hdr, k₆, -, hnew⟩ := exec_bind_ok.mp hnew
    obtain ⟨u₄, k₇, -, hnew⟩ := exec_bind_ok.mp hnew
    obtain ⟨u₅, k₈, -, hnew⟩ := exec_bind_ok.mp hnew
    obtain ⟨u₆, k₉, -, hnew⟩ := exec_bind_ok.mp hnew
    obtain ⟨u₇, k₁₀, -, hnew⟩ := exec_bind_ok.mp hnew
    cases hnew
    rfl
  · obtain ⟨u₁, k₂, -, he⟩ := exec_bind_ok.mp he
    cases he

end FileSystem

namespace Grounded

variable {fs : FileSystem} {d : Disk} {kind : ℤ → Option Kind} {wd s j : ℤ} {name path : CString}

lemma exec_open_cut (hs : Grounded fs d kind) (hwd : kind wd = some .dir)
    (halong : Along (CutUnused d) d (components path) wd) (hr : resolve d (components path) wd = some (s, name))
    (hcut : Cuts (hdrAt d s).numBytes) (hj : InDisk j) (hold : CutHolds d s name j 0)
    {k : Kernel} (hd : k.disk = d) :
    ∃ cut junk k', k'.disk = d ∧ CutLoaded d s k.heap name j 0 cut junk ∧ exec (FileSystem.openFile path wd) k =
      exec (FileSystem.openIn ⟨hdrAt d s, 0, s⟩ ⟨tableAt d s ++ cut :: junk⟩ name) k' := by
  have hks := hs.kind_of_resolve _ hwd hr
  obtain ⟨dir, k₁, h₁, hd₁, -⟩ := Directory.exec_new k
  obtain ⟨k₂, h₂, hd₂, -⟩ := hs.exec_walk (components path) hwd halong (hd₁.trans hd)
  obtain ⟨k₃, h₃, hd₃, -⟩ := hs.exec_openDirectory hks hd₂
  obtain ⟨cut, junk, h₄, hl⟩ := hs.exec_loadCut hks hcut hj hold h₁ hd₃ 0
  rw [hr, Option.getD_some] at h₂
  have h0 : ¬s < 0 := not_lt.mpr (hs.inDisk hks).1
  refine ⟨cut, junk, k₃, hd₃, hl, ?_⟩
  rw [FileSystem.openFile_eq, exec_bind_of_ok h₁, parsePath, exec_bind_of_ok h₂]
  dsimp only
  rw [if_neg h0, exec_bind_of_ok h₃, exec_bind_of_ok h₄]

lemma open_cut_iff (hs : Grounded fs d kind) (hwd : kind wd = some .dir)
    (halong : Along (CutUnused d) d (components path) wd) (hr : resolve d (components path) wd = some (s, name))
    (hcut : Cuts (hdrAt d s).numBytes) (hj : kind j = some .plain) (hold : CutHolds d s name j 0)
    (hnone : lookupIn d s name = none) {k : Kernel} (hd : k.disk = d) :
    (∃ f k', f.hdrSector = j ∧ exec (FileSystem.openFile path wd) k = .ok (some f, k')) ↔
      Completed k.heap (hdrAt d s).numBytes j name ∧ Printable d s ∧ (hdrAt d j).numSectors ≤ (NumDirect : ℤ) := by
  have hks := hs.kind_of_resolve _ hwd hr
  have hin := hs.inDisk hj
  obtain ⟨cut, junk, k₁, hd₁, hl, he⟩ := hs.exec_open_cut hwd halong hr hcut hin hold hd
  rw [he]
  have hfile : ∀ e ∈ tableAt d s, e.inUse ≠ 0 → FileAt k₁.disk e.sector.toInt := fun e he hu => by
    rw [hd₁]
    exact hs.storage.file (hs.names.points hks he hu)
  have hfind : Directory.find ⟨tableAt d s ++ cut :: junk⟩ name =
      if key cut.name.toList = key name then cut.sector.toInt else -1 := by
    rw [Directory.find, hl.entryNamed_eq, hnone, Option.none_or]
    by_cases hkey : key cut.name.toList = key name
    · rw [if_pos hkey, if_pos hkey]
    · rw [if_neg hkey, if_neg hkey]
  constructor
  · rintro ⟨f, k', hsec, ho⟩
    obtain ⟨⟨k₂, hprint⟩, hf⟩ := FileSystem.openIn_inv ho
    rw [hsec, hfind] at hf
    split at hf
    · rename_i hkey
      rw [Directory.print, Directory.printLoop_append, exec_bind_ok] at hprint
      obtain ⟨u, k₃, hprint, hlast⟩ := hprint
      have hp : Printable d s := by
        by_contra hp
        rw [Printable] at hp
        push Not at hp
        rw [Directory.printLoop_outside _ hfile (by rw [hd₁]; exact hp)] at hprint
        cases hprint
      rw [Directory.exec_printLoop _ hfile (by rw [hd₁]; exact hp)] at hprint
      cases hprint
      refine ⟨hl.named.mp ⟨hf.symm, hkey⟩, hp, ?_⟩
      by_contra hmany
      rw [Directory.printLoop, onlyIf, if_pos (by rw [hl.inUse]; decide), ← hf, bind_assoc,
        exec_bind_of_ok (FileHeader.exec_fetchFrom hin _), exec_bind, hd₁,
        (hs.storage.file hj).on.print_outside (not_le.mp hmany)] at hlast
      cases hlast
    · have := hin.1
      omega
  · rintro ⟨hcomplete, hp, hsmall⟩
    obtain ⟨hsec, hkey⟩ := hl.named.mpr hcomplete
    rw [if_pos hkey, hsec] at hfind
    have honly : ∀ e ∈ cut :: junk, e.inUse ≠ 0 → e.sector.toInt = j := fun e he hu => by
      obtain rfl : e = cut := (List.mem_cons.mp he).resolve_right fun h => hu (hl.junk e h)
      exact hsec
    have hlast : exec (Directory.printLoop (cut :: junk)) k₁ = .ok ((), k₁) :=
      Directory.exec_printLoop _ (fun e he hu => by rw [honly e he hu, hd₁]; exact hs.storage.file hj)
        fun e he hu => by rw [honly e he hu, hd₁]; exact hsmall
    have hprint : exec (Directory.print ⟨tableAt d s ++ cut :: junk⟩) k₁ = .ok ((), k₁) := by
      rw [Directory.print, Directory.printLoop_append,
        exec_bind_of_ok (Directory.exec_printLoop _ hfile (by rw [hd₁]; exact hp)), hlast]
    have hfound : InDisk (Directory.find ⟨tableAt d s ++ cut :: junk⟩ name) := by
      rw [hfind]
      exact hin
    obtain ⟨k', ho⟩ := FileSystem.exec_openIn (f := ⟨hdrAt d s, 0, s⟩) hprint hfound (hs.dir_ne_map hks)
    exact ⟨_, k', hfind, ho⟩

end Grounded

end NachosFileSys
