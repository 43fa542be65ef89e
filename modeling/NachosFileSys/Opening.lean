import NachosFileSys.Removal

namespace NachosFileSys

open Lib.Programs Lib.Bytes

namespace FileHeader

lemma exec_printBlocks (slots : List ℤ) : ∀ (count : ℕ) (k : Kernel), count ≤ slots.length →
    exec (printBlocks slots count) k = .ok ((), k) := by
  induction slots with
  | nil =>
    intro count k hc
    obtain rfl : count = 0 := by simpa using hc
    rfl
  | cons b slots ih =>
    intro count k hc
    cases count with
    | zero => rfl
    | succ count => exact ih count k (by simpa using hc)

lemma printBlocks_outside (slots : List ℤ) : ∀ (count : ℕ) (k : Kernel), slots.length < count →
    exec (printBlocks slots count) k = .error .index := by
  induction slots with
  | nil =>
    intro count k hc
    obtain ⟨count, rfl⟩ : ∃ c, count = c + 1 := ⟨count - 1, by simp at hc; omega⟩
    rfl
  | cons b slots ih =>
    intro count k hc
    cases count with
    | zero => simp at hc
    | succ count => exact ih count k (by simpa using hc)

lemma exec_printContents (slots : List ℤ) : ∀ (count : ℕ) (k : Kernel), count ≤ slots.length →
    (∀ s ∈ slots, s = EmptyBlock ∨ InDisk s) → exec (printContents slots count) k = .ok ((), k) := by
  induction slots with
  | nil =>
    intro count k hc _
    obtain rfl : count = 0 := by simpa using hc
    rfl
  | cons b slots ih =>
    intro count k hc hs
    cases count with
    | zero => rfl
    | succ count =>
      have hrest := ih count k (by simpa using hc) fun s hs' => hs s (List.mem_cons_of_mem _ hs')
      rw [printContents]
      rcases hs b List.mem_cons_self with rfl | hb
      · rw [if_pos (Or.inl (by decide)), hrest]
      · rw [if_neg (by have := hb.1; have := hb.2; omega), exec_bind_of_ok (exec_read_inDisk hb k), hrest]

lemma On.exec_print {h : FileHeader} {bs secs : List ℤ} {k : Kernel} (hon : h.On k.disk bs secs)
    (hn : h.numSectors ≤ (NumDirect : ℤ)) : exec h.print k = .ok ((), k) := by
  have hc : h.numSectors.toNat ≤ h.dataSectors.length := by
    rw [hon.length]
    omega
  have hs : ∀ s ∈ h.dataSectors, s = EmptyBlock ∨ InDisk s := by
    intro s hs
    rw [hon.stored.slots_eq] at hs
    rcases List.mem_append.mp hs with hs | hs
    · exact Or.inr (hon.stored.blocks_inDisk s hs)
    · exact Or.inl (List.eq_of_mem_replicate hs)
  rw [print, exec_bind_of_ok (exec_printBlocks _ _ _ hc), exec_printContents _ _ _ hc hs]

lemma On.print_outside {h : FileHeader} {d : Disk} {bs secs : List ℤ} (hon : h.On d bs secs)
    (hn : (NumDirect : ℤ) < h.numSectors) (k : Kernel) : exec h.print k = .error .index := by
  rw [print, exec_bind, printBlocks_outside _ _ _ (by rw [hon.length]; omega)]

lemma exec_fetchFrom {s : ℤ} (hs : InDisk s) (k : Kernel) : exec (fetchFrom s) k = .ok (hdrAt k.disk s, k) := by
  rw [fetchFrom, exec_bind_of_ok (exec_read_inDisk hs k)]
  rfl

end FileHeader

def Printable (d : Disk) (s : ℤ) : Prop :=
  ∀ e ∈ tableAt d s, e.inUse ≠ 0 → (hdrAt d e.sector.toInt).numSectors ≤ (NumDirect : ℤ)

instance (d : Disk) (s : ℤ) : Decidable (Printable d s) :=
  inferInstanceAs
      (Decidable (∀ e ∈ tableAt d s, e.inUse ≠ 0 → (hdrAt d e.sector.toInt).numSectors ≤ (NumDirect : ℤ)))

namespace Directory

lemma exec_printLoop {k : Kernel} (entries : List DirectoryEntry)
    (hf : ∀ e ∈ entries, e.inUse ≠ 0 → FileAt k.disk e.sector.toInt)
    (hn : ∀ e ∈ entries, e.inUse ≠ 0 → (hdrAt k.disk e.sector.toInt).numSectors ≤ (NumDirect : ℤ)) :
    exec (printLoop entries) k = .ok ((), k) := by
  induction entries with
  | nil => rfl
  | cons e entries ih =>
    have ih := ih (fun e' he' => hf e' (List.mem_cons_of_mem _ he')) fun e' he' =>
      hn e' (List.mem_cons_of_mem _ he')
    have hone : exec (onlyIf (e.inUse ≠ 0) (do
        let hdr ← FileHeader.fetchFrom e.sector.toInt
        hdr.print)) k = .ok ((), k) := by
      rw [onlyIf]
      split
      case isTrue hu =>
        rw [decide_eq_true_eq] at hu
        have hfile := hf e List.mem_cons_self hu
        rw [exec_bind_of_ok (FileHeader.exec_fetchFrom hfile.inDisk k),
          hfile.on.exec_print (hn e List.mem_cons_self hu)]
      case isFalse => rfl
    rw [printLoop, exec_bind_of_ok hone, ih]

lemma printLoop_outside {k : Kernel} (entries : List DirectoryEntry)
    (hf : ∀ e ∈ entries, e.inUse ≠ 0 → FileAt k.disk e.sector.toInt)
    (hn : ∃ e ∈ entries, e.inUse ≠ 0 ∧ (NumDirect : ℤ) < (hdrAt k.disk e.sector.toInt).numSectors) :
    exec (printLoop entries) k = .error .index := by
  induction entries with
  | nil => simp at hn
  | cons e entries ih =>
    have hrest := fun e' he' => hf e' (List.mem_cons_of_mem e he')
    rw [printLoop, exec_bind]
    by_cases hu : e.inUse ≠ 0
    · have hfile := hf e List.mem_cons_self hu
      have hfetch := FileHeader.exec_fetchFrom hfile.inDisk k
      rw [onlyIf, if_pos (by simpa using hu), exec_bind_of_ok hfetch]
      by_cases hmany : (NumDirect : ℤ) < (hdrAt k.disk e.sector.toInt).numSectors
      · rw [hfile.on.print_outside hmany]
      · rw [hfile.on.exec_print (not_lt.mp hmany)]
        obtain ⟨e', he', h'⟩ := hn
        rcases List.mem_cons.mp he' with rfl | he'
        · exact absurd h'.2 hmany
        · exact ih hrest ⟨e', he', h'⟩
    · rw [onlyIf, if_neg (by simpa using hu), exec_pure]
      obtain ⟨e', he', h'⟩ := hn
      rcases List.mem_cons.mp he' with rfl | he'
      · exact absurd h'.1 hu
      · exact ih hrest ⟨e', he', h'⟩

end Directory

namespace Sound

variable {fs : FileSystem} {d : Disk} {kind : ℤ → Option Kind} {s wd : ℤ} {name path : CString} {k : Kernel}
  {e : DirectoryEntry}

lemma fileAt_of_loaded (hs : Sound fs d kind) (hks : kind s = some .dir) {dir : Directory}
    (hl : Loaded (tableAt d s) dir) : ∀ e ∈ dir.table, e.inUse ≠ 0 →
    e ∈ tableAt d s ∧ FileAt d e.sector.toInt := by
  intro e he hu
  obtain ⟨junk, ht, hj⟩ := hl.eq
  rw [ht] at he
  rcases List.mem_append.mp he with he | he
  · exact ⟨he, hs.storage.file (hs.names.points hks he hu)⟩
  · exact absurd (hj e he) hu

lemma exec_print (hs : Sound fs d kind) (hks : kind s = some .dir) (hd : k.disk = d) {dir : Directory}
    (hl : Loaded (tableAt d s) dir) (hp : Printable d s) : exec dir.print k = .ok ((), k) := by
  subst hd
  have hf := hs.fileAt_of_loaded hks hl
  exact Directory.exec_printLoop _ (fun e he hu => (hf e he hu).2) fun e he hu => hp e (hf e he hu).1 hu

lemma print_outside (hs : Sound fs d kind) (hks : kind s = some .dir) (hd : k.disk = d) {dir : Directory}
    (hl : Loaded (tableAt d s) dir) (hp : ¬Printable d s) : exec dir.print k = .error .index := by
  subst hd
  have hf := hs.fileAt_of_loaded hks hl
  rw [Printable] at hp
  push Not at hp
  obtain ⟨e, he, hu, hmany⟩ := hp
  obtain ⟨junk, ht, -⟩ := hl.eq
  refine Directory.printLoop_outside _ (fun e he hu => (hf e he hu).2) ⟨e, ?_, hu, hmany⟩
  rw [ht]
  exact List.mem_append_left _ he

end Sound

namespace FileSystem

def openIn (dirFile : OpenFile) (directory : Directory) (name : CString) : Nachos (Option OpenFile) := do
  directory.print
  let sector := directory.find name
  if sector ≥ 0 then
    let file ← OpenFile.new sector
    OpenFile.countOpen sector 1
    register .semaphoreRead sector 1
    dirFile.close
    pure (some file)
  else
    dirFile.close
    pure none

lemma openFile_eq (path : CString) (wdSector : ℤ) :
    openFile path wdSector = (do
      let directory ← Directory.new NumDirEntries
      let (wdSector, name) ← parsePath path wdSector
      if wdSector < 0 then pure none
      else
        let dirFile ← OpenFile.new wdSector
        let directory ← directory.fetchFrom dirFile
        openIn dirFile directory name) := rfl

end FileSystem

namespace Sound

variable {fs : FileSystem} {d : Disk} {kind : ℤ → Option Kind} {s wd : ℤ} {name path : CString} {k : Kernel}
  {e : DirectoryEntry}

lemma exec_open_none (hs : Sound fs d kind) (hwd : kind wd = some .dir) (hd : k.disk = d)
    (hr : resolve d (components path) wd = none) :
    ∃ k', exec (FileSystem.openFile path wd) k = .ok (none, k') ∧ k'.disk = d ∧ Extends k.maps k'.maps := by
  obtain ⟨dir, k₁, h₁, hd₁, hm₁, -⟩ := Directory.exec_new k
  obtain ⟨k', hd', hx, he⟩ := hs.exec_enter_none hwd (hd₁.trans hd) hr none fun wdSector name => do
    let dirFile ← OpenFile.new wdSector
    let directory ← dir.fetchFrom dirFile
    FileSystem.openIn dirFile directory name
  exact ⟨k', by rw [FileSystem.openFile_eq, exec_bind_of_ok h₁, he], hd', hm₁ ▸ hx⟩

lemma exec_open_enter (hs : Sound fs d kind) (hwd : kind wd = some .dir) (hd : k.disk = d)
    (hr : resolve d (components path) wd = some (s, name)) :
    ∃ (dir : Directory) (k₁ k' : Kernel), k₁.disk = d ∧ k'.disk = d ∧
    Extends k.maps k₁.maps ∧ Extends k₁.maps k'.maps ∧
      (AtRest k.maps → ∀ x, HeldOpen k₁.maps x = HeldOpen k.maps x) ∧
      k'.maps .openFileCount =
        Function.update (k₁.maps .openFileCount) s (some (counted 0 (k₁.maps .openFileCount s))) ∧
      Loaded (tableAt d s) dir ∧
      exec (FileSystem.openFile path wd) k = exec (FileSystem.openIn ⟨hdrAt d s, 0, s⟩ dir name) k' := by
  have hks := hs.kind_of_resolve _ hwd hr
  obtain ⟨dir, k₁, h₁, hd₁, hm₁, hlen, hnew⟩ := Directory.exec_new k
  obtain ⟨k₂, h₂, hd₂, hx₂, hh₂⟩ := hs.exec_walk (components path) hwd (hd₁.trans hd)
  obtain ⟨k₃, h₃, hd₃, hx₃, hc₃⟩ := hs.exec_openDirectory hks hd₂
  obtain ⟨dir', h₄, hl⟩ := hs.exec_loadDirectory hks hd₃ hlen hnew 0
  rw [hm₁] at hx₂ hh₂
  refine ⟨dir', k₂, k₃, hd₂, hd₃, hx₂, hx₃, fun hrest => (hh₂ hrest (by rw [hr]; rfl)).heldOpen, hc₃, hl,
    ?_⟩
  rw [hr, Option.getD_some] at h₂
  have h0 : ¬s < 0 := not_lt.mpr (hs.inDisk hks).1
  rw [FileSystem.openFile_eq, exec_bind_of_ok h₁, parsePath, exec_bind_of_ok h₂]
  dsimp only
  rw [if_neg h0, exec_bind_of_ok h₃, exec_bind_of_ok h₄]

lemma exec_open_outside (hs : Sound fs d kind) (hwd : kind wd = some .dir) (hd : k.disk = d)
    (hr : resolve d (components path) wd = some (s, name)) (hp : ¬Printable d s) :
    exec (FileSystem.openFile path wd) k = .error .index := by
  obtain ⟨dir, k₁, k', -, hd', -, -, -, -, hl, he⟩ := hs.exec_open_enter hwd hd hr
  rw [he, FileSystem.openIn, exec_bind, hs.print_outside (hs.kind_of_resolve _ hwd hr) hd' hl hp]

lemma exec_open_absent (hs : Sound fs d kind) (hwd : kind wd = some .dir) (hd : k.disk = d)
    (hr : resolve d (components path) wd = some (s, name)) (hp : Printable d s)
    (hnone : lookupIn d s name = none) :
    ∃ k', exec (FileSystem.openFile path wd) k = .ok (none, k') ∧ k'.disk = d ∧ Extends k.maps k'.maps := by
  have hks := hs.kind_of_resolve _ hwd hr
  obtain ⟨dir, k₁, k₂, -, hd₂, hx₁, hx₂, -, -, hl, he⟩ := hs.exec_open_enter hwd hd hr
  obtain ⟨k', hc, hd', hx', -⟩ := OpenFile.exec_close ⟨hdrAt d s, 0, s⟩ (hs.dir_ne_map hks) k₂
  refine ⟨k', ?_, hd'.trans hd₂, hx₁.trans (hx₂.trans hx')⟩
  rw [he, FileSystem.openIn, exec_bind_of_ok (hs.exec_print (hs.kind_of_resolve _ hwd hr) hd₂ hl hp)]
  dsimp only
  rw [if_neg (by rw [find_none hl hnone]; decide), exec_bind_of_ok hc, exec_pure]

/-- The handle that `Open` returns has the header that is on disk. The opens and closes on the way
leave the counts of the other files as positive as they were. -/
lemma exec_open_found (hs : Sound fs d kind) (hwd : kind wd = some .dir) (hd : k.disk = d)
    (hr : resolve d (components path) wd = some (s, name)) (hp : Printable d s)
    (hlook : lookupIn d s name = some e) :
    ∃ k', exec (FileSystem.openFile path wd) k = .ok (some ⟨hdrAt d e.sector.toInt, 0, e.sector.toInt⟩, k') ∧
      k'.disk = d ∧ Extends k.maps k'.maps ∧ (∀ m, k'.maps m e.sector.toInt ≠ none) ∧
      (AtRest k.maps → e.isDir = 0 → ∀ x, x ≠ e.sector.toInt → HeldOpen k'.maps x = HeldOpen k.maps x) := by
  have hks := hs.kind_of_resolve _ hwd hr
  have hke := hs.kind_of_lookupIn hks hlook
  have hin := hs.inDisk hke
  obtain ⟨dir, k₁, k₂, -, hd₂, hx₁, hx₂, hh₁, hc₂, hl, he⟩ := hs.exec_open_enter hwd hd hr
  have hne : e.sector.toInt ≠ FreeMapSector := hs.ne_map hke (by
    rw [DirectoryEntry.kind]
    split <;> decide)
  obtain ⟨k₃, h₃, hd₃, hx₃, -, hn₃, hc₃⟩ := OpenFile.exec_new hin k₂
  let k₄ := k₃.setMap .openFileCount e.sector.toInt (counted 1 (k₃.maps .openFileCount e.sector.toInt))
  have hx₄ : Extends k₃.maps k₄.maps := k₃.setMap_extends _ _ _ (counted_rests 1 ⟨by decide, by decide⟩ _)
    fun _ => hne
  obtain ⟨k₅, h₅, hd₅, hx₅, -, hc₅⟩ := exec_register .semaphoreRead e.sector.toInt 1 rfl (by decide) k₄
  obtain ⟨k', hc, hd', hx', hc'⟩ := OpenFile.exec_close ⟨hdrAt d s, 0, s⟩ (hs.dir_ne_map hks) k₅
  have hdisk : k'.disk = d := hd'.trans (hd₅.trans (hd₃.trans hd₂))
  refine ⟨k', ?_, hdisk, hx₁.trans (hx₂.trans ((hx₃ hne).trans (hx₄.trans (hx₅.trans hx')))),
    fun m => hx'.keeps (hx₅.keeps (hx₄.keeps (hn₃ m))), fun hrest hplain x hx => ?_⟩
  · have hsec : dir.find name = e.sector.toInt := by
      rw [hl.find_eq, hlook]
      rfl
    rw [he, FileSystem.openIn, exec_bind_of_ok (hs.exec_print hks hd₂ hl hp), hsec]
    dsimp only
    rw [if_pos hin.1, exec_bind_of_ok h₃, exec_bind_of_ok (exec_countOpen _ _ _), exec_bind_of_ok h₅,
      exec_bind_of_ok hc, exec_pure, hd₂]
  · -- the file is not the directory, so its own count is the only one that stays changed
    have hse : s ≠ e.sector.toInt := by
      intro heq
      rw [← heq, hks, DirectoryEntry.kind, if_pos hplain] at hke
      cases hke
    have hcount : k₅.maps .openFileCount = Function.update (k₂.maps .openFileCount) e.sector.toInt
        (some (counted 1 (k₃.maps .openFileCount e.sector.toInt))) := by
      rw [hc₅, Kernel.setMap_same, hc₃, Function.update_idem]
    rw [← hh₁ hrest x]
    have hoc : HeldOpen (fun m => Function.update (k₂.maps m) s
        (some (int32 ((k₂.maps .openFileCount s).getD 0 - 1)))) x = HeldOpen k₁.maps x :=
      (balanced_of_open_close (hx₁.rests hrest) hc₂ rfl).heldOpen x
    rw [← hoc, HeldOpen, HeldOpen, hc', hcount, Function.update_of_ne hse]
    by_cases hxs : x = s
    · rw [hxs, Function.update_self, Function.update_self]
    · rw [Function.update_of_ne hxs, Function.update_of_ne hx, Function.update_of_ne hxs]

end Sound

/-- The counts after the first opens of the free map and the root directory. -/
def FirstCounts (maps : KernelMap → ℤ → Option ℤ) : Prop :=
  ∀ x, maps .openFileCount x = if x = FreeMapSector ∨ x = DirectorySector then some 0 else none

lemma FirstCounts.heldOpen {maps : KernelMap → ℤ → Option ℤ} (h : FirstCounts maps) (x : ℤ) :
    HeldOpen maps x = false := by
  rw [HeldOpen, h]
  split <;> rfl

lemma firstCounts_of_mount {maps maps₁ maps₂ : KernelMap → ℤ → Option ℤ}
    (hnone : ∀ s, maps .openFileCount s = none)
    (hc₁ : maps₁ .openFileCount = Function.update (maps .openFileCount) FreeMapSector
      (some (counted 0 (maps .openFileCount FreeMapSector))))
    (hc₂ : maps₂ .openFileCount = Function.update (maps₁ .openFileCount) DirectorySector
      (some (counted 0 (maps₁ .openFileCount DirectorySector)))) :
    FirstCounts maps₂ := by
  have hne : DirectorySector ≠ FreeMapSector := by decide
  intro x
  rw [hc₂, hc₁, Function.update_of_ne hne, hnone, hnone]
  by_cases h1 : x = DirectorySector
  · rw [h1, Function.update_self, if_pos (Or.inr rfl)]
    rfl
  · rw [Function.update_of_ne h1]
    by_cases h0 : x = FreeMapSector
    · rw [h0, Function.update_self, if_pos (Or.inl rfl)]
      rfl
    · rw [Function.update_of_ne h0, hnone, if_neg (not_or.mpr ⟨h0, h1⟩)]

def directoryAt (d : Disk) (path : CString) (wd : ℤ) : ℤ :=
  match resolve d (components path) wd with
  | some (s, name) =>
    match lookupIn d s name with
    | some e => if e.isDir ≠ 0 then e.sector.toInt else -1
    | none => -1
  | none => -1

lemma Grounded.exec_changeDir {fs : FileSystem} {d : Disk} {kind : ℤ → Option Kind}
    {wd : ℤ} {path : CString} {k : Kernel}
    (hs : Grounded fs d kind) (hwd : kind wd = some .dir) (halong : Along (CutUnused d) d (components path) wd)
    (hlast : ∀ {s name}, resolve d (components path) wd = some (s, name) → CutUnused d s) (hd : k.disk = d) :
    ∃ k', exec (FileSystem.changeDir path wd) k = .ok (directoryAt d path wd, k') ∧ k'.disk = d ∧
      Extends k.maps k'.maps := by
  obtain ⟨k₁, h₁, hd₁, hx₁, -⟩ := hs.exec_walk (components path) hwd halong hd
  rw [directoryAt, FileSystem.changeDir, parsePath, exec_bind_of_ok h₁]
  cases hr : resolve d (components path) wd with
  | none => exact ⟨k₁, rfl, hd₁, hx₁⟩
  | some r =>
    obtain ⟨s, name⟩ := r
    have hks := hs.kind_of_resolve _ hwd hr
    obtain ⟨k₂, h₂, hd₂, hx₂, -⟩ := hs.exec_openDirectory hks hd₁
    obtain ⟨dir, k₃, h₃, hd₃, hm₃, hl⟩ := exec_fetchDirectory hs hks (hlast hr) hd₂ 0
    obtain ⟨k', h₄, hd', hx', -⟩ := OpenFile.exec_close ⟨hdrAt d s, 0, s⟩ (hs.dir_ne_map hks) k₃
    have h0 : ¬s < 0 := not_lt.mpr (hs.inDisk hks).1
    refine ⟨k', ?_, hd'.trans hd₃, hx₁.trans (hx₂.trans (hm₃ ▸ hx'))⟩
    dsimp only [Option.getD_some]
    rw [if_neg h0, exec_bind_of_ok h₂, exec_bind_of_ok h₃, exec_bind_of_ok h₄,
        exec_pure, hl.isDirectory_eq, hl.find_eq]
    cases lookupIn d s name with
    | none => rfl
    | some e =>
      dsimp only
      by_cases hdir : e.isDir ≠ 0
      · rw [if_pos (by simpa using hdir), if_pos hdir]
        rfl
      · rw [if_neg (by simpa using hdir), if_neg hdir]

namespace Sound

variable {fs : FileSystem} {d : Disk} {kind : ℤ → Option Kind} {s wd : ℤ} {name path : CString} {k : Kernel}

lemma kind_of_directoryAt (hs : Sound fs d kind) (hwd : kind wd = some .dir) (path : CString) :
    directoryAt d path wd = -1 ∨ kind (directoryAt d path wd) = some .dir := by
  rw [directoryAt]
  cases hr : resolve d (components path) wd with
  | none => exact Or.inl rfl
  | some r =>
    obtain ⟨s, name⟩ := r
    dsimp only
    cases hlook : lookupIn d s name with
    | none => exact Or.inl rfl
    | some e =>
      dsimp only
      split
      · exact Or.inr (hs.kind_of_isDir (hs.kind_of_resolve _ hwd hr) hlook ‹_›)
      · exact Or.inl rfl

lemma exec_changeDir (hs : Sound fs d kind) (hwd : kind wd = some .dir) (hd : k.disk = d) (path : CString) :
    ∃ k', exec (FileSystem.changeDir path wd) k = .ok (directoryAt d path wd, k') ∧ k'.disk = d ∧
      Extends k.maps k'.maps :=
  hs.toGrounded.exec_changeDir hwd (hs.along _ hwd) (fun hr => hs.unused (hs.kind_of_resolve _ hwd hr)) hd

lemma exec_mount (hs : Sound fs d kind) (hd : k.disk = d) :
    ∃ fs' k', exec FileSystem.mount k = .ok (fs', k') ∧ k'.disk = d ∧ (AtRest k.maps → AtRest k'.maps) ∧
      Sound fs' d kind ∧ ((∀ s, k.maps .openFileCount s = none) → FirstCounts k'.maps) := by
  obtain ⟨k₁, h₁, hd₁, -, hr₁, -, hc₁⟩ := OpenFile.exec_new (hs.inDisk hs.storage.map) k
  obtain ⟨k₂, h₂, hd₂, -, hr₂, -, hc₂⟩ := OpenFile.exec_new (hs.inDisk hs.names.root) k₁
  refine ⟨⟨⟨hdrAt k.disk FreeMapSector, 0, FreeMapSector⟩, ⟨hdrAt k₁.disk DirectorySector, 0, DirectorySector⟩⟩,
    k₂, ?_,
    hd₂.trans (hd₁.trans hd), fun hr => hr₂ (hr₁ hr),
    ⟨⟨hs.storage, hs.names, hs.backed, by rw [hd]; exact rfl, rfl⟩, hs.unused⟩,
    fun hnone => firstCounts_of_mount hnone hc₁ hc₂⟩
  rw [FileSystem.mount, exec_bind_of_ok h₁, exec_bind_of_ok h₂, exec_pure]

end Sound

end NachosFileSys
