import NachosFileSys.Findability

/-! The swap file that `Kernel::Initialize` makes. It is created with length `0`, and `WriteAt` does not
extend a file. -/

namespace NachosFileSys

open Lib.Programs Lib.Bytes Lib.Runs

abbrev PageSize : ℤ := 128

abbrev swapName : CString := [0x73, 0x77, 0x61, 0x70, 0x53, 0x70, 0x61, 0x63, 0x65]

abbrev usr : CString := [0x75, 0x73, 0x72]

/-- The part of `Kernel::Initialize` that uses the disk, with the file system and `swapSpace`. Where `Create`
returns `FALSE`, `swapSpace` is not assigned. -/
def initializeKernel (formatFlag : Bool) : Nachos (FileSystem × Option OpenFile) := do
  let fs ← (if formatFlag then FileSystem.format else FileSystem.mount)
  let created ← fs.create swapName 0 DirectorySector
  let swapSpace ← (if created then FileSystem.openFile swapName DirectorySector else pure none)
  let _ ← fs.makeDir bin 0 DirectorySector
  let _ ← fs.makeDir usr 0 DirectorySector
  pure (fs, swapSpace)

def writePages (f : OpenFile) : List (ℤ × List Byte) → Nachos Unit
  | [] => pure ()
  | (v, page) :: rest => do
    let _ ← f.writeAt page PageSize (v * PageSize)
    writePages f rest

def SlotFits (v : ℤ) : Prop := 0 ≤ v ∧ (v + 1) * PageSize ≤ NumSectors * SectorSize

/-- The swap file is open, and a page that is written to a slot is read back until the slot is written
again. -/
def IsPageStore (swapSpace : Option OpenFile) (k : Kernel) : Prop :=
  ∃ f, swapSpace = some f ∧ ∀ v page (others : List (ℤ × List Byte)), SlotFits v → page.length = 128 →
    (∀ w ∈ others, w.1 ≠ v) → ∃ k₁ k₂ k₃, exec (f.writeAt page PageSize (v * PageSize)) k = .ok (PageSize, k₁) ∧
      exec (writePages f others) k₁ = .ok ((), k₂) ∧ exec (f.readAt PageSize (v * PageSize)) k₂ = .ok (page, k₃)

/-- A disk on which `Initialize` can run: any disk if it is formatted, or the disk of an earlier run. -/
def Initializable (formatFlag : Bool) (k : Kernel) : Prop :=
  formatFlag = true ∨ ∃ sys, System.Reachable System.Regular sys ∧ k.disk = sys.kernel.disk

lemma OpenFile.writeAt_empty {f : OpenFile} (hf : f.hdr.fileLength = 0) (src : List Byte) {position : ℤ}
    (hp : 0 ≤ position) (n : ℤ) (k : Kernel) : exec (f.writeAt src n position) k = .ok (0, k) := by
  rw [OpenFile.writeAt]
  dsimp only
  rw [if_pos (Or.inr (by rw [hf]; exact hp))]
  rfl

lemma not_isPageStore {swapSpace : Option OpenFile} (h : ∀ f, swapSpace = some f → f.hdr.fileLength = 0)
    (k : Kernel) :
    ¬IsPageStore swapSpace k := by
  rintro ⟨f, hf, hstore⟩
  obtain ⟨k₁, k₂, k₃, hw, -⟩ :=
    hstore 0 (List.replicate 128 0) [] ⟨le_rfl, by decide⟩ (List.length_replicate) (by simp)
  rw [OpenFile.writeAt_empty (h f hf) _ (by decide)] at hw
  have hzero : (0 : ℤ) = PageSize := congrArg Prod.fst (Except.ok.inj hw)
  revert hzero
  decide

namespace Sound

variable {fs : FileSystem} {kind : ℤ → Option Kind} {k k' : Kernel}

lemma swapSpace_empty {path : CString} {wd : ℤ} {b : Bool} {k₁ k₂ : Kernel} {swapSpace : Option OpenFile}
    (hs : Sound fs k.disk kind) (huncut : ∀ {x}, kind x = some .dir → ¬Cuts (hdrAt k.disk x).numBytes)
    (hwd : kind wd = some .dir) (hc : exec (fs.create path 0 wd) k = .ok (b, k₁))
    (ho : exec (if b then FileSystem.openFile path wd else pure none) k₁ = .ok (swapSpace, k₂)) :
    ∀ f, swapSpace = some f → f.hdr.fileLength = 0 := by
  rintro f rfl
  obtain ⟨-, ⟨rfl, -⟩ | ⟨rfl, s, name, i, hr, hnone, hi, -, hinst, hs₁⟩⟩ := hs.create_inv hwd hc
  · cases ho
  · have hmem := mem_sectors_of_head hi
    have hin := inDisk_of_free hmem
    have hk := hinst.keeps (fun _ _ => False) (hs.storage.kind_of_free hmem) hnone
    have hs₁ := hs₁ fun hcut => absurd hcut (huncut (hs.kind_of_resolve _ hwd hr))
    obtain ⟨-, -, hfound⟩ := hs₁.open_inv (hk.dirs hwd) ho
    obtain ⟨s', name', e, hr', hlook, rfl, -⟩ := hfound f rfl
    cases (hk.resolve hs _ hwd hr).symm.trans hr'
    have hroom : freeSlot (tableAt k.disk s) ≠ none := by
      intro hfull
      rw [lookupIn, hinst.table, withEntry, hfull] at hlook
      cases hlook.symm.trans hnone
    obtain ⟨e', hlook', hsec, -⟩ := hinst.lookupIn_eq hin hnone hroom
    cases hlook.symm.trans hlook'
    dsimp only
    rw [FileHeader.fileLength, hsec]
    exact hinst.numBytes (by decide)

end Sound

lemma Initializable.start {formatFlag : Bool} {k k₁ : Kernel} {fs : FileSystem} (h : Initializable formatFlag k)
    (he : exec (if formatFlag then FileSystem.format else FileSystem.mount) (System.reset k) = .ok (fs, k₁)) :
    ∃ kind, Sound fs k₁.disk kind ∧ ∀ {x}, kind x = some .dir → ¬Cuts (hdrAt k₁.disk x).numBytes := by
  have hformat : formatFlag = true →
      ∃ kind, Sound fs k₁.disk kind ∧ ∀ {x}, kind x = some .dir → ¬Cuts (hdrAt k₁.disk x).numBytes := by
    rintro rfl
    obtain ⟨fs', k', he', hf, -⟩ := exec_format (System.reset k)
    rw [if_pos rfl, he'] at he
    cases he
    refine ⟨formatted, hf.sound, fun hk => ?_⟩
    rcases formatted_cases hk with ⟨-, h⟩ | ⟨rfl, -⟩
    · cases h
    · exact hf.uncut
  rcases h with rfl | ⟨sys, hr, hd⟩
  · exact hformat rfl
  · cases formatFlag with
    | true => exact hformat rfl
    | false =>
      obtain ⟨kind, hst⟩ := hr.stable
      obtain ⟨fs', k', he', hd', -, hs', -⟩ := hst.sound.exec_mount (k := System.reset k) hd
      rw [if_neg Bool.false_ne_true, he'] at he
      cases he
      rw [hd']
      exact ⟨kind, hs', hst.uncut⟩

lemma initialize_empty {formatFlag : Bool} {k k' : Kernel} {fs : FileSystem} {swapSpace : Option OpenFile}
    (h : Initializable formatFlag k)
    (he : exec (initializeKernel formatFlag) (System.reset k) = .ok ((fs, swapSpace), k')) :
    ∀ f, swapSpace = some f → f.hdr.fileLength = 0 := by
  rw [initializeKernel] at he
  obtain ⟨fs₁, k₁, h₁, he⟩ := exec_bind_ok.mp he
  obtain ⟨created, k₂, h₂, he⟩ := exec_bind_ok.mp he
  obtain ⟨swapSpace', k₃, h₃, he⟩ := exec_bind_ok.mp he
  obtain ⟨b, k₄, -, he⟩ := exec_bind_ok.mp he
  obtain ⟨b', k₅, -, he⟩ := exec_bind_ok.mp he
  cases he
  obtain ⟨kind, hs, huncut⟩ := h.start h₁
  exact hs.swapSpace_empty huncut hs.names.root h₂ h₃

/-- The swap file is no page store, whatever the disk was at the start. -/
theorem swap_never_page_store (formatFlag : Bool) (k k' : Kernel) (fs : FileSystem) (swapSpace : Option OpenFile)
    (h : Initializable formatFlag k)
    (he : exec (initializeKernel formatFlag) (System.reset k) = .ok ((fs, swapSpace), k')) :
    ¬IsPageStore swapSpace k' :=
  not_isPageStore (initialize_empty h he) k'

lemma Sound.exec_makeDir_root {fs : FileSystem} {kind : ℤ → Option Kind} {k : Kernel}
    (hs : Sound fs k.disk kind) (hcut : ¬Cuts (hdrAt k.disk DirectorySector).numBytes) (name : CString)
    (hname : components name = [name]) (hfree : 0 < (freeMapAt k.disk).free.length) :
    ∃ b k' kind', exec (fs.makeDir name 0 DirectorySector) k = .ok (b, k') ∧ Sound fs k'.disk kind' ∧
      ¬Cuts (hdrAt k'.disk DirectorySector).numBytes ∧
      (freeMapAt k.disk).free.length ≤ (freeMapAt k'.disk).free.length + 1 := by
  have hres : resolve k.disk (components name) DirectorySector = some (DirectorySector, name) := by
    rw [hname]
    rfl
  cases hlook : lookupIn k.disk DirectorySector name with
  | some e =>
    obtain ⟨k', he, hd, -⟩ := hs.exec_makeDir_present hs.names.root rfl hres hlook 0
    exact ⟨false, k', kind, he, by rw [hd]; exact hs, by rw [hd]; exact hcut, by rw [hd]; omega⟩
  | none =>
    obtain ⟨i, k', old, old', new, -, he, -, hinst, -, -, hs'⟩ :=
      hs.exec_makeDir_succeeds hs.names.root rfl hres hlook (n := 0) (by decide)
      (by rw [sectorsNeeded_zero]; decide) (by rw [sectorsNeeded_zero, newBlocks_zero]; omega)
    have hleft := hinst.free
    rw [sectorsNeeded_zero, newBlocks_zero] at hleft
    exact ⟨true, k', _, he, hs' (fun h => absurd h.1 (lt_irrefl _)) fun h => absurd h hcut,
      by rw [hinst.hdrs hs.names.root]; exact hcut, by omega⟩

lemma initialize_blank :
    ∃ fs f k', exec (initializeKernel true) (System.reset Kernel.blank) = .ok ((fs, some f), k') := by
  obtain ⟨fs, k₁, h₁, hf, -⟩ := exec_format (System.reset Kernel.blank)
  have hs := hf.sound
  have hfree := hf.free
  have hroot : formatted DirectorySector = some .dir := rfl
  have hres : resolve k₁.disk (components swapName) DirectorySector = some (DirectorySector, swapName) := rfl
  obtain ⟨i, k₂, hi, h₂, -, -, hinst, hs₂⟩ := hs.exec_create_succeeds hroot rfl hres (hf.lookupIn_root _) (n := 0)
    (by rw [sectorsNeeded_zero]; decide) (by rw [sectorsNeeded_zero, newBlocks_zero]; omega)
  have hs₂ := hs₂ hf.nextWhole
  have hin := inDisk_of_free (mem_sectors_of_head hi)
  have hprint : Printable k₂.disk DirectorySector := hinst.printable hs hroot hin (by decide)
    fun e he hu => absurd (hf.unused e he) hu
  obtain ⟨e, hlook, -⟩ := hinst.lookupIn_eq hin (hf.lookupIn_root _)
    (freeSlot_of_unused (by rw [hf.slots]; decide) hf.unused)
  have hres₂ : resolve k₂.disk (components swapName) DirectorySector = some (DirectorySector, swapName) := rfl
  obtain ⟨k₃, h₃, hd₃, -⟩ := hs₂.exec_open_found hs₂.names.root rfl hres₂ hprint hlook
  have hleft := hinst.free
  rw [sectorsNeeded_zero, newBlocks_zero, ← hd₃] at hleft
  rw [← hd₃] at hs₂
  have hcut₂ : ¬Cuts (hdrAt k₃.disk DirectorySector).numBytes := by
    rw [hd₃, hinst.hdrs hroot]
    exact hf.uncut
  obtain ⟨b, k₄, kind₄, h₄, hs₄, hcut₄, hfree₄⟩ := hs₂.exec_makeDir_root hcut₂ bin (by decide) (by omega)
  obtain ⟨b', k₅, kind₅, h₅, -⟩ := hs₄.exec_makeDir_root hcut₄ usr (by decide) (by omega)
  refine ⟨fs, ⟨hdrAt k₂.disk e.sector.toInt, 0, e.sector.toInt⟩, k₅, ?_⟩
  rw [initializeKernel, if_pos rfl, exec_bind_of_ok h₁, exec_bind_of_ok h₂,
    if_pos rfl, exec_bind_of_ok h₃, exec_bind_of_ok h₄,
    exec_bind_of_ok h₅, exec_pure]

theorem swap_never_page_store_blank :
    ∃ fs f k', exec (initializeKernel true) (System.reset Kernel.blank) = .ok ((fs, some f), k') ∧
    ¬IsPageStore (some f) k' := by
  obtain ⟨fs, f, k', he⟩ := initialize_blank
  exact ⟨fs, f, k', he, swap_never_page_store true Kernel.blank k' fs (some f) (Or.inl rfl) he⟩

/-- On a new disk the first page that is written to the swap file is lost. -/
theorem swap_write_refused :
    ∃ fs f k', exec (initializeKernel true) (System.reset Kernel.blank) = .ok ((fs, some f), k') ∧
      exec (f.writeAt (List.replicate 128 1) PageSize (0 * PageSize)) k' = .ok (0, k') ∧
      ¬IsPageStore (some f) k' := by
  obtain ⟨fs, f, k', he⟩ := initialize_blank
  have hempty := initialize_empty (Or.inl rfl) he
  exact ⟨fs, f, k', he, OpenFile.writeAt_empty (hempty f rfl) _ (by decide) _ _, not_isPageStore hempty k'⟩

end NachosFileSys
