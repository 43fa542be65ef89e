import NachosFileSys.Findability

namespace NachosFileSys

open Lib.Programs Lib.Bytes Lib.Runs

namespace System

def NamesPlain (sys : System) (t : ℕ) (path : CString) (s : ℤ) (e : DirectoryEntry) : Prop :=
  ∃ name, resolve sys.kernel.disk (components path) (sys.wd t) = some (s, name) ∧
    lookupIn sys.kernel.disk s name = some e ∧ e.isDir = 0

def HasHandle (sys : System) (h : ℤ) : Prop := ∃ f ∈ sys.handles, f.hdrSector = h

def CanRemove (sys : System) (t : ℕ) (path : CString) : Prop :=
  ∃ k, exec (sys.fs.remove path (sys.wd t)) sys.kernel = .ok (true, k)

variable {sys : System} {kind : ℤ → Option Kind} {t : ℕ} {path : CString} {s : ℤ} {e : DirectoryEntry}

lemma NamesPlain.unique {s' : ℤ} {e' : DirectoryEntry} (h : sys.NamesPlain t path s e)
    (h' : sys.NamesPlain t path s' e') :
    s = s' ∧ e = e' := by
  obtain ⟨name, hr, hl, -⟩ := h
  obtain ⟨name', hr', hl', -⟩ := h'
  rw [hr] at hr'
  cases hr'
  rw [hl] at hl'
  exact ⟨rfl, Option.some.inj hl'⟩

lemma Stable.canRemove_iff (hst : sys.Stable kind) (t : ℕ) (path : CString) :
    sys.CanRemove t path ↔ ∃ s e, sys.NamesPlain t path s e ∧ HeldOpen sys.kernel.maps s = false ∧
      (hdrAt sys.kernel.disk e.sector.toInt).numSectors ≤ (NumDirect : ℤ) := by
  obtain ⟨⟨hs, hrest, hwd, -, -⟩, -⟩ := hst
  constructor
  · rintro ⟨k, he⟩
    obtain ⟨-, ⟨hf, -⟩ | ⟨-, s, name, e, i, hr, hh, hl, hplain, hfew, -⟩⟩ := hs.remove_inv (hwd t) hrest he
    · cases hf
    · exact ⟨s, e, ⟨name, hr, hl, hplain⟩, hh, hfew⟩
  · rintro ⟨s, e, ⟨name, hr, hl, hplain⟩, hh, hfew⟩
    obtain ⟨i, k, he, -⟩ := hs.exec_remove_succeeds (hwd t) rfl hrest hr hh hl hplain hfew
    exact ⟨k, he⟩

end System

/-- `Remove` returns `TRUE` exactly for the plain files without a live handle, if and only if a file is
held open exactly when the open count of its directory is positive or its header counts more data
sectors than `Deallocate` can free. -/
theorem remove_respects_open_files_iff (sys : System) (h : System.Reachable System.Regular sys)
    (t : ℕ) (path : CString) :
    (sys.CanRemove t path ↔ ∃ s e, sys.NamesPlain t path s e ∧ ¬sys.HasHandle e.sector.toInt) ↔
    ∀ s e, sys.NamesPlain t path s e → (sys.HasHandle e.sector.toInt ↔
      HeldOpen sys.kernel.maps s = true ∨
        (NumDirect : ℤ) < (hdrAt sys.kernel.disk e.sector.toInt).numSectors) := by
  obtain ⟨kind, hst⟩ := h.stable
  rw [hst.canRemove_iff]
  -- the file that the path names is the only one that the two sides speak of
  have hthe : ∀ {s e} (P : ℤ → DirectoryEntry → Prop), sys.NamesPlain t path s e →
      ((∃ s e, sys.NamesPlain t path s e ∧ P s e) ↔ P s e) := by
    intro s e P hn
    constructor
    · rintro ⟨s', e', hn', hp⟩
      obtain ⟨rfl, rfl⟩ := hn.unique hn'
      exact hp
    · exact fun hp => ⟨s, e, hn, hp⟩
  constructor
  · intro hiff s e hn
    rw [hthe (fun s e => HeldOpen sys.kernel.maps s = false ∧
      (hdrAt sys.kernel.disk e.sector.toInt).numSectors ≤ (NumDirect : ℤ)) hn,
      hthe (fun _ e => ¬sys.HasHandle e.sector.toInt) hn] at hiff
    rw [← not_iff_not, ← hiff, not_or, Bool.not_eq_true, not_lt]
  · intro hcond
    constructor
    · rintro ⟨s, e, hn, hh, hfew⟩
      refine ⟨s, e, hn, fun hlive => ?_⟩
      rcases (hcond s e hn).mp hlive with hheld | hmany
      · rw [hh] at hheld
        cases hheld
      · omega
    · rintro ⟨s, e, hn, hlive⟩
      have hnot := fun hor => hlive ((hcond s e hn).mpr hor)
      rw [imp_false, not_or, Bool.not_eq_true, not_lt] at hnot
      exact ⟨s, e, hn, hnot⟩

lemma System.boot_create_entry : ∃ (sys sys' : System) (e : DirectoryEntry) (kind : ℤ → Option Kind),
    System.boot Kernel.blank = .ok sys ∧ System.step (.create 0 pathF 0) sys = .ok sys' ∧
    Sound sys'.fs sys'.kernel.disk kind ∧ kind DirectorySector = some .dir ∧ (∀ t, sys'.wd t = DirectorySector) ∧
    AtRest sys'.kernel.maps ∧ HeldOpen sys'.kernel.maps DirectorySector = true ∧ sys'.handles = [] ∧
    Printable sys'.kernel.disk DirectorySector ∧ lookupIn sys'.kernel.disk DirectorySector pathF = some e ∧
    e.isDir = 0 ∧
    (hdrAt sys'.kernel.disk e.sector.toInt).numSectors ≤ (NumDirect : ℤ) ∧ DirectorySector ≠ e.sector.toInt := by
  obtain ⟨sys, hb, hf, hst, hwd, hcounts⟩ := System.boot_spec Kernel.blank
  have hfree := hf.free
  have hres : resolve sys.kernel.disk (components pathF) (sys.wd 0) = some (DirectorySector, pathF) := by
    rw [hwd]
    rfl
  obtain ⟨i, k, hi, he, hx, hcount, hinst, hs⟩ :=
    hst.sound.exec_create_succeeds (hst.wd 0) rfl hres (hf.lookupIn_root _)
    (n := 0) (by rw [sectorsNeeded_zero]; decide) (by rw [sectorsNeeded_zero, newBlocks_zero]; omega)
  have hs := hs hf.nextWhole
  have hroom := freeSlot_of_unused (by rw [hf.slots]; decide) hf.unused
  have hin := inDisk_of_free (mem_sectors_of_head hi)
  have hroot : formatted DirectorySector = some .dir := rfl
  have hk :=
    hinst.keeps (fun _ _ => False) (hst.sound.storage.kind_of_free (mem_sectors_of_head hi)) (hf.lookupIn_root _)
  obtain ⟨e, hlook, hsec, hplain⟩ := hinst.lookupIn_eq hin (hf.lookupIn_root _) hroom
  have hprint : Printable k.disk DirectorySector := hinst.printable hst.sound hroot hin (by decide) fun e he hu =>
    absurd (hf.unused e he) hu
  have hkind := hs.kind_of_lookupIn (hk.dirs hroot) hlook
  refine ⟨sys, { sys with kernel := k }, e, _, hb, ?_, hs, hk.dirs hroot,
    hwd, hx.rests hst.rest, ?_, ?_, hprint, hlook,
    hplain, ?_, ?_⟩
  · rw [System.step, he]
    rfl
  · rw [HeldOpen, hcount hst.rest, hcounts DirectorySector]
    decide
  · obtain ⟨fs, k₀, hexec, -⟩ := exec_format (System.reset Kernel.blank)
    rw [System.boot, hexec] at hb
    cases hb
    rfl
  · obtain ⟨p, ds, hh⟩ := hinst.hdr
    dsimp only
    rw [hsec, hh]
    change int32 (0 + divRoundUp 0 SectorSize) ≤ _
    decide
  · intro heq
    rw [← heq, hk.dirs hroot, DirectoryEntry.kind, if_pos hplain] at hkind
    cases hkind

/-- The file is opened in the session in which it was created: it is not removed. After a restart,
before anyone has opened it, it is. -/
theorem remove_respects_open_files_opened : ∃ (sys sys' : System) (e e' : DirectoryEntry),
    sys.NamesPlain 0 pathF DirectorySector e ∧ sys.HasHandle e.sector.toInt ∧ ¬sys.CanRemove 0 pathF ∧
    sys'.NamesPlain 0 pathF DirectorySector e' ∧ ¬sys'.HasHandle e'.sector.toInt ∧ sys'.CanRemove 0 pathF := by
  obtain ⟨sys₀, sys₁, e, kind, hb, h₁, hs, hroot, hwd, hrest, hheld, hnone, hprint, hlook, hplain, hfew, hne⟩ :=
    System.boot_create_entry
  have hr : ∀ d, resolve d (components pathF) DirectorySector = some (DirectorySector, pathF) := fun _ => rfl
  have hreach : System.Reachable System.Regular sys₁ :=
    ⟨Kernel.blank, sys₀, hb, .step (.create 0 pathF 0) .refl (show int32 0 = 0 by decide) h₁⟩
  -- the handle
  obtain ⟨k₂, hopen, hd₂, -, -, hh₂⟩ := hs.exec_open_found hroot rfl (hr _) hprint hlook
  let sys₂ : System :=
    { sys₁ with kernel := k₂, handles := [⟨hdrAt sys₁.kernel.disk e.sector.toInt, 0, e.sector.toInt⟩] }
  have h₂ : System.step (.openFile 0 pathF) sys₁ = .ok sys₂ := by
    rw [System.step, hwd, hopen]
    dsimp only [bind, Except.bind, pure, Except.pure, sys₂]
    rw [hnone]
    rfl
  have hlook₂ : lookupIn sys₂.kernel.disk DirectorySector pathF = some e := by rw [hd₂, hlook]
  have hres₂ : resolve sys₂.kernel.disk (components pathF) (sys₂.wd 0) = some (DirectorySector, pathF) := by
    change resolve k₂.disk _ (sys₁.wd 0) = _
    rw [hwd, hr]
  have hnames₂ : sys₂.NamesPlain 0 pathF DirectorySector e := ⟨pathF, hres₂, hlook₂, hplain⟩
  have hlive : sys₂.HasHandle e.sector.toInt := ⟨_, List.mem_singleton.mpr rfl, rfl⟩
  have hiff₂ := (remove_respects_open_files_iff sys₂ (hreach.step (.openFile 0 pathF) trivial h₂) 0 pathF).mpr
    fun s e' hn => by
      obtain ⟨rfl, rfl⟩ := hnames₂.unique hn
      refine iff_of_true hlive (.inl ?_)
      change HeldOpen k₂.maps DirectorySector = true
      rw [hh₂ hrest hplain _ hne, hheld]
  -- the restart
  obtain ⟨fs₃, k₃, hmount, hd₃, -, -, hcounts₃⟩ := hs.exec_mount (k := System.reset sys₁.kernel) rfl
  let sys₃ : System := ⟨fs₃, k₃, fun _ => DirectorySector, []⟩
  have h₃ : System.step .restart sys₁ = .ok sys₃ := by
    rw [System.step, hmount]
    rfl
  have hlook₃ : lookupIn sys₃.kernel.disk DirectorySector pathF = some e := by rw [hd₃, hlook]
  have hnames₃ : sys₃.NamesPlain 0 pathF DirectorySector e := ⟨pathF, hr _, hlook₃, hplain⟩
  have hfree : ¬sys₃.HasHandle e.sector.toInt := by
    rintro ⟨f, hf, -⟩
    exact List.not_mem_nil hf
  have hiff₃ :=
    (remove_respects_open_files_iff sys₃ (hreach.step .restart trivial h₃) 0 pathF).mpr fun s e' hn => by
    obtain ⟨rfl, rfl⟩ := hnames₃.unique hn
    refine iff_of_false hfree ?_
    rw [show HeldOpen sys₃.kernel.maps DirectorySector = false from (hcounts₃ fun _ => rfl).heldOpen _, hd₃]
    simpa using hfew
  refine ⟨sys₂, sys₃, e, e, hnames₂, hlive, fun hcan => ?_, hnames₃, hfree, hiff₃.mpr ⟨_, e, hnames₃, hfree⟩⟩
  obtain ⟨s, e', hn, hdead⟩ := hiff₂.mp hcan
  obtain ⟨rfl, rfl⟩ := hnames₂.unique hn
  exact hdead hlive

/-- A file that is created, opened after a restart, and removed while its handle is live. -/
theorem open_file_removed :
    ∃ sys, System.Reachable System.Regular sys ∧
      ¬(sys.CanRemove 0 pathF ↔ ∃ s e, sys.NamesPlain 0 pathF s e ∧ ¬sys.HasHandle e.sector.toInt) := by
  obtain ⟨sys₀, sys₁, e, kind, hb, h₁, hs₁, hroot, -, -, -, -, hprint, hlook, hplain, hfew, hne⟩ :=
    System.boot_create_entry
  have hr : ∀ d, resolve d (components pathF) DirectorySector = some (DirectorySector, pathF) := fun _ => rfl
  have hreach : System.Reachable System.Regular sys₁ :=
    ⟨Kernel.blank, sys₀, hb, .step (.create 0 pathF 0) .refl (show int32 0 = 0 by decide) h₁⟩
  -- the restart
  obtain ⟨fs₂, k₂, hmount, hd₂, hx₂, hs₂, hh₂⟩ := hs₁.exec_mount (k := System.reset sys₁.kernel) rfl
  rw [← hd₂] at hs₂ hlook hprint hfew
  have hrest₂ := hx₂ (System.atRest_reset sys₁.kernel)
  -- the handle
  obtain ⟨k₃, hopen, hd₃, hx₃, -, hh₃⟩ := hs₂.exec_open_found hroot rfl (hr _) hprint hlook
  rw [← hd₃] at hs₂ hlook hfew
  have hheld : HeldOpen k₃.maps DirectorySector = false := by
    rw [hh₃ hrest₂ hplain _ hne]
    exact (hh₂ fun _ => rfl).heldOpen _
  obtain ⟨j, k₄, hremove, -⟩ :=
    hs₂.exec_remove_succeeds hroot rfl (hx₃.rests hrest₂) (hr _) hheld hlook hplain hfew
  let sys₂ : System := ⟨fs₂, k₂, fun _ => DirectorySector, []⟩
  let sys₃ : System := ⟨fs₂, k₃, fun _ => DirectorySector, [⟨hdrAt k₂.disk e.sector.toInt, 0, e.sector.toInt⟩]⟩
  have h₂ : System.step .restart sys₁ = .ok sys₂ := by
    rw [System.step, hmount]
    rfl
  have h₃ : System.step (.openFile 0 pathF) sys₂ = .ok sys₃ := by
    rw [System.step]
    dsimp only [sys₂]
    rw [hopen]
    rfl
  refine ⟨sys₃, (hreach.step .restart trivial h₂).step (.openFile 0 pathF) trivial h₃, fun hiff => ?_⟩
  obtain ⟨s, e', ⟨name, hres, hl, -⟩, hlive⟩ := hiff.mp ⟨k₄, hremove⟩
  cases (hr k₃.disk).symm.trans hres
  cases hlook.symm.trans hl
  exact hlive ⟨_, List.mem_singleton.mpr rfl, rfl⟩

namespace System

def inUse (sys : System) (s : ℤ) : ℕ :=
  (sys.fs.freeMapFile :: sys.fs.directoryFile :: sys.handles).countP (·.hdrSector = s)

/-- Every sector that has been opened has the number of its handles as its open count. -/
def Accounted (sys : System) : Prop := ∀ s c, sys.kernel.maps .openFileCount s = some c → c = sys.inUse s

lemma Stable.not_accounted {sys : System} {kind : ℤ → Option Kind} (hst : sys.Stable kind) : ¬sys.Accounted := by
  intro h
  have hpos : 0 < sys.inUse FreeMapSector :=
    List.countP_pos_iff.mpr ⟨_, List.mem_cons_self, decide_eq_true hst.sound.mapSector⟩
  have h0 := h _ _ hst.mapCount
  omega

end System

/-- No run keeps the open counts right, whatever its operations are: they are wrong after the constructor,
and in every state that regular operations reach from there. -/
theorem open_counts_never_accounted (k : Kernel) (start : System) (hb : System.boot k = .ok start) :
    (∀ ok : System → Op → Prop,
      ¬∀ sys, Reaches (fun op st st' => System.step op st = .ok st') ok start sys → sys.Accounted) ∧
    ∀ sys, Reaches (fun op st st' => System.step op st = .ok st') System.Regular start sys → ¬sys.Accounted := by
  have hall : ∀ sys, Reaches (fun op st st' => System.step op st = .ok st') System.Regular start sys →
      ¬sys.Accounted := by
    intro sys hr
    obtain ⟨kind, hst⟩ := System.Reachable.stable ⟨k, start, hb, hr⟩
    exact hst.not_accounted
  exact ⟨fun ok h => hall start .refl (h start .refl), hall⟩

theorem open_counts_not_accounted_formatted : ∃ sys, System.boot Kernel.blank = .ok sys ∧ ¬sys.Accounted := by
  obtain ⟨sys, hb, -⟩ := System.boot_spec Kernel.blank
  exact ⟨sys, hb, (open_counts_never_accounted Kernel.blank sys hb).2 sys .refl⟩

/-- After the constructor the free map's file has the open count `0` and the handle of the file system. -/
theorem free_map_not_counted :
    ∃ sys, System.boot Kernel.blank = .ok sys ∧ sys.kernel.maps .openFileCount FreeMapSector = some 0 ∧
      0 < sys.inUse FreeMapSector ∧ ¬sys.Accounted := by
  obtain ⟨sys, hb, -, hst, -⟩ := System.boot_spec Kernel.blank
  exact ⟨sys, hb, hst.mapCount,
    List.countP_pos_iff.mpr ⟨_, List.mem_cons_self, decide_eq_true hst.sound.mapSector⟩,
    hst.not_accounted⟩

end NachosFileSys
