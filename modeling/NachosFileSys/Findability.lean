import NachosFileSys.Ownership

namespace NachosFileSys

open Lib.Programs Lib.Bytes Lib.Runs

namespace System

variable {sys sys' : System} {kind : ℤ → Option Kind}

/-- The path leads to `name` in the directory at sector `s`, and the name stands for the file at `i`. -/
structure Names (sys : System) (path : CString) (wd s : ℤ) (name : CString) (i : ℤ) (kind : ℤ → Option Kind) :
    Prop where
  stable : sys.Stable kind
  start : kind wd = some .dir
  leads : resolve sys.kernel.disk (components path) wd = some (s, name)
  file : ∃ e, lookupIn sys.kernel.disk s name = some e ∧ e.sector.toInt = i

lemma Names.step {path name : CString} {wd s i : ℤ} (hn : sys.Names path wd s name i kind) {op : Op}
    (hop : sys.Regular op) (hrem : ¬sys.Removes op s name) (h : System.step op sys = .ok sys') :
    ∃ kind', sys'.Names path wd s name i kind' := by
  obtain ⟨kind', hst', hk, -⟩ := hn.stable.step hop h
  have hs := hn.stable.sound
  obtain ⟨e, hlook, hi⟩ := hn.file
  refine ⟨kind', hst', hk.dirs hn.start, hk.resolve hs _ hn.start hn.leads, e, ?_, hi⟩
  exact hk.lookups (hs.kind_of_resolve _ hn.start hn.leads) hlook (Or.inr hrem)

lemma Stable.names_of_create {t : ℕ} {path name : CString} {s n : ℤ} {k : Kernel} (hst : sys.Stable kind)
    (hr : resolve sys.kernel.disk (components path) (sys.wd t) = some (s, name))
    (hroom : freeSlot (tableAt sys.kernel.disk s) ≠ none)
    (hc : exec (sys.fs.create path n (sys.wd t)) sys.kernel = .ok (true, k)) :
    ∃ (i : ℕ) (kind' : ℤ → Option Kind), (freeMapAt sys.kernel.disk).free.head? = some i ∧
      Names { sys with kernel := k } path (sys.wd t) s name i kind' := by
  have hs := hst.sound
  have hwd := hst.wd t
  obtain ⟨hx, ⟨hf, -⟩ | ⟨-, s', name', i, hr', hnone, hi, -, hinst, hs'⟩⟩ := hs.create_inv hwd hc
  · cases hf
  · rw [hr] at hr'
    cases hr'
    have hmem := mem_sectors_of_head hi
    have hk := hinst.keeps (fun _ _ => False) (hs.storage.kind_of_free hmem) hnone
    obtain ⟨e, hlook, hsec, -⟩ := hinst.lookupIn_eq (inDisk_of_free hmem) hnone hroom
    have hst' := hst.of_installed hx (hs.storage.kind_of_free hmem) hnone hinst (fun h => by cases h) hs'
      (hs.kind_of_resolve _ hwd hr)
    exact ⟨i, _, hi, hst', hk.dirs hwd, hk.resolve hs _ hwd hr, e, hlook, hsec⟩

end System

/-- A file that `Create` has made where the directory file had room for its entry is found by `Open` in
every later state in which its name has not been removed and its directory can be printed. The handle is
on the sector that `Create` took for the header. -/
theorem created_file_stays_findable (sys sys' : System) (t : ℕ) (path name : CString) (s n : ℤ) (k : Kernel)
    (h : System.Reachable System.Regular sys)
    (hr : resolve sys.kernel.disk (components path) (sys.wd t) = some (s, name))
    (hroom : freeSlot (tableAt sys.kernel.disk s) ≠ none)
    (hc : exec (sys.fs.create path n (sys.wd t)) sys.kernel = .ok (true, k))
    (hrun : Reaches (fun op st st' => System.step op st = .ok st')
      (fun st op => st.Regular op ∧ ¬st.Removes op s name) { sys with kernel := k } sys')
    (hprint : Printable sys'.kernel.disk s) :
    ∃ (i : ℕ) (k' : Kernel), (freeMapAt sys.kernel.disk).free.head? = some i ∧
      exec (FileSystem.openFile path (sys.wd t)) sys'.kernel =
        .ok (some ⟨hdrAt sys'.kernel.disk i, 0, i⟩, k') := by
  obtain ⟨kind, hst⟩ := h.stable
  obtain ⟨i, kind₁, hi, hn₁⟩ := hst.names_of_create hr hroom hc
  obtain ⟨kind', hn⟩ := hrun.invariant (I := fun st => ∃ kind', st.Names path (sys.wd t) s name i kind')
    (fun op st st' hst hop hstep => by
      obtain ⟨kind', hn⟩ := hst
      exact hn.step hop.1 hop.2 hstep) ⟨kind₁, hn₁⟩
  obtain ⟨e, hlook, hsec⟩ := hn.file
  obtain ⟨k', he, -⟩ := hn.stable.sound.exec_open_found hn.start rfl hn.leads hprint hlook
  rw [hsec] at he
  exact ⟨i, k', hi, he⟩

/-- A file of 3000 bytes in the root directory is found after a restart, when another file and a
directory have been made beside it. -/
theorem created_file_findable_restarted : ∃ (sys sys' : System) (k k' : Kernel) (i : ℕ),
    exec (sys.fs.create pathF 3000 (sys.wd 0)) sys.kernel = .ok (true, k) ∧
    Reaches (fun op st st' => System.step op st = .ok st')
      (fun st op => st.Regular op ∧ ¬st.Removes op DirectorySector pathF) { sys with kernel := k } sys' ∧
    (∃ e, lookupIn sys'.kernel.disk DirectorySector pathG = some e) ∧
    (∃ e, lookupIn sys'.kernel.disk DirectorySector bin = some e) ∧
    exec (FileSystem.openFile pathF (sys.wd 0)) sys'.kernel = .ok (some ⟨hdrAt sys'.kernel.disk i, 0, i⟩, k') := by
  obtain ⟨sys, hb, h₀, -, hnone⟩ := System.boot_atRoot Kernel.blank
  obtain ⟨i₁, k₁, he₁, -, hinst₁, h₁, -⟩ :=
    h₀.create 0 990 rfl (hnone pathF) (n := 3000) (by decide) (by decide) (by decide) (by decide)
  obtain ⟨sys₂, he₂, hd₂, h₂, -⟩ := h₁.restart
  have hnone₂ : ∀ name, key pathF ≠ key name → lookupIn sys₂.kernel.disk DirectorySector name = none :=
    fun name hne => by
    rw [hd₂]
    exact hinst₁.lookupIn_other (hnone name) hne
  obtain ⟨i₃, k₃, he₃, -, hinst₃, h₃, e₃, hlook₃, -⟩ :=
    h₂.create 0 960 rfl (hnone₂ pathG (by decide)) (n := 3000) (by decide) (by decide) (by decide) (by decide)
  have hnone₃ := hinst₃.lookupIn_other (hnone₂ bin (by decide)) (by decide)
  obtain ⟨i₄, k₄, he₄, hinst₄, h₄, hfresh, e₄, hlook₄, -⟩ := h₃.makeDir 0 950 rfl hnone₃ (n := 200) (by decide)
    (.inr (.inl (by decide))) (by decide) (by decide) (by decide)
  have hkept := (hinst₄.keeps (fun _ _ => False) hfresh hnone₃).lookups h₃.sound.names.root hlook₃ (.inr id)
  have hstay : ∀ {st : System} {op : Op}, (∀ t path, op ≠ .remove t path) →
      ¬st.Removes op DirectorySector pathF := by
    rintro st op hne ⟨t, path, -, -, rfl, -⟩
    exact hne t path rfl
  have hrestarted : Reaches (fun op st st' => System.step op st = .ok st')
      (fun st op => st.Regular op ∧ ¬st.Removes op DirectorySector pathF) { sys with kernel := k₁ } sys₂ :=
    .step .restart .refl ⟨trivial, hstay nofun⟩ he₂
  have hcreate : sys₂.Regular (.create 0 pathG 3000) := show int32 3000 = 3000 by decide
  have hmake : System.Regular { sys₂ with kernel := k₃ } (.makeDir 0 bin 200) :=
    ⟨by decide, .inr (.inl (by decide))⟩
  have hrun := (hrestarted.step (.create 0 pathG 3000) ⟨hcreate, hstay nofun⟩ (System.step_create he₃)).step
    (.makeDir 0 bin 200)
    ⟨hmake, hstay nofun⟩ (System.step_makeDir he₄)
  obtain ⟨i, k', -, ho⟩ :=
    created_file_stays_findable sys { sys₂ with kernel := k₄ } 0 pathF pathF DirectorySector 3000 k₁
    ⟨Kernel.blank, sys, hb, .refl⟩ (h₀.resolve 0 rfl)
    (freeSlot_ne_none (lt_of_lt_of_le (by decide) h₀.room)) he₁ hrun h₄.printable
  exact ⟨sys, _, k₁, k', i, he₁, hrun, ⟨e₃, hkept⟩, ⟨e₄, hlook₄⟩, ho⟩

lemma System.boot_create :
    ∃ (sys : System) (k : Kernel) (i : ℕ), System.boot Kernel.blank = .ok sys ∧ Formatted sys.fs sys.kernel.disk ∧
      sys.Stable formatted ∧ (∀ t, sys.wd t = DirectorySector) ∧
      exec (sys.fs.create pathF 0 (sys.wd 0)) sys.kernel = .ok (true, k) ∧ Extends sys.kernel.maps k.maps ∧
      (freeMapAt sys.kernel.disk).free.head? = some i ∧
      Installed sys.kernel.disk formatted DirectorySector pathF i 0 .plain 0 k.disk ∧
      Sound sys.fs k.disk (Function.update formatted i (some .plain)) ∧ FirstCounts sys.kernel.maps := by
  obtain ⟨sys, hb, hf, hst, hwd, hcounts⟩ := System.boot_spec Kernel.blank
  have hfree := hf.free
  have hres : resolve sys.kernel.disk (components pathF) (sys.wd 0) = some (DirectorySector, pathF) := by
    rw [hwd]
    rfl
  obtain ⟨i, k, hi, he, hx, -, hinst, hs'⟩ :=
    hst.sound.exec_create_succeeds (hst.wd 0) rfl hres (hf.lookupIn_root _) (n := 0)
    (by rw [sectorsNeeded_zero]; decide) (by rw [sectorsNeeded_zero, newBlocks_zero]; omega)
  exact ⟨sys, k, i, hb, hf, hst, hwd, he, hx, hi, hinst, hs' (hst.nextWhole rfl), hcounts⟩

abbrev binF : CString := [0x62, 0x69, 0x6e, 0x2f, 0x66]

lemma System.boot_makeDir :
    ∃ (sys sys' : System) (kind : ℤ → Option Kind) (s : ℤ), System.boot Kernel.blank = .ok sys ∧
      System.step (.makeDir 0 bin 0) sys = .ok sys' ∧ sys'.Stable kind ∧
      (∀ wd, wd = sys'.wd 0 → resolve sys'.kernel.disk (components binF) wd = some (s, [0x66])) ∧
      tableAt sys'.kernel.disk s = [] ∧ 0 < (freeMapAt sys'.kernel.disk).free.length := by
  obtain ⟨sys, hb, hf, hst, hwd, -⟩ := System.boot_spec Kernel.blank
  have hs := hst.sound
  have hroot : formatted (sys.wd 0) = some .dir := by rw [hwd]; rfl
  have hres : resolve sys.kernel.disk (components bin) (sys.wd 0) = some (DirectorySector, bin) := by
    rw [hwd]
    rfl
  have hnone := hf.lookupIn_root bin
  have hfree := hf.free
  obtain ⟨i, k', old, old', new, hi, he, hx, hinst, -, -, hs'⟩ :=
    hs.exec_makeDir_succeeds hroot rfl hres hnone (n := 0) (by decide)
    (by rw [sectorsNeeded_zero]; decide) (by rw [sectorsNeeded_zero, newBlocks_zero]; omega)
  have hroom := freeSlot_of_unused (by rw [hf.slots]; decide) hf.unused
  have hmem := mem_sectors_of_head hi
  obtain ⟨e, hlook, hsec, hdir⟩ := hinst.lookupIn_eq (inDisk_of_free hmem) hnone hroom
  have huncut : ¬Cuts 0 := fun h => absurd h.1 (lt_irrefl _)
  have hlen := hinst.numBytes (by decide)
  refine ⟨sys, { sys with kernel := k' }, _, i, hb, ?_,
    hst.of_installed hx (hs.storage.kind_of_free hmem) hnone hinst
    (fun _ => by rw [hlen]; exact huncut) (hs' fun h => absurd h huncut) rfl, fun wd h => ?_, ?_, ?_⟩
  · rw [System.step, he]
    rfl
  · have hcomp : components binF = [bin, [0x66]] := by decide
    dsimp only at h ⊢
    rw [h, hwd, hcomp, resolve_cons_cons, hlook]
    dsimp only
    rw [if_pos (by rw [hdir]; decide), hsec]
    rfl
  · dsimp only
    rw [tableAt, hlen]
    rfl
  · have hcount := hinst.free
    rw [sectorsNeeded_zero, newBlocks_zero] at hcount
    dsimp only
    omega

/-- In a directory of size `0` a file is created, and at once it cannot be found. -/
theorem created_file_lost :
    ∃ (sys : System) (k k' : Kernel), System.Reachable System.Regular sys ∧
      exec (sys.fs.create binF 0 (sys.wd 0)) sys.kernel = .ok (true, k) ∧
      exec (FileSystem.openFile binF (sys.wd 0)) k = .ok (none, k') := by
  obtain ⟨sys₀, sys, kind, s, hb, hstep, hst, hres, htab, hfree⟩ := System.boot_makeDir
  have hs := hst.sound
  have hres := hres _ rfl
  have hnone : lookupIn sys.kernel.disk s [0x66] = none := by rw [lookupIn, htab]; rfl
  obtain ⟨i, k, hi, he, hx, -, hinst, hs'⟩ := hs.exec_create_succeeds (hst.wd 0) rfl hres hnone (n := 0)
    (by rw [sectorsNeeded_zero]; decide) (by rw [sectorsNeeded_zero, newBlocks_zero]; omega)
  have hk := hinst.keeps (fun _ _ => False) (hs.storage.kind_of_free (mem_sectors_of_head hi)) hnone
  have htab' : tableAt k.disk s = [] := by rw [hinst.table, htab]; rfl
  have hs' := hs' (hst.nextWhole (hs.kind_of_resolve _ (hst.wd 0) hres))
  obtain ⟨k', ho, -⟩ := hs'.exec_open_absent (hk.dirs (hst.wd 0)) rfl (hk.resolve hs _ (hst.wd 0) hres)
    (fun e he => by simp [htab'] at he) (by rw [lookupIn, htab']; rfl)
  exact ⟨sys, k, k',
      ⟨Kernel.blank, sys₀, hb, .step (.makeDir 0 bin 0) .refl ⟨by decide, Or.inl le_rfl⟩ hstep⟩, he, ho⟩

end NachosFileSys
