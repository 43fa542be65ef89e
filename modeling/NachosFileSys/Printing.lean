import NachosFileSys.Navigation

namespace NachosFileSys

open Lib.Programs Lib.Bytes Lib.Runs

/-- `Open` returns, so every index is inside its table, every sector number is one of the disk and
no `ASSERT` fails, exactly where no file in the directory that the path leads to has more data
sectors than a header has table entries. Elsewhere it indexes outside the table of a header. -/
theorem open_stays_in_headers_iff (sys : System) (h : System.Reachable System.Regular sys)
    (t : ℕ) (path : CString) :
    ((∃ (file : Option OpenFile) (k : Kernel), exec (FileSystem.openFile path (sys.wd t)) sys.kernel =
    .ok (file, k)) ↔
      ∀ s name, resolve sys.kernel.disk (components path) (sys.wd t) = some (s, name) →
        Printable sys.kernel.disk s) ∧
    ∀ x, exec (FileSystem.openFile path (sys.wd t)) sys.kernel = .error x → x = .index := by
  obtain ⟨kind, hst⟩ := h.stable
  have hs := hst.sound
  have hwd := hst.wd t
  cases hr : resolve sys.kernel.disk (components path) (sys.wd t) with
  | none =>
    obtain ⟨k, ho, -⟩ := hs.exec_open_none hwd rfl hr
    refine ⟨⟨fun _ s name hl => (by cases hl), fun _ => ⟨none, k, ho⟩⟩, fun x hx => ?_⟩
    rw [ho] at hx
    cases hx
  | some r =>
    obtain ⟨s, name⟩ := r
    by_cases hp : Printable sys.kernel.disk s
    · obtain ⟨file, k, ho⟩ : ∃ (file : Option OpenFile) (k : Kernel),
          exec (FileSystem.openFile path (sys.wd t)) sys.kernel = .ok (file, k) := by
        cases hlook : lookupIn sys.kernel.disk s name with
        | none =>
          obtain ⟨k, ho, -⟩ := hs.exec_open_absent hwd rfl hr hp hlook
          exact ⟨none, k, ho⟩
        | some e =>
          obtain ⟨k, ho, -⟩ := hs.exec_open_found hwd rfl hr hp hlook
          exact ⟨_, k, ho⟩
      refine ⟨⟨fun _ s' name' hl => ?_, fun _ => ⟨file, k, ho⟩⟩, fun x hx => ?_⟩
      · cases hl
        exact hp
      · rw [ho] at hx
        cases hx
    · have ho := hs.exec_open_outside hwd rfl hr hp
      refine ⟨⟨fun hopen => ?_, fun hall => absurd (hall s name rfl) hp⟩, fun x hx => ?_⟩
      · obtain ⟨file, k, hok⟩ := hopen
        rw [ho] at hok
        cases hok
      · rw [ho] at hx
        cases hx
        rfl

lemma System.boot_created {n : ℤ} (hint : int32 n = n) (hfew : sectorsNeeded n ≤ 928) :
    ∃ sys : System, System.Reachable System.Regular sys ∧ sys.wd 0 = DirectorySector ∧
      (Printable sys.kernel.disk DirectorySector ↔ int32 (divRoundUp n SectorSize) ≤ (NumDirect : ℤ)) := by
  obtain ⟨sys, hb, hf, hst, hwd, -⟩ := System.boot_spec Kernel.blank
  have hs := hst.sound
  have hfree := hf.free
  have hres : resolve sys.kernel.disk (components pathF) (sys.wd 0) = some (DirectorySector, pathF) := by
    rw [hwd]
    rfl
  have hblocks : newBlocks 0 (sectorsNeeded n) ≤ 29 := by
    rw [newBlocks]
    omega
  obtain ⟨i, k, hi, he, -, -, hinst, -⟩ :=
    hs.exec_create_succeeds (hst.wd 0) rfl hres (hf.lookupIn_root _) (n := n)
    hfew (by omega)
  have hin := inDisk_of_free (mem_sectors_of_head hi)
  refine ⟨{ sys with kernel := k }, ⟨Kernel.blank, sys, hb, .step (.create 0 pathF n) .refl hint ?_⟩,
      hwd 0, ?_, ?_⟩
  · rw [System.step, he]
    rfl
  · exact fun hp => (hinst.small_of_printable hs hs.names.root hin
      (freeSlot_of_unused (by rw [hf.slots]; decide) hf.unused) hp).2
  · exact fun hn => hinst.printable hs hs.names.root hin hn fun e he hu => absurd (hf.unused e he) hu

theorem open_stays_in_headers_small : ∃ sys : System, System.Reachable System.Regular sys ∧
    ∃ (file : Option OpenFile) (k : Kernel), exec (FileSystem.openFile pathF (sys.wd 0)) sys.kernel =
    .ok (file, k) := by
  obtain ⟨sys, h, hwd, hp⟩ := System.boot_created (n := 3712) (by decide) (by decide)
  refine ⟨sys, h, (open_stays_in_headers_iff sys h 0 pathF).1.mpr fun s name hr => ?_⟩
  rw [hwd] at hr
  cases hr
  exact hp.mpr (by decide)

/-- One file of thirty data sectors, and `Open` leaves the table of its header. -/
theorem open_leaves_header : ¬∀ (sys : System) (t : ℕ) (path : CString), System.Reachable System.Regular sys →
    ∃ (file : Option OpenFile) (k : Kernel), exec (FileSystem.openFile path (sys.wd t)) sys.kernel =
    .ok (file, k) := by
  intro hall
  obtain ⟨sys, h, hwd, hp⟩ := System.boot_created (n := 3840) (by decide) (by decide)
  obtain ⟨kind, hst⟩ := h.stable
  obtain ⟨file, k, ho⟩ := hall sys 0 pathF h
  have hres : resolve sys.kernel.disk (components pathF) (sys.wd 0) = some (DirectorySector, pathF) := by
    rw [hwd]
    rfl
  rw [hst.sound.exec_open_outside (hst.wd 0) rfl hres fun hprint => absurd (hp.mp hprint) (by decide)] at ho
  cases ho

end NachosFileSys
