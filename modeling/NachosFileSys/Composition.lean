import NachosFileSys.CutEntries

namespace NachosFileSys

open Lib.Programs Lib.Bytes Lib.Runs

lemma chars_inside (p q : CString) : chars (inside p q) = chars p ++ 0x2f#8 :: chars q := by
  have hp : ∀ a ∈ chars p, decide (a ≠ 0) = true :=
    fun a ha => List.mem_takeWhile_imp (p := fun a => decide (a ≠ 0)) ha
  rw [inside, chars, List.takeWhile_append_of_pos hp, List.takeWhile_cons_of_pos (by decide)]
  rfl

lemma components_join (p q : CString) : components (inside p q) = components p ++ components q := by
  rw [components, chars_inside, List.splitOn_append_cons_self]
  rfl

lemma resolve_append_eq (d : Disk) {names' : List CString} (hne' : names' ≠ []) (names : List CString) : ∀ wd : ℤ,
    names ≠ [] → resolve d (names ++ names') wd =
      (resolve d names wd).bind fun r =>
        match lookupIn d r.1 r.2 with
        | some e => if e.isDir ≠ 0 then resolve d names' e.sector.toInt else none
        | none => none := by
  induction names with
  | nil => exact fun wd hne => absurd rfl hne
  | cons dirname rest ih =>
    intro wd _
    cases rest with
    | nil =>
      obtain ⟨name', rest', rfl⟩ := List.exists_cons_of_ne_nil hne'
      exact resolve_cons_cons d dirname name' rest' wd
    | cons name rest =>
      rw [List.cons_append, List.cons_append, resolve_cons_cons, resolve_cons_cons]
      cases lookupIn d wd dirname with
      | none => rfl
      | some e =>
        dsimp only
        split
        · exact ih _ (List.cons_ne_nil _ _)
        · rfl

lemma directoryAt_of_none {d : Disk} {path : CString} {wd : ℤ} (h : resolve d (components path) wd = none) :
    directoryAt d path wd = -1 := by
  rw [directoryAt, h]

lemma directoryAt_of_some {d : Disk} {path name : CString} {wd s : ℤ}
    (h : resolve d (components path) wd = some (s, name)) :
    directoryAt d path wd = (lookupIn d s name).elim (-1) fun e => if e.isDir ≠ 0 then e.sector.toInt else -1 := by
  rw [directoryAt, h]
  dsimp only
  cases lookupIn d s name <;> rfl

namespace Sound

variable {fs : FileSystem} {d : Disk} {kind : ℤ → Option Kind} {wd : ℤ}

lemma resolve_join (hs : Sound fs d kind) (hwd : kind wd = some .dir) (p q : CString) :
    resolve d (components (inside p q)) wd =
      if 0 ≤ directoryAt d p wd then resolve d (components q) (directoryAt d p wd) else none := by
  rw [components_join, resolve_append_eq d (components_ne_nil q) _ _ (components_ne_nil p)]
  cases hr : resolve d (components p) wd with
  | none =>
    rw [directoryAt_of_none hr]
    rfl
  | some r =>
    obtain ⟨s, name⟩ := r
    rw [directoryAt_of_some hr, Option.bind_some]
    dsimp only
    cases hl : lookupIn d s name with
    | none => rfl
    | some e =>
      dsimp only [Option.elim_some]
      by_cases hdir : e.isDir ≠ 0
      · have hin := hs.inDisk (hs.kind_of_isDir (hs.kind_of_resolve _ hwd hr) hl hdir)
        simp only [if_pos hdir, if_pos hin.1]
      · simp only [if_neg hdir]
        rfl

end Sound

structure Composes (p q : CString) (wd : ℤ) (k₁ k₂ k₃ : Kernel) (s : ℤ) : Prop where
  changes : ∃ k, exec (FileSystem.changeDir p wd) k₁ = .ok (s, k)
  found : 0 ≤ s → ∃ r r' k k', exec (parsePath q s) k₂ = .ok (r, k) ∧
    exec (parsePath (inside p q) wd) k₃ = .ok (r', k') ∧ r'.1 = r.1 ∧ (0 ≤ r.1 → r'.2 = r.2)
  failed : s < 0 → s = -1 ∧ ∃ name k, exec (parsePath (inside p q) wd) k₃ = .ok ((-1, name), k)

theorem paths_compose (sys : System) (h : System.Reachable System.Regular sys) (t : ℕ) (p q : CString)
    (k₁ k₂ k₃ : Kernel) (h₁ : k₁.disk = sys.kernel.disk) (h₂ : k₂.disk = sys.kernel.disk)
    (h₃ : k₃.disk = sys.kernel.disk) : ∃ s, Composes p q (sys.wd t) k₁ k₂ k₃ s := by
  obtain ⟨kind, hst⟩ := h.stable
  have hs := hst.sound
  have hwd := hst.wd t
  obtain ⟨k₁', hc, -⟩ := hs.exec_changeDir hwd h₁ p
  obtain ⟨k₃', hw₃, -⟩ := hs.exec_walk (components (inside p q)) hwd h₃
  have hjoin := hs.resolve_join hwd p q
  refine ⟨directoryAt sys.kernel.disk p (sys.wd t), ⟨k₁', hc⟩, fun hpos => ?_, fun hneg => ?_⟩
  · have hkind := (hs.kind_of_directoryAt hwd p).resolve_left (by omega)
    obtain ⟨k₂', hw₂, -⟩ := hs.exec_walk (components q) hkind h₂
    rw [hjoin, if_pos hpos] at hw₃
    exact ⟨_, _, k₂', k₃', hw₂, hw₃, rfl, fun _ => rfl⟩
  · rw [hjoin, if_neg (by omega)] at hw₃
    have hnone := (hs.kind_of_directoryAt hwd p).resolve_right fun hkind => by
      have := (hs.inDisk hkind).1
      omega
    exact ⟨hnone, [], k₃', hw₃⟩

theorem paths_compose_made : ∃ (sys : System) (s : ℤ), System.Reachable System.Regular sys ∧
    Composes bin pathF (sys.wd 0) sys.kernel sys.kernel sys.kernel s := by
  obtain ⟨sys₀, sys, kind, s, hb, hstep, -⟩ := System.boot_makeDir
  have hreach : System.Reachable System.Regular sys :=
    ⟨Kernel.blank, sys₀, hb, .step (.makeDir 0 bin 0) .refl ⟨by decide, Or.inl le_rfl⟩ hstep⟩
  obtain ⟨s, hs⟩ := paths_compose sys hreach 0 bin pathF sys.kernel sys.kernel sys.kernel rfl rfl rfl
  exact ⟨sys, s, hreach, hs⟩

abbrev nineX : CString := List.replicate 9 0x78

lemma exec_walk_through {k : Kernel} {s : ℤ} {e : DirectoryEntry} {c : Byte} (hd : DirAt k.disk s)
    (hmap : s ≠ FreeMapSector) (hk : k.Filled c) {dirname : CString} (hl : lookupIn k.disk s dirname = some e)
    (hdir : e.isDir ≠ 0) (name : CString) (rest : List CString) :
    ∃ k', exec (walk (dirname :: name :: rest) s) k = exec (walk (name :: rest) e.sector.toInt) k' ∧
      k'.disk = k.disk ∧ k'.Filled c := by
  obtain ⟨dir, k₁, h₁, hd₁, -, hlen, hnew⟩ := Directory.exec_new k
  obtain ⟨k₂, h₂, hd₂, -⟩ := OpenFile.exec_new hd.file.inDisk k₁
  rw [hd₁] at h₂ hd₂
  have hcur : (OpenFile.mk (hdrAt k.disk s) 0 s).Current k₂.disk := by
    rw [hd₂]
    rfl
  obtain ⟨dir', h₃, hload⟩ := Directory.exec_fetch (by rw [hd₂]; exact hd) hcur rfl hlen hnew
  obtain ⟨k₃, h₄, hd₃, -⟩ := OpenFile.exec_close ⟨hdrAt k.disk s, 0, s⟩ hmap k₂
  rw [hd₂] at hload
  refine ⟨k₃, ?_, hd₃.trans hd₂, ((hk.of_exec _ h₁).of_exec _ h₂).of_exec _ h₄⟩
  have hfind : dir'.find dirname = e.sector.toInt := by
    rw [hload.find_eq, hl]
    rfl
  have his : dir'.isDirectory dirname = true := by
    rw [hload.isDirectory_eq, hl]
    simpa using hdir
  rw [walk, exec_bind_of_ok h₁, exec_bind_of_ok h₂, exec_bind_of_ok h₃, if_pos his, exec_bind_of_ok h₄, hfind]
  simp

lemma CutDirectory.entryNamed_eq {e : DirectoryEntry} {rest : List DirectoryEntry} {c : Byte} (hu : e.inUse = 1)
    (hn : e.name = Vector.replicate 10 c) (hrest : ∀ e' ∈ rest, e'.inUse = 0) (name : CString) :
    Directory.entryNamed ⟨e :: rest⟩ name = if key (List.replicate 10 c) = key name then some e else none := by
  have hkey : key e.name.toList = key (List.replicate 10 c) := by rw [hn, Vector.toList_replicate]
  rw [Directory.entryNamed]
  split
  · exact List.find?_cons_of_pos (named_iff.mpr ⟨by rw [hu]; decide, by rw [hkey]; assumption⟩)
  · rw [List.find?_cons_of_neg, List.find?_eq_none]
    · exact fun e' he' h => (named_iff.mp h).1 (hrest e' he')
    · intro h
      have := (named_iff.mp h).2
      rw [hkey] at this
      contradiction

lemma CutDirectory.exec_changeDir {d : Disk} {i : ℤ} (h : CutDirectory d i)
    {c : Byte} {k : Kernel} (hd : k.disk = d)
    (hk : k.Filled c) {name : CString} (hname : key (List.replicate 10 c) = key name) {path : CString} {wd : ℤ}
    {k₀ : Kernel} (hp : exec (parsePath path wd) k₀ = .ok ((i, name), k)) :
    ∃ k', exec (FileSystem.changeDir path wd) k₀ = .ok (i, k') := by
  subst hd
  obtain ⟨k₁, h₁, hd₁, -⟩ := OpenFile.exec_new h.file.inDisk k
  obtain ⟨dir, k₂, h₂, hd₂, hf₂, hblank⟩ := Directory.exec_new_filled (hk.of_exec _ h₁)
  obtain ⟨e, rest, h₃, hu, hdir, hsec, hn, hrest⟩ := h.exec_fetchFrom (hd₂.trans hd₁) hblank
  obtain ⟨k₃, h₄, -⟩ := OpenFile.exec_close ⟨hdrAt k.disk i, 0, i⟩ h.notMap k₂
  have hentry := CutDirectory.entryNamed_eq hu hn hrest name
  rw [if_pos hname] at hentry
  have hfind : Directory.find ⟨e :: rest⟩ name = i := by
    rw [Directory.find, hentry]
    exact hsec
  have his : Directory.isDirectory ⟨e :: rest⟩ name = true := by
    rw [Directory.isDirectory, hentry]
    simp [hdir]
  refine ⟨k₃, ?_⟩
  rw [FileSystem.changeDir, exec_bind_of_ok hp]
  dsimp only
  rw [if_neg (not_lt.mpr h.file.inDisk.1), exec_bind_of_ok h₁, fetchDirectory, exec_bind, exec_bind_of_ok h₂, h₃]
  dsimp only
  rw [exec_bind_of_ok h₄, exec_pure, if_pos his, hfind]

lemma CutDirectory.exec_walk {d : Disk} {i : ℤ} (h : CutDirectory d i) {c : Byte} {k : Kernel} (hd : k.disk = d)
    (hk : k.Filled c) {dirname : CString} (hname : key (List.replicate 10 c) ≠ key dirname) (name : CString)
    (rest : List CString) : ∃ k', exec (walk (dirname :: name :: rest) i) k = .ok ((-1, []), k') := by
  subst hd
  obtain ⟨dir, k₁, h₁, hd₁, hf₁, hblank⟩ := Directory.exec_new_filled hk
  obtain ⟨k₂, h₂, hd₂, -⟩ := OpenFile.exec_new h.file.inDisk k₁
  rw [hd₁] at h₂ hd₂
  obtain ⟨e, rest', h₃, hu, hdir, hsec, hn, hrest⟩ := h.exec_fetchFrom hd₂ hblank
  have hentry := CutDirectory.entryNamed_eq hu hn hrest dirname
  rw [if_neg hname] at hentry
  refine ⟨k₂, ?_⟩
  have his : Directory.isDirectory ⟨e :: rest'⟩ dirname = false := by
    rw [Directory.isDirectory, hentry]
  rw [walk, exec_bind_of_ok h₁, exec_bind_of_ok h₂, exec_bind_of_ok h₃, if_neg (by rw [his]; decide), exec_pure]
  simp

/-- What the heap holds when the cut directory is read decides where the path leads. -/
theorem paths_differ : ¬∀ (sys : System), System.Reachable (fun _ _ => True) sys → ∀ (t : ℕ) (p q : CString)
    (k₁ k₂ k₃ : Kernel), k₁.disk = sys.kernel.disk → k₂.disk = sys.kernel.disk → k₃.disk = sys.kernel.disk →
    ∃ s, Composes p q (sys.wd t) k₁ k₂ k₃ s := by
  intro hall
  obtain ⟨sys₀, sys, i, e, hb, hstep, hwd, hroot, hlook, rfl, hdir, -, hcut⟩ := System.boot_cut
  have hreach : System.Reachable (fun _ _ => True) sys := ⟨Kernel.blank, sys₀, hb, .step _ .refl trivial hstep⟩
  have hne : DirectorySector ≠ FreeMapSector := by decide
  have hsub : e.isDir ≠ 0 := by
    rw [hdir]
    decide
  -- the heap holds the name when `ChangeDir` reads the directory, and zeros when `parse_path` does
  let k₁ : Kernel := ⟨sys.kernel.disk, sys.kernel.maps, fun _ => 0x78⟩
  let k₃ : Kernel := ⟨sys.kernel.disk, sys.kernel.maps, fun _ => 0⟩
  have hf₁ : k₁.Filled 0x78 := fun _ => rfl
  have hf₃ : k₃.Filled 0 := fun _ => rfl
  obtain ⟨s, ⟨k, hchange⟩, hfound, -⟩ := hall sys hreach 0 (inside bin nineX) pathF k₁ sys.kernel k₃ rfl rfl rfl
  rw [hwd] at hchange hfound
  have hs : s = e.sector.toInt := by
    obtain ⟨k', hwalk, hd, hf⟩ := exec_walk_through (k := k₁) hroot hne hf₁ hlook hsub nineX []
    have hparse : exec (parsePath (inside bin nineX) DirectorySector) k₁ = .ok ((e.sector.toInt, nineX), k') := by
      rw [parsePath, show components (inside bin nineX) = [bin, nineX] by decide, hwalk]
      rfl
    obtain ⟨k'', hc⟩ := hcut.exec_changeDir hd hf (by decide) hparse
    rw [hc] at hchange
    cases hchange
    rfl
  subst hs
  obtain ⟨r, r', k₂', k₃', hq, hpq, hsec, -⟩ := hfound hcut.file.inDisk.1
  obtain ⟨k', hwalk, hd, hf⟩ := exec_walk_through (k := k₃) hroot hne hf₃ hlook hsub nineX [pathF]
  obtain ⟨k'', hend⟩ := hcut.exec_walk hd hf (show key (List.replicate 10 0) ≠ key nineX by decide) pathF []
  rw [parsePath, show components (inside (inside bin nineX) pathF) = [bin, nineX, pathF] by decide,
      hwalk, hend] at hpq
  rw [parsePath, show components pathF = [pathF] by decide] at hq
  cases hpq
  cases hq
  have := hcut.file.inDisk.1
  omega

end NachosFileSys
