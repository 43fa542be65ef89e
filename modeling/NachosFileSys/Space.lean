import NachosFileSys.OpenCounts

namespace NachosFileSys

open Lib.Programs Lib.Bytes Lib.Runs

/-- A new file of `n` bytes needs more than there is: its data sectors, their indirect blocks and the
header exceed the `free` sectors, or the data sectors exceed what a header can hold. -/
def Lacks (n : ℤ) (free : ℕ) : Prop :=
  free < sectorsNeeded n + newBlocks 0 (sectorsNeeded n) + 1 ∨ NumDirect * MaxSector < sectorsNeeded n

def Reported (p : Nachos Bool) (k : Kernel) (lacks : Prop) : Prop :=
  ∃ b k', exec p k = .ok (b, k') ∧ (b = false ↔ lacks)

def WriteReported (p : Nachos (ℤ × OpenFile)) (n : ℕ) (k : Kernel) (lacks : Prop) : Prop :=
  ∃ r f k', exec p k = .ok ((r, f), k') ∧ (r < n ↔ lacks)

def Decided (n : ℤ) (free : ℕ) : Prop :=
  free ≤ sectorsNeeded n ∨
    sectorsNeeded n ≤ NumDirect * MaxSector ∧ sectorsNeeded n + newBlocks 0 (sectorsNeeded n) < free

namespace Sound

variable {fs : FileSystem} {kind : ℤ → Option Kind} {wd s n : ℤ} {path name : CString} {k : Kernel}

lemma create_reported_iff (hs : Sound fs k.disk kind) (hwd : kind wd = some .dir)
    (hr : resolve k.disk (components path) wd = some (s, name)) (hnone : lookupIn k.disk s name = none) :
    Reported (fs.create path n wd) k (Lacks n (freeMapAt k.disk).free.length) ↔
      Decided n (freeMapAt k.disk).free.length := by
  constructor
  · rintro ⟨b, k', he, -⟩
    by_contra hd
    simp only [Decided, NumDirect, MaxSector, not_or] at hd
    rw [hs.exec_create_aborts hwd rfl hr hnone (by omega) hd.2] at he
    cases he
  · rintro (hfew | ⟨hcap, hfree⟩)
    · obtain ⟨k', he, -⟩ := hs.exec_create_refused hwd rfl hr hnone hfew
      exact ⟨false, k', he, iff_of_true rfl (Or.inl (by omega))⟩
    · obtain ⟨i, k', -, he, -⟩ := hs.exec_create_succeeds hwd rfl hr hnone hcap hfree
      refine ⟨true, k', he, iff_of_false (by simp) ?_⟩
      simp only [Lacks]
      omega

lemma makeDir_reported_iff (hs : Sound fs k.disk kind) (hwd : kind wd = some .dir)
    (hr : resolve k.disk (components path) wd = some (s, name)) (hnone : lookupIn k.disk s name = none)
    (hn : int32 n = n) :
    Reported (fs.makeDir path n wd) k (Lacks n (freeMapAt k.disk).free.length) ↔
      Decided n (freeMapAt k.disk).free.length := by
  constructor
  · rintro ⟨b, k', he, -⟩
    by_contra hd
    simp only [Decided, NumDirect, MaxSector, not_or] at hd
    rw [hs.exec_makeDir_aborts hwd rfl hr hnone (by omega) hd.2] at he
    cases he
  · rintro (hfew | ⟨hcap, hfree⟩)
    · obtain ⟨k', he, -⟩ := hs.exec_makeDir_refused hwd rfl hr hnone hfew
      exact ⟨false, k', he, iff_of_true rfl (Or.inl (by omega))⟩
    · obtain ⟨i, k', old, old', new, -, he, -⟩ := hs.exec_makeDir_succeeds hwd rfl hr hnone hn hcap hfree
      refine ⟨true, k', he, iff_of_false (by simp) ?_⟩
      simp only [Lacks]
      omega

lemma write_reported_iff (hs : Sound fs k.disk kind) {f : OpenFile} (hk : kind f.hdrSector = some .plain)
    (hf : f.Current k.disk) (hb : PlainBacked k.disk kind) (hsem : k.maps .semaphoreWrite f.hdrSector = some 1)
    {src : List Byte} {n p : ℕ} (hp : f.seekPosition = p) (hle : (p : ℤ) ≤ f.length) (hpn : p + n < 2147483648)
    (hsrc : n ≤ src.length) :
    WriteReported (OpenFile.write fs.freeMapFile f src n) n k
      (f.length < p + n ∧ ¬Fits (dataAt k.disk f.hdrSector).length n (freeMapAt k.disk).free.length) ↔
      (p + n : ℤ) ≤ f.length ∨ Fits (dataAt k.disk f.hdrSector).length n (freeMapAt k.disk).free.length := by
  by_cases hok : (p + n : ℤ) ≤ f.length ∨ Fits (dataAt k.disk f.hdrSector).length n (freeMapAt k.disk).free.length
  · obtain ⟨f', k', he⟩ := hs.exec_write hk hf hb hsem hp hle hpn hsrc hok
    refine iff_of_true ⟨_, _, k', he, iff_of_false (lt_irrefl _) ?_⟩ hok
    rintro ⟨hbeyond, hfit⟩
    exact hok.elim (by omega) hfit
  · obtain ⟨hwithin, hfit⟩ := not_or.mp hok
    have hlen : f.length = f.hdr.fileLength := rfl
    have hbeyond : int32 (f.seekPosition + (n : ℤ)) > f.hdr.fileLength := by
      rw [hp, int32_of_bounds (by omega) (by omega), ← hlen]
      omega
    refine iff_of_false ?_ hok
    rintro ⟨r, f', k', he, -⟩
    rw [OpenFile.exec_write_beyond _ hbeyond] at he
    obtain ⟨g, k₁, hx, -⟩ := exec_bind_ok.mp he
    rw [OpenFile.exec_extend_aborts hs.storage hs.mapFile hs.mapSector hk
        (hf.follows (hs.storage.file hk)) hfit] at hx
    cases hx

end Sound

lemma System.Reachable.backed {sys : System}
    (h : System.Reachable (fun sys op => sys.Regular op ∧ op.Counted) sys) :
    ∃ kind, sys.Stable kind ∧ PlainBacked sys.kernel.disk kind := by
  obtain ⟨k, start, hb, hr⟩ := h
  obtain ⟨sys₀, hb₀, -, hst, -⟩ := System.boot_spec k
  rw [hb₀] at hb
  cases hb
  refine hr.invariant (I := fun s => ∃ kind, s.Stable kind ∧ PlainBacked s.kernel.disk kind)
    (fun op s t hs hop hstep => ?_) ⟨formatted, hst, fun {x} hk => ?_⟩
  · obtain ⟨kind, hs, hb⟩ := hs
    obtain ⟨kind', hs', -, hb'⟩ := hs.step hop.1 hstep
    exact ⟨kind', hs', hb' hop.2 hb⟩
  · rcases formatted_cases hk with ⟨-, hc⟩ | ⟨-, hc⟩ <;> cases hc

lemma System.Reachable.session_handle {sys : System}
    (h : System.Reachable (fun sys op => sys.Regular op ∧ op.Counted) sys)
    {t : ℕ} {path : CString} {f₀ f : OpenFile}
    {k₀ k : Kernel} {actions : List Action} (hplain : sys.OnPlainFile t path)
    (ho : exec (FileSystem.openFile path (sys.wd t)) sys.kernel = .ok (some f₀, k₀))
    (hcount : (Op.session t path actions).Counted)
    (hperf : exec (perform sys.fs.freeMapFile actions f₀) k₀ = .ok (f, k)) :
    ∃ kind, Sound sys.fs k.disk kind ∧ kind f.hdrSector = some .plain ∧
    f.Current k.disk ∧ PlainBacked k.disk kind ∧
      k.maps .semaphoreWrite f.hdrSector = some 1 := by
  obtain ⟨kind, ⟨⟨hs, hrest, hwd⟩, -⟩, hb⟩ := h.backed
  obtain ⟨hd₀, hx₀, hfound⟩ := hs.open_inv (hwd t) ho
  obtain ⟨s, name, e, hr, hlook, rfl, hkeys⟩ := hfound f₀ rfl
  have hk : kind e.sector.toInt = some .plain := by
    rw [hs.kind_of_lookupIn (hs.kind_of_resolve _ (hwd t) hr) hlook, DirectoryEntry.kind,
      if_pos (hplain s name e hr hlook)]
  have hsem := (hx₀.rests hrest).semaphoreWrite (hkeys .semaphoreWrite)
  have hcur : (OpenFile.mk (hdrAt sys.kernel.disk e.sector.toInt) 0 e.sector.toInt).Current k₀.disk := by
    rw [OpenFile.Current, hd₀]
  obtain ⟨h₁, h₂, h₃, h₄, -, h₆⟩ := perform_inv actions (by rw [hd₀]; exact hs) hk hcur hsem hperf
  rw [hd₀] at h₆
  dsimp only at h₄
  rw [← h₄] at hk hsem
  exact ⟨kind, h₁, hk, h₃, h₆ hcount hb, by rw [h₂]; exact hsem⟩

/-- When the lack of space is reported. `Create` and `MakeDir` of an absent name return as they should
if and only if the data sectors alone exceed the free sectors or everything fits; a `Write` in a session
on a plain file, at or before its end, if and only if it needs no sectors or all that it needs fit. -/
theorem space_reported_iff (sys : System)
    (h : System.Reachable (fun sys op => sys.Regular op ∧ op.Counted) sys) (t : ℕ)
    (path : CString) :
    (∀ (s n : ℤ) (name : CString), resolve sys.kernel.disk (components path) (sys.wd t) = some (s, name) →
      lookupIn sys.kernel.disk s name = none → 0 ≤ n → int32 n = n →
      (Reported (sys.fs.create path n (sys.wd t)) sys.kernel (Lacks n (freeMapAt sys.kernel.disk).free.length) ↔
        Decided n (freeMapAt sys.kernel.disk).free.length) ∧
      (Reported (sys.fs.makeDir path n (sys.wd t)) sys.kernel (Lacks n (freeMapAt sys.kernel.disk).free.length) ↔
        Decided n (freeMapAt sys.kernel.disk).free.length)) ∧
    ∀ (f₀ f : OpenFile) (k₀ k : Kernel) (actions : List Action) (src : List Byte) (n p : ℕ),
    sys.OnPlainFile t path →
      exec (FileSystem.openFile path (sys.wd t)) sys.kernel = .ok (some f₀, k₀) →
      (Op.session t path actions).Counted → exec (perform sys.fs.freeMapFile actions f₀) k₀ = .ok (f, k) →
      f.seekPosition = p → (p : ℤ) ≤ f.length → p + n < 2147483648 → n ≤ src.length →
      (WriteReported (OpenFile.write sys.fs.freeMapFile f src n) n k
        (f.length < p + n ∧ ¬Fits (dataAt k.disk f.hdrSector).length n (freeMapAt k.disk).free.length) ↔
        (p + n : ℤ) ≤ f.length ∨ Fits (dataAt k.disk f.hdrSector).length n (freeMapAt k.disk).free.length) := by
  obtain ⟨kind, ⟨⟨hs, hrest, hwd⟩, -⟩, hb⟩ := h.backed
  refine ⟨fun s n name hr hnone _ hn =>
      ⟨hs.create_reported_iff (hwd t) hr hnone, hs.makeDir_reported_iff (hwd t) hr hnone hn⟩,
    fun f₀ f k₀ k actions src n p hplain ho hcount hperf hp hle hpn hsrc => ?_⟩
  obtain ⟨kind, hs, hk, hcur, hb, hsem⟩ := h.session_handle hplain ho hcount hperf
  exact hs.write_reported_iff hk hcur hb hsem hp hle hpn hsrc

/-- On a disk with a file of 782 data sectors, 25 indirect blocks and a header, 20000 bytes more fit
and 30000 do not; and a session has room to write beyond the end of a smaller file. -/
theorem space_reported_filled :
    (∃ sys, System.Reachable (fun sys op => sys.Regular op ∧ op.Counted) sys ∧
      (freeMapAt sys.kernel.disk).free.length = 209 ∧
      Reported (sys.fs.create pathG 20000 (sys.wd 0)) sys.kernel
      (Lacks 20000 (freeMapAt sys.kernel.disk).free.length) ∧
      Reported (sys.fs.create pathG 30000 (sys.wd 0)) sys.kernel
      (Lacks 30000 (freeMapAt sys.kernel.disk).free.length) ∧
      Reported (sys.fs.makeDir pathG 30000 (sys.wd 0)) sys.kernel
      (Lacks 30000 (freeMapAt sys.kernel.disk).free.length)) ∧
    ∃ (sys : System) (f : OpenFile) (k : Kernel),
    System.Reachable (fun sys op => sys.Regular op ∧ op.Counted) sys ∧
      exec (FileSystem.openFile pathF (sys.wd 0)) sys.kernel = .ok (some f, k) ∧ f.length = 3000 ∧
      WriteReported (OpenFile.write sys.fs.freeMapFile f (List.replicate 5000 0) 5000) 5000 k
        (f.length < 0 + 5000 ∧
          ¬Fits (dataAt k.disk f.hdrSector).length 5000 (freeMapAt k.disk).free.length) := by
  obtain ⟨start, hb, h₀, hfree, hnone⟩ := System.boot_atRoot Kernel.blank
  have hstart : System.Reachable (fun sys op => sys.Regular op ∧ op.Counted) start :=
    ⟨Kernel.blank, start, hb, .refl⟩
  constructor
  · have hneed : sectorsNeeded 100000 = 782 := by decide
    have hnew : newBlocks 0 782 = 25 := rfl
    obtain ⟨i, k, -, he, -, -, hinst, -⟩ :=
      h₀.sound.exec_create_succeeds (h₀.wd 0) rfl (h₀.resolve 0 rfl) (hnone pathF)
      (n := 100000) (by rw [hneed]; decide) (by rw [hneed, hnew]; omega)
    have hreach :=
      hstart.step (.create 0 pathF 100000) ⟨show int32 100000 = 100000 by decide, trivial⟩ (System.step_create he)
    have hleft : (freeMapAt k.disk).free.length = 209 := by
      have hcount := hinst.free
      rw [hneed, hnew] at hcount
      omega
    have hnoneG := hinst.lookupIn_other (hnone pathG) (by decide)
    have hres : resolve k.disk (components pathG) (start.wd 0) = some (DirectorySector, pathG) := by
      rw [h₀.wdRoot]
      rfl
    have hiff := (space_reported_iff { start with kernel := k } hreach 0 pathG).1
    have hneed₂ : sectorsNeeded 20000 = 157 := by decide
    have hnew₂ : newBlocks 0 157 = 5 := rfl
    have hneed₃ : sectorsNeeded 30000 = 235 := by decide
    have hfits : Decided 20000 (freeMapAt k.disk).free.length := by
      rw [Decided, hneed₂, hnew₂, hleft]
      decide
    have hfew : Decided 30000 (freeMapAt k.disk).free.length := by
      rw [Decided, hneed₃, hleft]
      decide
    exact ⟨_, hreach, hleft, (hiff _ 20000 _ hres hnoneG (by decide) (by decide)).1.mpr hfits,
      (hiff _ 30000 _ hres hnoneG (by decide) (by decide)).1.mpr hfew,
      (hiff _ 30000 _ hres hnoneG (by decide) (by decide)).2.mpr hfew⟩
  · obtain ⟨i, k₁, he, -, hinst, h₁, e, hlook, hsec, hplain⟩ :=
      h₀.create 0 990 rfl (hnone pathF) (n := 3000) (by decide) (by decide) (by decide) (by decide)
    have hreach :=
      hstart.step (.create 0 pathF 3000) ⟨show int32 3000 = 3000 by decide, trivial⟩ (System.step_create he)
    have hres : resolve k₁.disk (components pathF) (start.wd 0) = some (DirectorySector, pathF) := h₁.resolve 0 rfl
    obtain ⟨k₂, ho, hd₂, -⟩ := h₁.sound.exec_open_found (h₁.wd 0) rfl hres h₁.printable hlook
    have hon : System.OnPlainFile { start with kernel := k₁ } 0 pathF := fun s name e' hr hl => by
      cases hres.symm.trans hr
      cases hlook.symm.trans hl
      exact hplain
    have hlen : (hdrAt k₁.disk e.sector.toInt).fileLength = 3000 := by
      rw [hsec]
      exact hinst.numBytes (by decide)
    have hdata : (dataAt k₁.disk e.sector.toInt).length = 24 := by
      rw [hsec]
      exact hinst.data
    have hfits : Fits 24 (5000 : ℕ) (freeMapAt k₁.disk).free.length := by
      have hleft := h₁.free
      have hneed : sectorsNeeded (5000 : ℕ) = 40 := by decide
      have hnew : newBlocks 24 40 = 1 := rfl
      rw [Fits, hneed, hnew]
      dsimp only at hleft
      omega
    have hiff := (space_reported_iff { start with kernel := k₁ } hreach 0 pathF).2
      ⟨hdrAt k₁.disk e.sector.toInt, 0, e.sector.toInt⟩
      ⟨hdrAt k₁.disk e.sector.toInt, 0, e.sector.toInt⟩ k₂ k₂ [] (List.replicate 5000 0) 5000 0 hon ho
      (fun _ _ h => absurd h List.not_mem_nil) rfl rfl (by rw [OpenFile.length, hlen]; decide) (by decide)
      List.length_replicate.ge
    exact ⟨_, _, k₂, hreach, ho, hlen, hiff.mpr (.inr (by rwa [hd₂, hdata]))⟩

/-- On a new disk 1017 sectors are free, and a file of 929 data sectors stops `Create` at an assertion. -/
theorem create_aborts_on_large_file :
    ∃ sys, System.Reachable (fun sys op => sys.Regular op ∧ op.Counted) sys ∧
      exec (sys.fs.create pathF 118785 (sys.wd 0)) sys.kernel = .error .assertion ∧
      ¬Reported (sys.fs.create pathF 118785 (sys.wd 0)) sys.kernel
        (Lacks 118785 (freeMapAt sys.kernel.disk).free.length) := by
  obtain ⟨sys, hb, hf, hst, hwd, -⟩ := System.boot_spec Kernel.blank
  have hres : resolve sys.kernel.disk (components pathF) (sys.wd 0) = some (DirectorySector, pathF) := by
    rw [hwd]
    rfl
  have hneed : sectorsNeeded 118785 = 929 := by decide
  have habort := hst.sound.exec_create_aborts (hst.wd 0) rfl hres (hf.lookupIn_root _) (n := 118785)
    (by rw [hneed, hf.free]; decide) (by rw [hneed]; omega)
  refine ⟨sys, ⟨Kernel.blank, sys, hb, .refl⟩, habort, ?_⟩
  rintro ⟨b, k', he, -⟩
  rw [habort] at he
  cases he

end NachosFileSys
