import NachosFileSys.Coherence

namespace NachosFileSys

open Lib.Programs Lib.Bytes Lib.Runs

namespace OpenFile

def WriteExact (freeMapFile f : OpenFile) (src : List Byte) (p : ℕ) (k : Kernel) : Prop :=
  ∃ f' k', exec (write freeMapFile f src src.length) k = .ok (((src.length : ℕ), f'), k') ∧
    f'.length = max f.length (p + src.length) ∧ f'.seekPosition = p + src.length ∧
    (∀ q, p ≤ q → q < p + src.length → (contentsAt k'.disk f.hdrSector)[q]? = src[q - p]?) ∧
    ∀ q : ℕ, (q : ℤ) < f.length → q < p ∨ p + src.length ≤ q →
      (contentsAt k'.disk f.hdrSector)[q]? = (contentsAt k.disk f.hdrSector)[q]?

end OpenFile

namespace Sound

variable {fs : FileSystem} {kind : ℤ → Option Kind} {k k' : Kernel}
    {f f' : OpenFile} {src : List Byte} {n p : ℕ} {r : ℤ}

lemma write_lengthens (hs : Sound fs k.disk kind) (hk : kind f.hdrSector = some .plain) (hf : f.Current k.disk)
    (hb : PlainBacked k.disk kind) (hsem : k.maps .semaphoreWrite f.hdrSector = some 1) (hp : f.seekPosition = p)
    (hpn : p + n < 2147483648) (hbeyond : f.length < p + n)
    (he : exec (OpenFile.write fs.freeMapFile f src n) k = .ok ((r, f'), k')) :
    f'.length = f.length + n ∧ Fits (dataAt k.disk f.hdrSector).length n (freeMapAt k.disk).free.length := by
  have hlen : f.length = f.hdr.fileLength := rfl
  have hfollows := hf.follows (hs.storage.file hk)
  have hback := hf.backed (hs.storage.file hk) (hb hk)
  have hsum : int32 (f.seekPosition + (n : ℤ)) = p + n := by rw [hp, int32_of_bounds (by omega) (by omega)]
  rw [OpenFile.exec_write_beyond _ (by rw [hsum, ← hlen]; omega)] at he
  obtain ⟨g, t, hext, hw⟩ := exec_bind_ok.mp he
  have hfit : Fits (dataAt k.disk f.hdrSector).length n (freeMapAt k.disk).free.length := by
    by_contra hno
    rw [OpenFile.exec_extend_aborts hs.storage hs.mapFile hs.mapSector hk hfollows hno] at hext
    cases hext
  obtain ⟨ds, nbs, nsecs, rfl, hm, -, hx⟩ :=
    OpenFile.extend_inv hs.storage hs.mapFile hs.mapSector hk hfollows hext
  have hcap := hfit.1
  have hnum : (hdrAt k.disk f.hdrSector).numBytes = f.length := by
    rw [OpenFile.Current] at hf
    rw [hlen, hf]
    rfl
  have hlo : -2147483648 ≤ f.length := hnum ▸ (toInt_bounds _).1
  have hgrown : (f.hdr.grown n ds).numBytes = f.length + n :=
    (FileHeader.grown_fileLength_le ds hback.length_le (by rw [hlen, FileHeader.fileLength] at hlo; omega)
        (by omega)).1
  have hcur : (OpenFile.mk (f.hdr.grown n ds) f.seekPosition f.hdrSector).Current t.disk := hx.hdr.symm
  have hgf := hcur.follows (hx.storage.file hk)
  obtain ⟨-, -, hhdr, -⟩ := OpenFile.writeLocked_inv (by rw [hm]; exact hsem) hgf.on (hx.storage.data_nodup hk) hw
  refine ⟨?_, hfit⟩
  rw [OpenFile.length, hhdr]
  exact hgrown

lemma writeExact_of_writesAll (hs : Sound fs k.disk kind) (hk : kind f.hdrSector = some .plain)
    (hf : f.Current k.disk)
    (hb : PlainBacked k.disk kind) (hsem : k.maps .semaphoreWrite f.hdrSector = some 1) (hp : f.seekPosition = p)
    (hsrc : src ≠ []) (hle : (p : ℤ) ≤ f.length) (hw : f.WritesAll k.disk src) :
    OpenFile.WriteExact fs.freeMapFile f src p k := by
  have hsh : Shared fs kind f.hdrSector k.disk [] := ⟨hs, hk, hb hk, fun g hg => absurd hg List.not_mem_nil⟩
  have htrails : f.Trails k.disk f.hdrSector := hf.trails rfl (hs.storage.file hk) (hb hk)
  obtain ⟨f', k', he, hpos, -, -, -, hc⟩ := hsh.exec_write htrails hsem hp hw
  obtain ⟨-, -, hcur, hsec, -⟩ := hs.write_inv hk hf hsem he
  have hlen : f.length = (hdrAt k.disk f.hdrSector).fileLength := by
    rw [OpenFile.Current] at hf
    rw [OpenFile.length, hf]
  have hlen' : f'.length = (hdrAt k'.disk f.hdrSector).fileLength := by
    rw [OpenFile.Current, hsec] at hcur
    rw [OpenFile.length, hcur]
  have hin : p ≤ (contentsAt k.disk f.hdrSector).length := by
    rw [contentsAt_length, ← hlen]
    omega
  refine ⟨f', k', he, ?_, by rw [hpos]; push_cast; rfl, fun q h1 h2 => ?_, fun q hq hout => ?_⟩
  · have hput := congrArg List.length hc
    rw [SharedFile.length_put _ _ hin hsrc, contentsAt_length, contentsAt_length, ← hlen, ← hlen'] at hput
    have hpos : 0 < src.length := List.length_pos_iff.mpr hsrc
    omega
  · rw [hc, SharedFile.getElem?_put hin hsrc, if_pos ⟨h1, h2⟩]
  · rw [hc, SharedFile.getElem?_put hin hsrc, if_neg (by omega)]

lemma writeExact_iff (hs : Sound fs k.disk kind) (hk : kind f.hdrSector = some .plain) (hf : f.Current k.disk)
    (hb : PlainBacked k.disk kind) (hsem : k.maps .semaphoreWrite f.hdrSector = some 1) (hp : f.seekPosition = p)
    (hsrc : src ≠ []) (hpn : p + src.length < 2147483648) :
    OpenFile.WriteExact fs.freeMapFile f src p k ↔ (p + src.length : ℤ) ≤ f.length ∨
      (p : ℤ) = f.length ∧ Fits (dataAt k.disk f.hdrSector).length src.length (freeMapAt k.disk).free.length := by
  have hlen : f.length = f.hdr.fileLength := rfl
  have hpos : 0 < src.length := List.length_pos_iff.mpr hsrc
  have hint : f.seekPosition + (src.length : ℤ) < 2147483648 := by
    rw [hp]
    omega
  constructor
  · rintro ⟨f', k', he, hlen', -⟩
    by_cases hin : (p + src.length : ℤ) ≤ f.length
    · exact .inl hin
    · obtain ⟨hgrown, hfit⟩ := hs.write_lengthens hk hf hb hsem hp hpn (not_le.mp hin) he
      exact .inr ⟨by omega, hfit⟩
  · rintro (hin | ⟨hend, hfit⟩)
    · refine hs.writeExact_of_writesAll hk hf hb hsem hp hsrc (by omega) (.inr ⟨by omega, hint, ?_⟩)
      rw [if_pos (by rw [hp, ← hlen]; exact hin)]
      exact .inl hf
    · refine hs.writeExact_of_writesAll hk hf hb hsem hp hsrc hend.le (.inr ⟨by omega, hint, ?_⟩)
      rw [if_neg (by rw [hp, ← hlen]; omega)]
      exact ⟨hf, .inr (hp.trans hend), hfit⟩

end Sound

/-- In every run, a `Write` of at least one byte in a session on a plain file does what it should if and only if it
stays inside the file, or starts at its end and finds room. -/
theorem write_exact_iff (sys : System)
    (h : System.Reachable (fun sys op => sys.Regular op ∧ op.Counted) sys) (t : ℕ)
    (path : CString) (hplain : sys.OnPlainFile t path) (f₀ f : OpenFile) (k₀ k : Kernel)
    (ho : exec (FileSystem.openFile path (sys.wd t)) sys.kernel = .ok (some f₀, k₀)) (actions : List Action)
    (hcount : (Op.session t path actions).Counted)
    (hperf : exec (perform sys.fs.freeMapFile actions f₀) k₀ = .ok (f, k))
    (src : List Byte) (p : ℕ) (hsrc : src ≠ []) (hp : f.seekPosition = p) (hpn : p + src.length < 2147483648) :
    OpenFile.WriteExact sys.fs.freeMapFile f src p k ↔ (p + src.length : ℤ) ≤ f.length ∨
      (p : ℤ) = f.length ∧ Fits (dataAt k.disk f.hdrSector).length src.length (freeMapAt k.disk).free.length := by
  obtain ⟨kind, hs, hk, hcur, hb, hsem⟩ := h.session_handle hplain ho hcount hperf
  exact hs.writeExact_iff hk hcur hb hsem hp hsrc hpn

lemma System.boot_open : ∃ (sys : System) (f₀ : OpenFile) (k₀ : Kernel),
    System.Reachable (fun sys op => sys.Regular op ∧ op.Counted) sys ∧ sys.OnPlainFile 0 pathF ∧
    exec (FileSystem.openFile pathF (sys.wd 0)) sys.kernel = .ok (some f₀, k₀) ∧
    f₀.seekPosition = 0 ∧ f₀.length = 0 ∧
    Fits (dataAt k₀.disk f₀.hdrSector).length (1 : ℕ) (freeMapAt k₀.disk).free.length := by
  obtain ⟨sys₀, k₁, i, hb, hf, hst, hwd, hcreate, -, hi, hinst, hs, -⟩ := System.boot_create
  have hin := inDisk_of_free (mem_sectors_of_head hi)
  have hroom := freeSlot_of_unused (by rw [hf.slots]; decide) hf.unused
  obtain ⟨e, hlook, hsec, hisdir⟩ := hinst.lookupIn_eq hin (hf.lookupIn_root _) hroom
  have hres : ∀ d : Disk, resolve d (components pathF) (sys₀.wd 0) = some (DirectorySector, pathF) := by
    intro d
    rw [hwd]
    rfl
  have hprint : Printable k₁.disk DirectorySector :=
    hinst.printable hst.sound hst.sound.names.root hin (by decide) fun e he hu => absurd (hf.unused e he) hu
  obtain ⟨k₀, ho, hd, -⟩ :=
    hs.exec_open_found (k := k₁) (by rw [hwd]; exact hs.names.root) rfl (hres _) hprint hlook
  have hreach : System.Reachable (fun sys op => sys.Regular op ∧ op.Counted) { sys₀ with kernel := k₁ } := by
    refine ⟨Kernel.blank, sys₀, hb, .step (.create 0 pathF 0) .refl ⟨show int32 0 = 0 by decide, trivial⟩ ?_⟩
    rw [System.step, hcreate]
    rfl
  refine ⟨{ sys₀ with kernel := k₁ }, _, k₀, hreach, fun s name e' hr hl => ?_, ho, rfl, ?_, ?_⟩
  · obtain ⟨rfl, rfl⟩ := Prod.mk.inj (Option.some.inj ((hres k₁.disk).symm.trans hr))
    cases hlook.symm.trans hl
    exact hisdir
  · obtain ⟨q, ds, hh⟩ := hinst.hdr
    rw [OpenFile.length, hsec, hh]
    rfl
  · have hfree := hinst.free
    rw [hf.free, sectorsNeeded_zero, newBlocks_zero] at hfree
    have hneed : sectorsNeeded ((1 : ℕ) : ℤ) = 1 := by decide
    have hdata : (dataAt k₁.disk i).length = 0 := hinst.data.trans sectorsNeeded_zero
    have hnew : newBlocks 0 1 = 1 := rfl
    rw [hd, hsec, hdata, Fits, hneed, hnew]
    omega

theorem write_exact_append : ∃ (sys : System) (f : OpenFile) (k : Kernel),
    exec (FileSystem.openFile pathF (sys.wd 0)) sys.kernel = .ok (some f, k) ∧
    OpenFile.WriteExact sys.fs.freeMapFile f [0x61] 0 k := by
  obtain ⟨sys, f₀, k₀, hreach, hplain, ho, hpos, hlen, hfit⟩ := System.boot_open
  have hcount : (Op.session 0 pathF []).Counted := fun src n h => absurd h List.not_mem_nil
  exact ⟨sys, f₀, k₀, ho,
    (write_exact_iff sys hreach 0 pathF hplain f₀ f₀ k₀ k₀ ho [] hcount rfl [0x61] 0 (by decide) hpos
    (by decide)).mpr (.inr ⟨hlen.symm, hfit⟩)⟩

/-- One byte at position `1` of an empty file, with room for it. -/
theorem write_after_end_not_exact : ∃ (sys : System) (f₀ f : OpenFile) (k : Kernel),
    System.Reachable (fun sys op => sys.Regular op ∧ op.Counted) sys ∧ sys.OnPlainFile 0 pathF ∧
    exec (FileSystem.openFile pathF (sys.wd 0)) sys.kernel = .ok (some f₀, k) ∧
    exec (perform sys.fs.freeMapFile [.seek 1] f₀) k = .ok (f, k) ∧ f.length = 0 ∧
    Fits (dataAt k.disk f.hdrSector).length (1 : ℕ) (freeMapAt k.disk).free.length ∧
    ¬OpenFile.WriteExact sys.fs.freeMapFile f [0x61] 1 k := by
  obtain ⟨sys, f₀, k₀, hreach, hplain, ho, hpos, hlen, hfit⟩ := System.boot_open
  have hcount : (Op.session 0 pathF [.seek 1]).Counted := by
    intro src n h
    cases List.mem_singleton.mp h
  have hperf : exec (perform sys.fs.freeMapFile [.seek 1] f₀) k₀ = .ok (f₀.seek 1, k₀) := rfl
  obtain ⟨kind, hs, hk, hcur, hb, hsem⟩ := hreach.session_handle hplain ho hcount hperf
  refine ⟨sys, f₀, f₀.seek 1, k₀, hreach, hplain, ho, hperf, hlen, hfit, fun hexact => ?_⟩
  have hlen' : (f₀.seek 1).length = 0 := hlen
  rcases (hs.writeExact_iff hk hcur hb hsem rfl (by decide) (by decide)).mp hexact with hin | ⟨hend, -⟩
  · rw [hlen'] at hin
    exact absurd hin (by decide)
  · rw [hlen'] at hend
    exact absurd hend (by decide)

end NachosFileSys
