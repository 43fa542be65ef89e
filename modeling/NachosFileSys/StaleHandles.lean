import NachosFileSys.UserWrites
import NachosFileSys.OpenCounts
import NachosFileSys.RoundTrips
import NachosFileSys.FullPath

namespace NachosFileSys

open Lib.Programs Lib.Bytes Lib.Runs

section Block

variable {h : FileHeader} {f : OpenFile} {k : Kernel} {s : ℤ} {src : List Byte}

lemma FileHeader.exec_byteToSector_header (hs : h.dataSectors.head? = some s) (hin : InDisk s)
    (hlen : InDisk (hdrAt k.disk s).numBytes) :
    exec (h.byteToSector SectorSize) k = .ok ((hdrAt k.disk s).numBytes, k) := by
  have hix : index h.dataSectors 0 = .ok s := index_eq_ok.mpr ⟨le_rfl, by rwa [List.head?_eq_getElem?] at hs⟩
  have hword : index (IndirectBlock.ofSector (k.disk s)).dataSectors 1 = .ok (hdrAt k.disk s).numBytes :=
    index_eq_ok.mpr ⟨by decide, rfl⟩
  have hblock : (IndirectBlock.ofSector (k.disk s)).byteToSector SectorSize = .ok (hdrAt k.disk s).numBytes := by
    rw [IndirectBlock.byteToSector]
    exact hword
  have hok : decide (0 ≤ (hdrAt k.disk s).numBytes ∧ (hdrAt k.disk s).numBytes < NumSectors) = true :=
    decide_eq_true hlen
  rw [byteToSector]
  change exec (do
    let blockSector ← lift (index h.dataSectors 0)
    let block ← IndirectBlock.fetchFrom blockSector
    let pBlock ← lift (block.byteToSector SectorSize)
    assert (0 ≤ pBlock ∧ pBlock < NumSectors)
    pure pBlock) k = _
  rw [hix, exec_bind_of_ok (exec_lift_ok _ _), IndirectBlock.fetchFrom,
    bind_assoc, exec_bind_of_ok (exec_read_inDisk hin k),
    pure_bind, hblock, exec_bind_of_ok (exec_lift_ok _ _), exec_bind, exec_assert, if_pos hok]
  rfl

lemma OpenFile.exec_writeAt_second (hlen : f.hdr.fileLength = 256) (hs : InDisk s)
    (hsec : ∀ k₁ : Kernel, k₁.disk = k.disk → exec (f.hdr.byteToSector SectorSize) k₁ = .ok (s, k₁))
    (hsrc : src.length = 128) :
    ∃ k', exec (f.writeAt src 128 128) k = .ok (128, k') ∧ k'.maps = k.maps ∧
      k'.disk = Function.update k.disk s (Sector.ofList src) := by
  obtain ⟨junk, k₁, hm, hjunk, hd₁, hm₁⟩ : ∃ junk k₁, exec (malloc 128) k = .ok (junk, k₁) ∧ junk.length = 128 ∧
      k₁.disk = k.disk ∧ k₁.maps = k.maps := ⟨_, _, exec_malloc 128 k, by simp, rfl, rfl⟩
  have hslice : slice src 0 128 = .ok src := by
    rw [slice, if_pos (by omega)]
    change Except.ok ((src.drop 0).take 128) = _
    rw [List.drop_zero, List.take_of_length_le hsrc.le]
  have hcopy : copyInto junk 0 src = .ok src := by
    rw [copyInto, if_pos (by omega), Int.toNat_zero, overlay_full _ _ (by omega)]
  refine ⟨{ k₁ with disk := Function.update k₁.disk s (Sector.ofList src) }, ?_, hm₁, by rw [← hd₁]⟩
  rw [writeAt, hlen]
  change exec (do
    let buf ← malloc 128
    let buf ← f.readPartial false 1 0 buf
    let buf ← f.readPartial false 1 0 buf
    let bytes ← lift (slice src 0 128)
    let buf ← lift (copyInto buf 0 bytes)
    writeSectors f.hdr 1 1 buf
    pure 128) k = _
  rw [exec_bind_of_ok hm, readPartial, if_neg (by decide), pure_bind,
    readPartial, if_neg (by decide), pure_bind, hslice,
    exec_bind_of_ok (exec_lift_ok _ _), hcopy, exec_bind_of_ok (exec_lift_ok _ _), writeSectors, bind_assoc]
  change exec (f.hdr.byteToSector SectorSize >>= _) k₁ = _
  rw [exec_bind_of_ok (hsec k₁ hd₁), bind_assoc, exec_bind_of_ok (exec_write_inDisk hs _ k₁)]
  rfl

lemma OpenFile.exec_write_header (fm : OpenFile) (hlen : f.hdr.fileLength = 256) (hpos : f.seekPosition = 128)
    (hs : f.hdr.dataSectors.head? = some s) (hin : InDisk s) (hdrlen : InDisk (hdrAt k.disk s).numBytes)
    (hsem : k.maps .semaphoreWrite f.hdrSector = some 1) (hsrc : src.length = 128) :
    ∃ f' k', exec (OpenFile.write fm f src 128) k = .ok ((128, f'), k') ∧
      k'.disk = Function.update k.disk (hdrAt k.disk s).numBytes (Sector.ofList src) := by
  have hwithin : ¬int32 (f.seekPosition + 128) > f.hdr.fileLength := by
    rw [hpos, hlen]
    decide
  rw [exec_write_within fm hwithin]
  obtain ⟨k₁, hd₁, hm₁, hstart⟩ := exec_writeLocked_start hsem src 128
  obtain ⟨k₂, hw, hm₂, hd₂⟩ := exec_writeAt_second (k := k₁) hlen hdrlen (fun k₃ hd₃ => by
    have hd := hd₃.trans hd₁
    rw [← hd] at hdrlen ⊢
    exact FileHeader.exec_byteToSector_header hs hin hdrlen) hsrc
  obtain ⟨k', hv, hd', -⟩ := exec_writeLocked_end hsem hm₁ hm₂
  refine ⟨{ f with seekPosition := int32 (f.seekPosition + 128) }, k', ?_, by rw [hd', hd₂, hd₁]⟩
  rw [hstart, hpos, exec_bind_of_ok hw, exec_bind_of_ok hv, exec_pure]

end Block

lemma tableAt_zeros {d : Disk} {s : ℤ} (h : d s = Sector.ofList (List.replicate 128 0)) : tableAt d s = [] := by
  have hlen : (hdrAt d s).numBytes = 0 := by
    rw [hdrAt, h]
    rfl
  rw [← List.length_eq_zero_iff, tableAt_length, hlen]
  rfl

section Reused

variable {fs : FileSystem} {d d' : Disk} {kind : ℤ → Option Kind}
  {s wd : ℤ} {path name name' : CString} {i : ℕ} {isDir : Byte}
  {c : Kind}

lemma Restored.lookupIn_none {starts : ℤ → Prop} (h : Restored starts d d') (hwd : starts wd)
    (hr : resolve d (components path) wd = some (s, name')) (hnone : lookupIn d s name = none) :
    lookupIn d' s name = none := by
  refine List.find?_eq_none.mpr fun e he hn => ?_
  obtain ⟨j, hj⟩ := List.mem_iff_getElem?.mp he
  have hold := (h.entries hwd hr j e (named_iff.mp hn).1).mp hj
  exact List.find?_eq_none.mp hnone e (List.mem_of_getElem? hold) hn

lemma Installed.free_eq (hinst : Installed d kind s name i isDir c 0 d') :
    (freeMapAt d).free = i :: (freeMapAt d').free := by
  have hki : Function.update kind (i : ℤ) (some c) i = some c := Function.update_self ..
  have hdata : dataAt d' i = [] := List.length_eq_zero_iff.mp (hinst.data.trans sectorsNeeded_zero)
  have hblocks : blocksAt d' i = [] := (hinst.storage.file hki).on.stored.blocks_eq_nil.mpr hdata
  obtain ⟨used, hused, hp⟩ := hinst.taken
  rw [owned, hdata, hblocks, List.append_nil, List.perm_singleton] at hp
  obtain ⟨j, rfl, hj⟩ := List.map_eq_singleton_iff.mp hp
  rw [hused, Int.ofNat_inj.mp hj, List.singleton_append]

end Reused

def System.UserRegular (sys : System) : UserOp → Prop
  | .call op => sys.Regular op
  | .seek .. => True
  | .write i _ _ => ∀ f, sys.handles[i]? = some f → ¬Directories sys.kernel.disk f.hdrSector

abbrev pathH : CString := [0x68]

lemma resolve_root (d : Disk) {name : CString} (h : components name = [name]) :
    resolve d (components name) DirectorySector = some (DirectorySector, name) := by
  rw [h]
  rfl

lemma System.boot_removed_open : ∃ (start sys : System) (f : OpenFile) (kind : ℤ → Option Kind) (i : ℕ),
    System.boot Kernel.blank = .ok start ∧
    Reaches (fun op s t => System.userStep op s = .ok t) System.UserRegular start sys ∧ sys.handles = [f] ∧
    Sound sys.fs sys.kernel.disk kind ∧ (∀ t, sys.wd t = DirectorySector) ∧ AtRest sys.kernel.maps ∧
    f.hdrSector = i ∧ f.hdr.fileLength = 256 ∧ sys.kernel.maps .semaphoreWrite i ≠ none ∧
    (freeMapAt sys.kernel.disk).free.head? = some i ∧ (freeMapAt sys.kernel.disk).free.length = 1017 ∧
    (∀ b : ℕ, (freeMapAt sys.kernel.disk).free[1]? = some b → f.hdr.dataSectors.head? = some (b : ℤ)) ∧
    (∀ name, lookupIn sys.kernel.disk DirectorySector name = none) ∧
    hdrAt sys.kernel.disk DirectorySector = hdrAt start.kernel.disk DirectorySector ∧
    Formatted start.fs start.kernel.disk := by
  obtain ⟨sys₀, hb, hf, hst, hwd, -⟩ := System.boot_spec Kernel.blank
  have hroot : formatted DirectorySector = some .dir := rfl
  have hr : ∀ d, resolve d (components pathF) DirectorySector = some (DirectorySector, pathF) :=
    fun d => resolve_root d (by decide)
  have hneed : sectorsNeeded 256 = 2 := by decide
  have hnew : newBlocks 0 2 = 1 := rfl
  have hfree := hf.free
  have hnone := hf.lookupIn_root
  -- the file, and a restart
  obtain ⟨i, k₁, hi, he₁, hx₁, -, hinst, hs₁⟩ :=
    hst.sound.exec_create_succeeds hroot rfl (hr _) (hnone pathF) (n := 256)
    (by rw [hneed]; decide) (by rw [hneed, hnew]; omega)
  have hs₁ := hs₁ hf.nextWhole
  have hmem := mem_sectors_of_head hi
  have hin := inDisk_of_free hmem
  have hfresh := hst.sound.storage.kind_of_free hmem
  obtain ⟨e, hlook, hsec, hplain⟩ :=
    hinst.lookupIn_eq hin (hnone pathF) (freeSlot_of_unused (by rw [hf.slots]; decide) hf.unused)
  have hprint : Printable k₁.disk DirectorySector := hinst.printable hst.sound hroot hin (by decide) fun e he hu =>
    absurd (hf.unused e he) hu
  have hk₁ := hinst.keeps (fun _ _ => False) hfresh (hnone pathF)
  obtain ⟨fs₂, k₂, he₂, hd₂, hx₂, hs₂, hh₂⟩ := hs₁.exec_mount (k := System.reset k₁) rfl
  have hrest₂ := hx₂ (System.atRest_reset k₁)
  rw [← hd₂] at hs₂
  -- the handle, and the file is removed
  obtain ⟨k₃, he₃, hd₃, hx₃, hkeys, hh₃⟩ :=
    hs₂.exec_open_found (hk₁.dirs hroot) rfl (hr _) (by rwa [hd₂]) (by rw [hd₂]; exact hlook)
  have hd₃₁ : k₃.disk = k₁.disk := hd₃.trans hd₂
  have hne : DirectorySector ≠ e.sector.toInt := by
    rw [hsec]
    rintro heq
    rw [← heq, hroot] at hfresh
    cases hfresh
  have hheld : HeldOpen k₃.maps DirectorySector = false := by
    rw [hh₃ hrest₂ hplain _ hne]
    exact (hh₂ fun _ => rfl).heldOpen _
  obtain ⟨p, ds, hh⟩ := hinst.hdr
  rw [← hd₃] at hs₂
  obtain ⟨j, k₄, he₄, hx₄, hu, hs₄⟩ :=
    hs₂.exec_remove_succeeds (hk₁.dirs hroot) rfl (hx₃.rests hrest₂) (hr _) hheld
    (by rw [hd₃₁]; exact hlook) hplain (by
      rw [hd₃₁, hsec, hh]
      change int32 (0 + divRoundUp 256 SectorSize) ≤ _
      decide)
  rw [hd₃₁] at hu
  have hback : Restored (· = DirectorySector) sys₀.kernel.disk k₄.disk :=
    hu.restored hst.sound (fun wd h => by rw [h]; exact hroot) hinst hs₁ hroot hfresh hin (hnone pathF) hlook
  let f : OpenFile := ⟨hdrAt k₂.disk e.sector.toInt, 0, e.sector.toInt⟩
  have h₁ : System.userStep (.call (.create 0 pathF 256)) sys₀ = .ok { sys₀ with kernel := k₁ } := by
    rw [System.userStep, System.step, hwd, he₁]
    rfl
  have h₂ : System.userStep (.call .restart) { sys₀ with kernel := k₁ } =
      .ok ⟨fs₂, k₂, fun _ => DirectorySector, []⟩ := by
    rw [System.userStep, System.step]
    dsimp only
    rw [he₂]
    rfl
  have h₃ : System.userStep (.call (.openFile 0 pathF)) ⟨fs₂, k₂, fun _ => DirectorySector, []⟩ =
      .ok ⟨fs₂, k₃, fun _ => DirectorySector, [f]⟩ := by
    rw [System.userStep, System.step]
    dsimp only
    rw [he₃]
    rfl
  have h₄ : System.userStep (.call (.remove 0 pathF)) ⟨fs₂, k₃, fun _ => DirectorySector, [f]⟩ =
      .ok ⟨fs₂, k₄, fun _ => DirectorySector, [f]⟩ := by
    rw [System.userStep, System.step]
    dsimp only
    rw [he₄]
    rfl
  have hhdr : f.hdr = hdrAt k₁.disk i := by
    change hdrAt k₂.disk e.sector.toInt = _
    rw [hd₂, hsec]
  refine ⟨sys₀, ⟨fs₂, k₄, fun _ => DirectorySector, [f]⟩, f,
    _, i, hb, ?_, rfl, hs₄, fun _ => rfl, hx₄.rests (hx₃.rests hrest₂), hsec, ?_,
    hx₄.keeps (by rw [← hsec]; exact hkeys _), by rw [hback.map, hi],
    by rw [hback.map, hfree], fun b hb => ?_, fun name => ?_, ?_, hf⟩
  · exact .step (.call (.remove 0 pathF)) (.step (.call (.openFile 0 pathF)) (.step (.call .restart)
      (.step (.call (.create 0 pathF 256)) .refl (show int32 256 = 256 by decide) h₁)
      trivial h₂) trivial h₃) trivial h₄
  · rw [hhdr, hh]
    rfl
  · rw [hback.map] at hb
    rw [hhdr]
    exact hinst.block (by rw [hneed]; decide) b hb
  · exact hback.lookupIn_none rfl (hr _) (hnone name)
  · have hkr : Function.update formatted (i : ℤ) (some Kind.plain) DirectorySector = some .dir := hk₁.dirs hroot
    dsimp only
    rw [hu.hdrs hkr, hinst.hdrs hroot]

/-- Two files are created then. The header of the second one stands where the first block of the file was. -/
lemma System.boot_reused_block :
    ∃ (start sys : System) (f : OpenFile) (s : ℤ), System.boot Kernel.blank = .ok start ∧
    Reaches (fun op s t => System.userStep op s = .ok t) System.UserRegular start sys ∧ sys.handles = [f] ∧
    ¬Directories sys.kernel.disk f.hdrSector ∧ f.hdr.fileLength = 256 ∧ f.seekPosition = 128 ∧
    f.hdr.dataSectors.head? = some s ∧ InDisk s ∧ (hdrAt sys.kernel.disk s).numBytes = 1 ∧
    sys.kernel.maps .semaphoreWrite f.hdrSector = some 1 ∧ tableAt sys.kernel.disk DirectorySector ≠ [] := by
  obtain ⟨start, sys, f, kind, i, hb, hrun, hhandles, hs, hwd,
      hrest, hsec, hlen, hsem, hi, hfree, hblock, hnone, hhdr, hf⟩ :=
    System.boot_removed_open
  have hroot := hs.names.root
  have hrg : ∀ d, resolve d (components pathG) DirectorySector = some (DirectorySector, pathG) :=
    fun d => resolve_root d (by decide)
  have hrh : ∀ d, resolve d (components pathH) DirectorySector = some (DirectorySector, pathH) :=
    fun d => resolve_root d (by decide)
  have huncut : NextWhole sys.kernel.disk DirectorySector := fun h => absurd (by rwa [hhdr] at h) hf.uncut
  -- an empty file, on the header of the first one
  obtain ⟨i', k₁, hi', he₁, hx₁, -, hinst₁, hs₁⟩ :=
    hs.exec_create_succeeds hroot rfl (hrg _) (hnone pathG) (n := 0)
    (by rw [sectorsNeeded_zero]; decide) (by rw [sectorsNeeded_zero, newBlocks_zero]; omega)
  cases hi.symm.trans hi'
  have hs₁ := hs₁ huncut
  have hfree₁ := hinst₁.free_eq
  have hnone₁ := hinst₁.lookupIn_other (hnone pathH) (by decide)
  -- a file of one byte, on its block
  have hneed : sectorsNeeded 1 = 1 := by decide
  have hnew : newBlocks 0 1 = 1 := rfl
  obtain ⟨b, k₂, hi₂, he₂, hx₂, -, hinst₂, hs₂⟩ :=
    hs₁.exec_create_succeeds hs₁.names.root rfl (hrh _) hnone₁ (n := 1)
    (by rw [hneed]; decide) (by
      rw [hfree₁, List.length_cons] at hfree
      rw [hneed, hnew]
      omega)
  have hhdr₁ : hdrAt k₁.disk DirectorySector = hdrAt start.kernel.disk DirectorySector :=
    (hinst₁.hdrs hroot).trans hhdr
  have hs₂ := hs₂ fun h => absurd (by rwa [hhdr₁] at h) hf.uncut
  have hhdr₂ : hdrAt k₂.disk DirectorySector = hdrAt start.kernel.disk DirectorySector :=
    (hinst₂.hdrs hs₁.names.root).trans hhdr₁
  have hb₁ : (freeMapAt sys.kernel.disk).free[1]? = some b := by
    rw [hfree₁, List.getElem?_cons_succ, ← List.head?_eq_getElem?, hi₂]
  have hkind : Function.update (Function.update kind (i : ℤ) (some .plain)) (b : ℤ) (some Kind.plain) i =
      some .plain := by
    rw [Function.update_apply]
    split
    · rfl
    · exact Function.update_self ..
  have h₁ : System.userStep (.call (.create 0 pathG 0)) sys = .ok { sys with kernel := k₁ } := by
    rw [System.userStep, System.step, hwd, he₁]
    rfl
  have h₂ : System.userStep (.call (.create 0 pathH 1)) { sys with kernel := k₁ } =
      .ok { sys with kernel := k₂ } := by
    rw [System.userStep, System.step]
    dsimp only
    rw [hwd, he₂]
    rfl
  have h₃ : System.userStep (.seek 0 128) { sys with kernel := k₂ } = .ok { sys with
      kernel := k₂
      handles := [f.seek 128] } := by
    rw [System.userStep]
    dsimp only
    rw [hhandles]
    rfl
  refine ⟨start, _, f.seek 128, b, hb,
    .step (.seek 0 128) (.step (.call (.create 0 pathH 1)) (.step (.call (.create 0 pathG 0)) hrun
    (show int32 0 = 0 by decide) h₁) (show int32 1 = 1 by decide) h₂) trivial h₃,
    rfl, fun hd => ?_, hlen, rfl, hblock b hb₁,
    inDisk_of_free (mem_sectors_of_head hi₂), ?_, ?_, fun hnil => ?_⟩
  · have hdir := hd.kind_eq hs₂
    change Function.update (Function.update kind (i : ℤ) (some .plain)) (b : ℤ) (some Kind.plain) f.hdrSector =
        _ at hdir
    rw [hsec, hkind] at hdir
    cases hdir
  · obtain ⟨p, ds, hh⟩ := hinst₂.hdr
    dsimp only
    rw [hh]
    rfl
  · change k₂.maps .semaphoreWrite f.hdrSector = some 1
    rw [hsec]
    exact (hx₂.rests (hx₁.rests hrest)).semaphoreWrite (hx₂.keeps (hx₁.keeps hsem))
  · have hlength := congrArg List.length hnil
    dsimp only at hlength
    rw [tableAt_length, hhdr₂, ← tableAt_length, hf.slots] at hlength
    cases hlength

/-- A `Write` that extends a file changes the free map; a `Write` through a handle that `Open`
returned on a directory changes its table; and so can one through a handle on a plain file, if the
file is removed while it is open. -/
theorem write_alters_structure :
    (∃ (sys : System) (f f' : OpenFile) (r : ℤ) (k : Kernel), sys.UserReachable ∧ sys.handles = [f] ∧
      exec (OpenFile.write sys.fs.freeMapFile f [0x61] 1) sys.kernel = .ok ((r, f'), k) ∧
      freeMapAt k.disk ≠ freeMapAt sys.kernel.disk) ∧
    (∃ (sys : System) (f f' : OpenFile) (r : ℤ) (k : Kernel), sys.UserReachable ∧ sys.handles = [f] ∧
      Directories sys.kernel.disk f.hdrSector ∧
      exec (OpenFile.write sys.fs.freeMapFile f [0] 1) sys.kernel = .ok ((r, f'), k) ∧
      tableAt k.disk f.hdrSector ≠ tableAt sys.kernel.disk f.hdrSector) ∧
    ∃ (start sys : System) (f f' : OpenFile) (k : Kernel), System.boot Kernel.blank = .ok start ∧
      Reaches (fun op s t => System.userStep op s = .ok t) System.UserRegular start sys ∧ sys.handles = [f] ∧
      ¬Directories sys.kernel.disk f.hdrSector ∧
      exec (OpenFile.write sys.fs.freeMapFile f (List.replicate 128 0) 128) sys.kernel = .ok ((128, f'), k) ∧
      tableAt k.disk DirectorySector ≠ tableAt sys.kernel.disk DirectorySector := by
  refine ⟨?_, System.boot_written_directory, ?_⟩
  · obtain ⟨sys, f, f', r, k, hreach, hh, hdir, hbeyond, he⟩ := System.boot_open_file
    refine ⟨sys, f, f', r, k, hreach, hh, he, fun heq => ?_⟩
    obtain ⟨kind, role, hg⟩ := hreach.guarded
    obtain ⟨-, -, -, new, -, -, -, -, -, ht, -, -, hlen⟩ :=
      hg.write (by rw [hh]; exact List.mem_singleton_self f) hdir he
    have hneed : sectorsNeeded 1 = 1 := by decide
    have hpos := hlen hbeyond
    have hcount := ht.length
    rw [heq] at hcount
    omega
  · obtain ⟨start, sys, f, s, hb, hrun, hh, hdir, hlen, hpos, hs, hin, hone, hsem, htab⟩ :=
      System.boot_reused_block
    have hsrc : (List.replicate 128 (0 : Byte)).length = 128 := List.length_replicate
    obtain ⟨f', k, he, hd⟩ :=
      OpenFile.exec_write_header sys.fs.freeMapFile hlen hpos hs hin (by rw [hone]; decide) hsem hsrc
    refine ⟨start, sys, f, f', k, hb, hrun, hh, hdir, he, fun heq => htab ?_⟩
    rw [← heq]
    refine tableAt_zeros ?_
    rw [hd, hone]
    exact Function.update_self ..

end NachosFileSys
