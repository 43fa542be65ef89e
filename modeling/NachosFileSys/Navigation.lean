import NachosFileSys.PartialEntries

namespace NachosFileSys

open Lib.Programs Lib.Bytes Lib.Runs

def inside (p x : CString) : CString := chars p ++ 0x2f#8 :: x

lemma components_inside (p : CString) {x : CString} (hx : 0x2f#8 ∉ chars x) :
    components (inside p x) = components p ++ [chars x] := by
  have hp : ∀ a ∈ chars p, decide (a ≠ 0) = true :=
    fun a ha => List.mem_takeWhile_imp (p := fun a => decide (a ≠ 0)) ha
  have hchars : chars (inside p x) = chars p ++ 0x2f#8 :: chars x := by
    rw [inside, chars, List.takeWhile_append_of_pos hp, List.takeWhile_cons_of_pos (by decide)]
    rfl
  rw [components, hchars, List.splitOn_append_cons_self, List.splitOn_eq_singleton hx]
  rfl

lemma resolve_append {d : Disk} {s : ℤ} {name x : CString} {e : DirectoryEntry} (names : List CString) :
    ∀ {wd : ℤ},
    names ≠ [] → resolve d names wd = some (s, name) → lookupIn d s name = some e → e.isDir ≠ 0 →
    resolve d (names ++ [x]) wd = some (e.sector.toInt, x) := by
  induction names with
  | nil => intro wd h; exact absurd rfl h
  | cons dirname rest ih =>
    intro wd _ hr hl hd
    cases rest with
    | nil =>
      cases hr
      rw [List.cons_append, List.nil_append, resolve_cons_cons, hl]
      dsimp only
      rw [if_pos hd]
      rfl
    | cons dirname' rest =>
      rw [resolve_cons_cons] at hr
      rw [List.cons_append, List.cons_append, resolve_cons_cons]
      cases hl' : lookupIn d wd dirname with
      | none =>
        rw [hl'] at hr
        cases hr
      | some e' =>
        rw [hl'] at hr
        dsimp only at hr ⊢
        split at hr
        · rw [if_pos ‹_›, ← List.cons_append]
          exact ih (List.cons_ne_nil _ _) hr hl hd
        · cases hr

lemma components_ne_nil (p : CString) : components p ≠ [] := List.splitOn_ne_nil _ _

lemma components_dotdot : components dotdot = [dotdot] := by decide

section Links

variable {d : Disk} {i s n : ℤ}

lemma Linked.dotdot_iff (h : Linked d i s n) (hs : InDisk s) : directoryAt d dotdot i = s ↔ 2 ≤ slotsIn n := by
  obtain ⟨old, old', dir, hl, htab⟩ := h
  obtain ⟨junk, ht, -⟩ := hl.eq
  have hres : resolve d (components dotdot) i = some (i, dotdot) := by
    rw [components_dotdot]
    rfl
  have hdot : ¬(Directory.named dotdot (old.filled dot i 1) = true) := by
    intro hn
    have hkey := (named_iff.mp hn).2
    rw [DirectoryEntry.filled_key] at hkey
    revert hkey
    decide
  have hneg := hs.1
  rw [directoryAt, hres]
  dsimp only
  rw [lookupIn, htab, ht]
  rcases slotsIn n with _ | _ | m
  · rw [List.take_zero, List.find?_nil]
    simp
    omega
  · rw [List.cons_append, List.take_succ_cons, List.find?_cons_of_neg hdot, List.take_zero, List.find?_nil]
    simp
    omega
  · rw [List.cons_append, List.cons_append, List.take_succ_cons, List.take_succ_cons, List.find?_cons_of_neg hdot,
      List.find?_cons_of_pos (old'.filled_named dotdot s 1)]
    have hdir : (old'.filled dotdot s 1).isDir ≠ 0 := show (1 : Byte) ≠ 0 by decide
    dsimp only
    rw [if_pos hdir, old'.filled_sector _ _ hs]
    simp

end Links

section Installed

variable {fs : FileSystem} {d d' : Disk} {kind : ℤ → Option Kind}
    {s i n : ℤ} {name : CString} {isDir : Byte} {c : Kind}

lemma Installed.lookupIn_of_full (hinst : Installed d kind s name i isDir c n d')
    (hfull : freeSlot (tableAt d s) = none) :
    lookupIn d' s name = lookupIn d s name := by
  rw [lookupIn, lookupIn, hinst.table, withEntry, hfull]

lemma Installed.small_of_printable (hs : Sound fs d kind) (hks : kind s = some .dir) (hi : InDisk i)
    (hinst : Installed d kind s name i isDir c n d') (hroom : freeSlot (tableAt d s) ≠ none)
    (hp : Printable d' s) :
    Printable d s ∧ int32 (divRoundUp n SectorSize) ≤ (NumDirect : ℤ) := by
  obtain ⟨j, hj⟩ := Option.ne_none_iff_exists'.mp hroom
  obtain ⟨old, hold, hunused⟩ := freeSlot_spec hj
  have hlt := (List.getElem?_eq_some_iff.mp hold).1
  have htab : tableAt d' s = (tableAt d s).set j (old.filled name i isDir) := by
    rw [hinst.table, withEntry, hj]
    exact modify_eq_set_of_getElem? hold _
  refine ⟨fun e he hu => ?_, ?_⟩
  · obtain ⟨m, hm⟩ := List.mem_iff_getElem?.mp he
    have hne : j ≠ m := by
      rintro rfl
      rw [hold] at hm
      cases hm
      exact hu hunused
    rw [← hinst.hdrs (hs.names.points hks he hu)]
    refine hp e (List.mem_of_getElem? (i := m) ?_) hu
    rw [htab, List.getElem?_set_ne hne]
    exact hm
  · have hnew :=
      hp (old.filled name i isDir) (by rw [htab]; exact List.mem_set hlt _) (show (1 : Byte) ≠ 0 by decide)
    obtain ⟨p, ds, hh⟩ := hinst.hdr
    rw [old.filled_sector name isDir hi, hh] at hnew
    change int32 (0 + divRoundUp n SectorSize) ≤ _ at hnew
    rwa [zero_add] at hnew

end Installed

namespace System

variable {sys sys' : System} {kind : ℤ → Option Kind}

structure Leads (sys : System) (path : CString) (wd s : ℤ) (name : CString) (kind : ℤ → Option Kind) : Prop where
  steady : sys.Steady kind
  start : kind wd = some .dir
  leads : resolve sys.kernel.disk (components path) wd = some (s, name)
  apart : Along (· ≠ s) sys.kernel.disk (components path) wd

namespace Leads

variable {path : CString} {wd s n : ℤ} {name : CString} {k : Kernel}

lemma step {op : Op} (hl : sys.Leads path wd s name kind) (hop : sys.Regular op) (hwhole : sys.EntersWhole op)
    (h : System.step op sys = .ok sys') :
    (∃ kind', sys'.Leads path wd s name kind') ∧ hdrAt sys'.kernel.disk s = hdrAt sys.kernel.disk s := by
  have hs := hl.steady.sound
  obtain ⟨kind', hst', hc⟩ := hl.steady.step_cases hop hwhole h
  have hk := (hc.keeps hl.steady hop).1
  exact ⟨⟨kind', hst', hk.dirs hl.start, hk.resolve hs _ hl.start hl.leads,
    hs.along_congr _ (fun hkx _ _ he hd => hk.lookups hkx he (Or.inl hd)) hl.start hl.leads hl.apart⟩,
    hk.hdrs (hs.kind_of_resolve _ hl.start hl.leads)⟩

lemma created (hl : sys.Leads path wd s name kind)
    (hc : exec (sys.fs.create path n wd) sys.kernel = .ok (true, k)) :
    ∃ i : ℕ, (freeMapAt sys.kernel.disk).free.head? = some i ∧ InDisk i ∧ lookupIn sys.kernel.disk s name = none ∧
      resolve k.disk (components path) wd = some (s, name) ∧
      Function.update kind (i : ℤ) (some .plain) wd = some .dir ∧
      Installed sys.kernel.disk kind s name i 0 .plain n k.disk ∧
      Grounded sys.fs k.disk (Function.update kind i (some .plain)) ∧
      Along (CutUnused k.disk) k.disk (components path) wd ∧
      (NextWhole sys.kernel.disk s → Sound sys.fs k.disk (Function.update kind i (some .plain))) := by
  have hs := hl.steady.sound
  have hks := hs.kind_of_resolve _ hl.start hl.leads
  obtain ⟨-, ⟨hf, -⟩ | ⟨-, s', name', i, hr, hnone, hi, -, hinst, hs'⟩⟩ := hs.create_inv hl.start hc
  · cases hf
  cases hl.leads.symm.trans hr
  have hmem := mem_sectors_of_head hi
  have hk := hinst.keeps (fun _ _ => False) (hs.storage.kind_of_free hmem) hnone
  have hsame : ∀ {x}, kind x = some .dir → ∀ name e, lookupIn sys.kernel.disk x name = some e → e.isDir ≠ 0 →
      lookupIn k.disk x name = some e := fun hkx _ _ he hd => hk.lookups hkx he (Or.inl hd)
  have hunused : ∀ {x}, kind x = some .dir → x ≠ s → CutUnused k.disk x := fun hkx hx =>
    hinst.cutUnused hs.toGrounded hks hkx (fun h => absurd h hx) (hs.unused hkx)
  exact ⟨i, hi, inDisk_of_free hmem, hnone, hk.resolve hs _ hl.start hl.leads, hk.dirs hl.start, hinst,
    hs.grounded_of_installed hks hnone hmem hinst rfl (fun h => absurd rfl h) (fun h => by cases h),
    hs.along_congr _ hsame hl.start hl.leads (hs.along_mono hunused _ hl.start hl.apart), hs'⟩

lemma open_iff_of_whole (hl : sys.Leads path wd s name kind) (hwhole : NextWhole sys.kernel.disk s)
    (hc : exec (sys.fs.create path n wd) sys.kernel = .ok (true, k)) :
    (∃ (i : ℕ) (f : OpenFile) (k' : Kernel), (freeMapAt sys.kernel.disk).free.head? = some i ∧ f.hdrSector = i ∧
      exec (FileSystem.openFile path wd) k = .ok (some f, k')) ↔
    freeSlot (tableAt sys.kernel.disk s) ≠ none ∧ Printable sys.kernel.disk s ∧
      int32 (divRoundUp n SectorSize) ≤ (NumDirect : ℤ) := by
  have hs := hl.steady.sound
  have hks := hs.kind_of_resolve _ hl.start hl.leads
  obtain ⟨i, hi, hin, hnone, hr, hwd, hinst, -, -, hs'⟩ := hl.created hc
  have hs' := hs' hwhole
  constructor
  · rintro ⟨i', f, k', -, -, ho⟩
    have hprint : Printable k.disk s := by
      by_contra hp
      rw [hs'.exec_open_outside hwd rfl hr hp] at ho
      cases ho
    have hroom : freeSlot (tableAt sys.kernel.disk s) ≠ none := by
      intro hfull
      obtain ⟨k₁, h₁, -⟩ := hs'.exec_open_absent hwd rfl hr hprint ((hinst.lookupIn_of_full hfull).trans hnone)
      rw [h₁] at ho
      cases ho
    exact ⟨hroom, hinst.small_of_printable hs hks hin hroom hprint⟩
  · rintro ⟨hroom, hprint, hsmall⟩
    obtain ⟨e, hlook, hsec, -⟩ := hinst.lookupIn_eq hin hnone hroom
    obtain ⟨k', ho, -⟩ := hs'.exec_open_found hwd rfl hr (hinst.printable hs hks hin hsmall hprint) hlook
    exact ⟨i, _, k', hi, hsec, ho⟩

lemma open_iff_of_cut (hl : sys.Leads path wd s name kind) (hcut : Cuts (hdrAt sys.kernel.disk s).numBytes)
    (hfull : freeSlot (tableAt sys.kernel.disk s) = none)
    (hc : exec (sys.fs.create path n wd) sys.kernel = .ok (true, k)) :
    (∃ (i : ℕ) (f : OpenFile) (k' : Kernel), (freeMapAt sys.kernel.disk).free.head? = some i ∧ f.hdrSector = i ∧
      exec (FileSystem.openFile path wd) k = .ok (some f, k')) ↔
    (∀ i : ℕ, (freeMapAt sys.kernel.disk).free.head? = some i →
      Completed k.heap (hdrAt sys.kernel.disk s).numBytes i name) ∧ Printable sys.kernel.disk s ∧
      int32 (divRoundUp n SectorSize) ≤ (NumDirect : ℤ) := by
  have hs := hl.steady.sound
  have hks := hs.kind_of_resolve _ hl.start hl.leads
  obtain ⟨i, hi, hin, hnone, hr, hwd, hinst, hg, halong, -⟩ := hl.created hc
  have htable : tableAt k.disk s = tableAt sys.kernel.disk s := by
    rw [hinst.table, withEntry, hfull]
  have hold : CutHolds k.disk s name i 0 := by
    rw [CutHolds, hinst.hdrs hks, hinst.datas hks]
    exact hinst.next hfull
  have hsmall : (hdrAt k.disk i).numSectors = int32 (divRoundUp n SectorSize) := by
    obtain ⟨p, ds, hh⟩ := hinst.hdr
    rw [hh, ← zero_add (divRoundUp n SectorSize)]
    rfl
  have hprint : Printable k.disk s ↔ Printable sys.kernel.disk s := by
    rw [Printable, Printable, htable]
    refine forall₂_congr fun e he => forall_congr' fun hu => ?_
    rw [hinst.hdrs (hs.names.points hks he hu)]
  have hopen := hg.open_cut_iff hwd halong hr (by rwa [hinst.hdrs hks]) (Function.update_self _ _ _) hold
    ((hinst.lookupIn_of_full hfull).trans hnone) rfl
  rw [hinst.hdrs hks, hprint, hsmall] at hopen
  constructor
  · rintro ⟨i', f, k', hi', hf, ho⟩
    cases hi.symm.trans hi'
    obtain ⟨hcomplete, hrest⟩ := hopen.mp ⟨f, k', hf, ho⟩
    refine ⟨fun i' hi' => ?_, hrest⟩
    cases hi.symm.trans hi'
    exact hcomplete
  · rintro ⟨hcomplete, hrest⟩
    obtain ⟨f, k', hf, ho⟩ := hopen.mpr ⟨hcomplete i hi, hrest⟩
    exact ⟨i, f, k', hi, hf, ho⟩

/-- Where `Create` returns `TRUE`, `Open` finds the new file if and only if the directory has room for its
entry, or the heap completes what the end of its file cuts off, and it can be printed with the entry. -/
lemma open_iff (hl : sys.Leads path wd s name kind)
    (hc : exec (sys.fs.create path n wd) sys.kernel = .ok (true, k)) :
    (∃ (i : ℕ) (f : OpenFile) (k' : Kernel), (freeMapAt sys.kernel.disk).free.head? = some i ∧ f.hdrSector = i ∧
      exec (FileSystem.openFile path wd) k = .ok (some f, k')) ↔
    (freeSlot (tableAt sys.kernel.disk s) ≠ none ∨ Cuts (hdrAt sys.kernel.disk s).numBytes ∧
      ∀ i : ℕ, (freeMapAt sys.kernel.disk).free.head? = some i →
        Completed k.heap (hdrAt sys.kernel.disk s).numBytes i name) ∧
      Printable sys.kernel.disk s ∧ int32 (divRoundUp n SectorSize) ≤ (NumDirect : ℤ) := by
  by_cases hfull : freeSlot (tableAt sys.kernel.disk s) = none
  · by_cases hcut : Cuts (hdrAt sys.kernel.disk s).numBytes
    · rw [hl.open_iff_of_cut hcut hfull hc]
      simp [hfull, hcut]
    · rw [hl.open_iff_of_whole (fun h => absurd h hcut) hc]
      simp [hfull, hcut]
  · rw [hl.open_iff_of_whole (fun _ => hfull) hc]
    simp [hfull]

end Leads

structure Made (sys : System) (path : CString) (wd n : ℤ) (k : Kernel) (s : ℤ) (name : CString) (i : ℕ)
    (kind : ℤ → Option Kind) : Prop where
  grounded : Grounded sys.fs k.disk kind
  unused : ∀ {x}, kind x = some .dir → x ≠ i → CutUnused k.disk x
  steady : (Cuts n → 40 ≤ n) → ({ sys with kernel := k } : System).Steady kind
  stable : ¬Cuts n → ({ sys with kernel := k } : System).Stable kind
  start : kind wd = some .dir
  parent : resolve sys.kernel.disk (components path) wd = some (s, name)
  leads : resolve k.disk (components path) wd = some (s, name)
  apart : Along (· ≠ (i : ℤ)) k.disk (components path) wd
  ne : s ≠ i
  sector : (freeMapAt sys.kernel.disk).free.head? = some i
  dir : kind i = some .dir
  links : ∃ old old' new, LinksWritten k.disk i s n old old' new
  entry : (freeSlot (tableAt sys.kernel.disk s) = none ∧ lookupIn k.disk s name = none) ∨
    freeSlot (tableAt sys.kernel.disk s) ≠ none ∧ ∃ e, lookupIn k.disk s name = some e ∧
    e.sector.toInt = i ∧ e.isDir ≠ 0

lemma Stable.made {t : ℕ} {path : CString} {n : ℤ} {k : Kernel} (hst : sys.Stable kind) (hn : int32 n = n)
    (hm : exec (sys.fs.makeDir path n (sys.wd t)) sys.kernel = .ok (true, k)) :
    ∃ (s : ℤ) (name : CString) (i : ℕ) (kind' : ℤ → Option Kind), Made sys path (sys.wd t) n k s name i kind' := by
  have hs := hst.sound
  have hwd := hst.wd t
  obtain ⟨hx, ⟨hf, -⟩ | ⟨-, s, name, i, hr, hnone, hi, hinst, hlinks, hg, hs'⟩⟩ := hs.makeDir_inv hwd hn hm
  · cases hf
  have hks := hs.kind_of_resolve _ hwd hr
  have hmem := mem_sectors_of_head hi
  have hfresh := hs.storage.kind_of_free hmem
  have hne : ∀ {x}, kind x = some .dir → x ≠ i := by
    rintro x hkx rfl
    rw [hfresh] at hkx
    cases hkx
  have hk := hinst.keeps (fun _ _ => False) hfresh hnone
  refine ⟨s, name, i, Function.update kind i (some .dir), hg, fun {x} hkx hx => ?_,
    fun h40 => hst.toSteady.of_installed hx hfresh hnone hinst (hs' h40 (hst.nextWhole hks)),
    fun hcut => hst.of_installed hx hfresh hnone hinst (fun _ => by rwa [hinst.numBytes hn])
      (hs' fun h => absurd h hcut) hks, hk.dirs hwd, hr, hk.resolve hs _ hwd hr,
    hs.along_congr _ (fun hkx _ _ he hd => hk.lookups hkx he (Or.inl hd)) hwd hr
      (hs.along_mono (fun hkx _ => hne hkx) _ hwd (hs.along_dirs _ hwd)),
      hne hks, hi, Function.update_self _ _ _, hlinks, ?_⟩
  · rw [Function.update_of_ne hx] at hkx
    exact hinst.cutUnused hs.toGrounded hks hkx (fun _ => hst.nextWhole hks) (hs.unused hkx)
  · by_cases hroom : freeSlot (tableAt sys.kernel.disk s) = none
    · exact Or.inl ⟨hroom, (hinst.lookupIn_of_full hroom).trans hnone⟩
    · obtain ⟨e, hlook, hsec, hdir⟩ := hinst.lookupIn_eq (inDisk_of_free hmem) hnone hroom
      exact Or.inr ⟨hroom, e, hlook, hsec, by rw [hdir]; decide⟩

namespace Made

variable {path : CString} {wd n s : ℤ} {k : Kernel} {name : CString} {i : ℕ}

lemma linked (h : Made sys path wd n k s name i kind) : Linked k.disk i s n := by
  obtain ⟨old, old', new, hl⟩ := h.links
  exact hl.linked

lemma directoryAt_iff (h : Made sys path wd n k s name i kind) :
    directoryAt k.disk path wd = i ↔ freeSlot (tableAt sys.kernel.disk s) ≠ none := by
  rw [directoryAt, h.leads]
  dsimp only
  obtain ⟨hfull, hl⟩ | ⟨hroom, e, hl, hsec, hdir⟩ := h.entry
  · rw [hl]
    simp [hfull]
  · rw [hl]
    dsimp only
    rw [if_pos hdir, hsec]
    simp [hroom]

lemma leads_inside (h : Made sys path wd n k s name i kind) (h40 : Cuts n → 40 ≤ n)
    (hroom : freeSlot (tableAt sys.kernel.disk s) ≠ none) {x : CString} (hx : 0x2f#8 ∉ chars x) :
    ({ sys with kernel := k } : System).Leads (inside path x) wd i (chars x) kind := by
  obtain ⟨hfull, -⟩ | ⟨-, e, hl, hsec, hdir⟩ := h.entry
  · exact absurd hfull hroom
  · refine ⟨h.steady h40, h.start, ?_, ?_⟩
    · rw [components_inside path hx, ← hsec]
      exact resolve_append _ (components_ne_nil path) h.leads hl hdir
    · rw [components_inside path hx]
      exact h.apart.append _ h.leads h.ne

end Made

end System

lemma System.boot_made {n : ℤ} (hn : int32 n = n) (hfew : sectorsNeeded n ≤ 2) :
    ∃ (sys : System) (k : Kernel) (i : ℕ) (kind : ℤ → Option Kind), System.boot Kernel.blank = .ok sys ∧
      Formatted sys.fs sys.kernel.disk ∧ (∀ t, sys.wd t = DirectorySector) ∧
      exec (sys.fs.makeDir bin n (sys.wd 0)) sys.kernel = .ok (true, k) ∧
      System.Made sys bin (sys.wd 0) n k DirectorySector bin i kind ∧
      hdrAt k.disk DirectorySector = hdrAt sys.kernel.disk DirectorySector ∧
      (hdrAt k.disk i).numSectors = int32 (divRoundUp n SectorSize) ∧ 1000 ≤ (freeMapAt k.disk).free.length := by
  obtain ⟨sys, hb, hf, hst, hwd, -⟩ := System.boot_spec Kernel.blank
  have hres : resolve sys.kernel.disk (components bin) (sys.wd 0) = some (DirectorySector, bin) := by
    rw [hwd]
    rfl
  have hfree := hf.free
  obtain ⟨i, k, old, old', new, hi, he, -, hinst, -⟩ := hst.sound.exec_makeDir_succeeds (hst.wd 0) rfl hres
    (hf.lookupIn_root bin) hn (by omega) (by simp only [newBlocks]; omega)
  obtain ⟨s, name, i', kind, hmade⟩ := hst.made hn he
  cases hres.symm.trans hmade.parent
  cases hi.symm.trans hmade.sector
  have hleft := hinst.free
  simp only [newBlocks] at hleft
  refine ⟨sys, k, i, kind, hb, hf, hwd, he, hmade, hinst.hdrs rfl, ?_, by omega⟩
  obtain ⟨p, ds, hh⟩ := hinst.hdr
  rw [hh, ← zero_add (divRoundUp n SectorSize)]
  rfl

lemma Linked.room {d : Disk} {i s n : ℤ} (h : Linked d i s n) (hslots : 3 ≤ slotsIn n) :
    freeSlot (tableAt d i) ≠ none := by
  obtain ⟨old, old', dir, hl, htab⟩ := h
  obtain ⟨junk, ht, hj⟩ := hl.eq
  have hlen := hl.length
  rw [ht, List.length_append] at hlen
  change 2 + junk.length = 10 at hlen
  obtain ⟨e, rest, rfl⟩ := List.exists_cons_of_length_pos (l := junk) (by omega)
  intro hnone
  have hmem : e ∈ tableAt d i := by
    rw [htab, ht]
    refine List.mem_of_getElem? (i := 2) ?_
    rw [List.getElem?_take_of_lt (by omega)]
    rfl
  have hused := List.findIdx?_eq_none_iff.mp hnone e hmem
  rw [hj e List.mem_cons_self] at hused
  simp at hused

lemma Linked.printable {d : Disk} {i s n : ℤ} (h : Linked d i s n) (hi : InDisk i) (hs : InDisk s)
    (hself : (hdrAt d i).numSectors ≤ (NumDirect : ℤ)) (hparent : (hdrAt d s).numSectors ≤ (NumDirect : ℤ)) :
    Printable d i := by
  obtain ⟨old, old', dir, hl, htab⟩ := h
  obtain ⟨junk, ht, hj⟩ := hl.eq
  intro e he hu
  rw [htab, ht] at he
  rcases List.mem_append.mp (List.mem_of_mem_take he) with he | he
  · rcases List.mem_cons.mp he with rfl | he
    · rw [old.filled_sector _ _ hi]
      exact hself
    · rw [List.mem_singleton.mp he, old'.filled_sector _ _ hs]
      exact hparent
  · exact absurd (hj e he) hu

lemma Linked.lookupIn_none {d : Disk} {i s n : ℤ} (h : Linked d i s n) {name : CString} (hdot : key dot ≠ key name)
    (hdotdot : key dotdot ≠ key name) : lookupIn d i name = none := by
  obtain ⟨old, old', dir, hl, htab⟩ := h
  obtain ⟨junk, ht, hj⟩ := hl.eq
  refine List.find?_eq_none.mpr fun e he hn => ?_
  obtain ⟨hu, hkey⟩ := named_iff.mp hn
  rw [htab, ht] at he
  rcases List.mem_append.mp (List.mem_of_mem_take he) with he | he
  · rcases List.mem_cons.mp he with rfl | he
    · rw [DirectoryEntry.filled_key] at hkey
      exact hdot hkey
    · rw [List.mem_singleton.mp he, DirectoryEntry.filled_key] at hkey
      exact hdotdot hkey
  · exact absurd (hj e he) hu

end NachosFileSys
