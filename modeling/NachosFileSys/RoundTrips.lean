import NachosFileSys.Navigation

namespace NachosFileSys

open Lib.Programs Lib.Bytes Lib.Runs

/-- The disk `d'` holds what `d` holds: the free map, the entries in use of the directories to which paths
lead, and the sectors of the plain files in them. -/
structure Restored (starts : ℤ → Prop) (d d' : Disk) : Prop where
  map : freeMapAt d' = freeMapAt d
  entries : ∀ {wd path s name}, starts wd → resolve d (components path) wd = some (s, name) →
    ∀ (j : ℕ) (e : DirectoryEntry), e.inUse ≠ 0 → ((tableAt d' s)[j]? = some e ↔ (tableAt d s)[j]? = some e)
  files : ∀ {wd path s name e}, starts wd → resolve d (components path) wd = some (s, name) →
    lookupIn d s name = some e → e.isDir = 0 → ∀ x ∈ owned d e.sector.toInt, d' x = d x

lemma getElem?_set_unused {table : List DirectoryEntry} {i : ℕ}
    {old new : DirectoryEntry} (hold : table[i]? = some old)
    (hu : old.inUse = 0) (hu' : new.inUse = 0) (j : ℕ) {e : DirectoryEntry} (he : e.inUse ≠ 0) :
    (table.set i new)[j]? = some e ↔ table[j]? = some e := by
  by_cases hj : i = j
  · subst hj
    have hi : i < table.length := (List.getElem?_eq_some_iff.mp hold).1
    rw [List.getElem?_set_self hi, hold]
    constructor
    · rintro h
      cases h
      exact absurd hu' he
    · rintro h
      cases h
      exact absurd hu he
  · rw [List.getElem?_set_ne hj]

section

variable {fs : FileSystem} {d d₁ d₂ : Disk} {kind : ℤ → Option Kind} {s i n : ℤ} {name : CString} {j : ℕ}
  {e : DirectoryEntry}

lemma Installed.slot (hinst : Installed d kind s name i 0 .plain n d₁)
    (hi : InDisk i) (hnone : lookupIn d s name = none)
    (hlook : lookupIn d₁ s name = some e) :
    ∃ (j : ℕ) (old : DirectoryEntry), (tableAt d s)[j]? = some old ∧ old.inUse = 0 ∧
      tableAt d₁ s = (tableAt d s).set j e ∧ e.sector.toInt = i ∧ e.isDir = 0 := by
  have htab := hinst.table
  rw [withEntry] at htab
  cases hf : freeSlot (tableAt d s) with
  | none =>
    rw [hf] at htab
    rw [lookupIn, htab] at hlook
    cases hlook.symm.trans hnone
  | some j =>
    obtain ⟨old, hold, hu⟩ := freeSlot_spec hf
    rw [hf] at htab
    dsimp only at htab
    rw [modify_eq_set_of_getElem? hold] at htab
    obtain rfl : old.filled name i 0 = e := by
      have hfound := find?_set_of_none (old.filled_named name i 0) _ j hnone (by rw [hold]; simp)
      rw [lookupIn, htab] at hlook
      exact Option.some.inj (hfound.symm.trans hlook)
    exact ⟨j, old, hold, hu, htab, old.filled_sector name 0 hi, rfl⟩

lemma Installed.blocks_le (hinst : Installed d kind s name i 0 .plain n d₁) :
    (blocksAt d₁ i).length ≤ (hdrAt d₁ i).numSectors.toNat := by
  have hfile := hinst.storage.file (Function.update_self i (some Kind.plain) kind)
  have hdata : (dataAt d₁ i).length = (divRoundUp n SectorSize).toNat := hinst.data
  have hblocks : (blocksAt d₁ i).length = ((dataAt d₁ i).length + 31) / 32 := hfile.on.stored.blocks_length
  have hle : (dataAt d₁ i).length ≤ 32 * (hdrAt d₁ i).dataSectors.length := hfile.on.stored.secs_length_le
  rw [hfile.on.length] at hle
  obtain ⟨p, ds, hh⟩ := hinst.hdr
  have hnum : (hdrAt d₁ i).numSectors = int32 (0 + divRoundUp n SectorSize) := by rw [hh]; rfl
  rcases le_or_gt (divRoundUp n SectorSize) 0 with hneg | hpos
  · omega
  · have hdirect : NumDirect = 29 := rfl
    rw [hnum, int32_of_bounds (by omega) (by omega)]
    omega

lemma Unlinked.restored {starts : ℤ → Prop} (hs : Sound fs d kind)
    (hstarts : ∀ wd, starts wd → kind wd = some .dir)
    (hinst : Installed d kind s name i 0 .plain n d₁) (hs₁ : Sound fs d₁ (Function.update kind i (some .plain)))
    (hks : kind s = some .dir) (hfresh : kind i = none) (hi : InDisk i) (hnone : lookupIn d s name = none)
    (hlook : lookupIn d₁ s name = some e) (hu : Unlinked d₁ (Function.update kind i (some .plain)) s j e d₂) :
    Restored starts d d₂ := by
  obtain ⟨j', old, hold, hunused, htab, rfl, hplain⟩ := hinst.slot hi hnone hlook
  have hkind : ∀ {x c}, kind x = some c → x ≠ e.sector.toInt ∧
      Function.update kind e.sector.toInt (some .plain) x = some c := by
    intro x c hkx
    have hne : x ≠ e.sector.toInt := by
      rintro rfl
      rw [hfresh] at hkx
      cases hkx
    exact ⟨hne, by rw [Function.update_of_ne hne]; exact hkx⟩
  have hinuse := (Sound.lookupIn_spec hlook).2.1
  -- the entry that is removed is the one that was added
  have hslot : (tableAt d₁ s)[j']? = some e := by
    rw [htab, List.getElem?_set_self (List.getElem?_eq_some_iff.mp hold).1]
  obtain rfl : j = j' := hs₁.names.keys (hkind hks).2 hu.entry hslot hinuse hinuse rfl
  refine ⟨?_, fun {wd path x nm} hwd hr j' e' he' => ?_, fun {wd path x nm e'} hwd hr hl hp y hy => ?_⟩
  · obtain ⟨freed, hcl, hsub, hall⟩ := hu.cleared
    exact Cleared.of_taken hinst.taken hcl hsub (hall hinst.blocks_le)
  · have hkx := hs.kind_of_resolve _ (hstarts wd hwd) hr
    by_cases hx : x = s
    · subst hx
      rw [hu.table, htab, List.set_set]
      exact getElem?_set_unused hold hunused rfl j' he'
    · rw [hu.others (hkind hkx).2 hx, hinst.others hkx hx]
  · have hkx := hs.kind_of_resolve _ (hstarts wd hwd) hr
    have hke : kind e'.sector.toInt = some .plain := by
      rw [hs.kind_of_lookupIn hkx hl, DirectoryEntry.kind, if_pos hp]
    have howned : owned d₁ e'.sector.toInt = owned d e'.sector.toInt := by
      rw [owned, owned, blocksAt, blocksAt, hinst.hdrs hke, hinst.datas hke]
    rw [hu.files (hkind hke).2 (hkind hke).1 y (by rw [howned]; exact hy), hinst.files hke y hy]

end

namespace System

/-- Where paths start: at the root or in the working directory of a thread. -/
def Starts (sys : System) (wd : ℤ) : Prop := wd = DirectorySector ∨ ∃ t, wd = sys.wd t

def RemoveRestores (sys : System) (t : ℕ) (path : CString) (k : Kernel) : Prop :=
  ∃ k' s name, exec (sys.fs.remove path (sys.wd t)) k = .ok (true, k') ∧
    resolve k'.disk (components path) (sys.wd t) = some (s, name) ∧ lookupIn k'.disk s name = none ∧
    Restored sys.Starts sys.kernel.disk k'.disk

lemma Stable.removeRestores_iff {sys : System} {kind : ℤ → Option Kind}
    (hst : sys.Stable kind) {t : ℕ} {path : CString}
    {n : ℤ} {k k' : Kernel} {f : OpenFile} (hc : exec (sys.fs.create path n (sys.wd t)) sys.kernel = .ok (true, k))
    (ho : exec (FileSystem.openFile path (sys.wd t)) k = .ok (some f, k')) :
    sys.RemoveRestores t path k ↔ ∀ s name c, resolve sys.kernel.disk (components path) (sys.wd t) =
    some (s, name) →
      sys.kernel.maps .openFileCount s = some c → int32 (c + 1) ≤ 0 := by
  have hs := hst.sound
  have hrest := hst.rest
  have hwd := hst.wd
  obtain ⟨hx, ⟨hf, -⟩ | ⟨-, s, name, i, hr, hnone, hi, hcount, hinst, hs₁⟩⟩ := hs.create_inv (hwd t) hc
  · cases hf
  have hs₁ := hs₁ (hst.nextWhole (hs.kind_of_resolve _ (hwd t) hr))
  have hmem := mem_sectors_of_head hi
  have hfresh := hs.storage.kind_of_free hmem
  have hk := hinst.keeps (fun _ _ => False) hfresh hnone
  have hr₁ := hk.resolve hs _ (hwd t) hr
  obtain ⟨-, -, hfound⟩ := hs₁.open_inv (hk.dirs (hwd t)) ho
  obtain ⟨s', name', e, hr', hlook, -⟩ := hfound f rfl
  rw [hr₁] at hr'
  cases hr'
  have hprint : Printable k.disk s := by
    by_contra hp
    rw [hs₁.exec_open_outside (hk.dirs (hwd t)) rfl hr₁ hp] at ho
    cases ho
  obtain ⟨j, old, -, -, htab, hsec, hplain⟩ := hinst.slot (inDisk_of_free hmem) hnone hlook
  have hspec := Sound.lookupIn_spec hlook
  -- the open count of the directory after `Create`
  have hheld : HeldOpen k.maps s = false ↔ ∀ c, sys.kernel.maps .openFileCount s = some c → int32 (c + 1) ≤ 0 := by
    rw [HeldOpen, hcount hrest, Option.any_some, decide_eq_false_iff_not, not_lt]
    cases sys.kernel.maps .openFileCount s with
    | none => simp [counted]
    | some c => simp [counted]
  constructor
  · rintro ⟨k₂, s₂, name₂, hrem, -⟩ s' name' c hr' hcs
    rw [hr] at hr'
    cases hr'
    obtain ⟨-, ⟨hf, -⟩ | ⟨-, s₃, name₃, e₃, j₃, hr₃, hh, -⟩⟩ :=
      hs₁.remove_inv (hk.dirs (hwd t)) (hx.rests hrest) hrem
    · cases hf
    · rw [hr₁] at hr₃
      cases hr₃
      exact hheld.mp hh c hcs
  · intro hcond
    obtain ⟨j₂, k₂, hrem, -, hu, hs₂⟩ := hs₁.exec_remove_succeeds (hk.dirs (hwd t)) rfl (hx.rests hrest) hr₁
      (hheld.mpr fun c => hcond s name c hr) hlook hplain (hprint e hspec.1 hspec.2.1)
    have hks₁ := hs₁.kind_of_resolve _ (hk.dirs (hwd t)) hr₁
    have hk₂ := hu.keeps hs₁ hks₁ hlook hplain
    have hres : Restored sys.Starts sys.kernel.disk k₂.disk := by
      refine hu.restored hs (fun wd hstart => ?_) hinst hs₁ (hs.kind_of_resolve _ (hwd t) hr) hfresh
        (inDisk_of_free hmem) hnone hlook
      rcases hstart with rfl | ⟨t', rfl⟩
      · exact hs.names.root
      · exact hwd t'
    refine ⟨k₂, s, name, hrem, hk₂.resolve hs₁ _ (hk.dirs (hwd t)) hr₁,
        List.find?_eq_none.mpr fun e' he' hn => ?_, hres⟩
    obtain ⟨m, hm⟩ := List.mem_iff_getElem?.mp he'
    have hm' := (hres.entries (Or.inr ⟨t, rfl⟩) hr m e' (named_iff.mp hn).1).mp hm
    exact List.find?_eq_none.mp hnone e' (List.mem_of_getElem? hm') hn

end System

/-- `Remove` right after `Create` of a file that `Open` finds is the inverse of `Create` if and only if the
open that `Create` makes on the directory and never closes does not make its open count positive. -/
theorem remove_restores_create_iff (sys : System) (h : System.Reachable System.Regular sys)
    (t : ℕ) (path : CString) (n : ℤ)
    (k k' : Kernel) (f : OpenFile) (hc : exec (sys.fs.create path n (sys.wd t)) sys.kernel = .ok (true, k))
    (ho : exec (FileSystem.openFile path (sys.wd t)) k = .ok (some f, k')) :
    sys.RemoveRestores t path k ↔ ∀ s name c, resolve sys.kernel.disk (components path) (sys.wd t) =
    some (s, name) →
      sys.kernel.maps .openFileCount s = some c → int32 (c + 1) ≤ 0 := by
  obtain ⟨kind, hst⟩ := h.stable
  exact hst.removeRestores_iff hc ho

/-- After a restart the directory `bin` has not been opened, and `bin/f` is created and removed again. -/
theorem remove_restores_create_in_bin :
    ∃ (sys : System) (k k' : Kernel) (f : OpenFile), exec (sys.fs.create binF 0 (sys.wd 0)) sys.kernel =
    .ok (true, k) ∧
      exec (FileSystem.openFile binF (sys.wd 0)) k = .ok (some f, k') ∧ sys.RemoveRestores 0 binF k := by
  have hclean : CleanLength 200 := Or.inr (Or.inr le_rfl)
  obtain ⟨sys₀, k₁, i, kind, hb, hf, hwd, hm, hmade, hroot, hself, hfree⟩ :=
    System.boot_made (n := 200) (by decide)
    (by decide)
  let sys₁ : System := { sys₀ with kernel := k₁ }
  have h₁ : System.step (.makeDir 0 bin 200) sys₀ = .ok sys₁ := by
    rw [System.step, hm]
    rfl
  -- the restart
  have hst₁ : sys₁.Stable kind := hmade.stable hclean.not_cuts
  have hs₁ := hst₁.sound
  obtain ⟨fs₂, k₂, hmount, hd₂, -, -, hcounts⟩ := hs₁.exec_mount (k := System.reset k₁) rfl
  let sys₂ : System := ⟨fs₂, k₂, fun _ => DirectorySector, []⟩
  have h₂ : System.step .restart sys₁ = .ok sys₂ := by
    rw [System.step, hmount]
    rfl
  have hroom : freeSlot (tableAt sys₀.kernel.disk DirectorySector) ≠ none :=
    freeSlot_of_unused (by rw [hf.slots]; decide) hf.unused
  obtain ⟨⟨kind₂, hl⟩, -⟩ := (hmade.leads_inside (fun _ => by decide) hroom (x := pathF) (by decide)).step
    (show sys₁.Regular .restart from trivial) trivial h₂
  rw [hwd] at hl
  -- the file
  have hlinked : Linked sys₂.kernel.disk i DirectorySector 200 := by
    dsimp only [sys₂]
    rw [hd₂]
    exact hmade.linked
  have hres : resolve sys₂.kernel.disk (components binF) (sys₂.wd 0) = some ((i : ℤ), [0x66]) := hl.leads
  have hfit : sectorsNeeded 0 + newBlocks 0 (sectorsNeeded 0) < (freeMapAt sys₂.kernel.disk).free.length := by
    dsimp only [sys₂]
    rw [sectorsNeeded_zero, newBlocks_zero, hd₂]
    exact Nat.lt_of_lt_of_le (by decide) hfree
  obtain ⟨j, k, -, hc, -⟩ := hl.steady.sound.exec_create_succeeds (hl.steady.wd 0) rfl hres
    (hlinked.lookupIn_none (by decide) (by decide)) (n := 0) (by rw [sectorsNeeded_zero]; decide)
    hfit
  have hprint : Printable sys₂.kernel.disk i := by
    dsimp only [sys₂]
    rw [hd₂]
    refine hmade.linked.printable (hs₁.inDisk hmade.dir) (hs₁.inDisk hs₁.names.root) ?_ ?_
    · rw [hself]
      decide
    · rw [hroot, hf.numSectors]
      decide
  obtain ⟨-, f, k', -, -, ho⟩ := (hl.open_iff hc).mpr ⟨Or.inl (hlinked.room (by decide)), hprint, by decide⟩
  refine ⟨sys₂, k, k', f, hc, ho, (remove_restores_create_iff sys₂ ⟨Kernel.blank, sys₀, hb, .step .restart
    (.step (.makeDir 0 bin 200) .refl ⟨by decide, hclean⟩ h₁) trivial h₂⟩ 0 binF 0 k k' f hc ho).mpr ?_⟩
  intro s name c hr hcount
  cases hres.symm.trans hr
  have hfresh : formatted i = none := hf.sound.storage.kind_of_free (mem_sectors_of_head hmade.sector)
  have hnone : sys₂.kernel.maps .openFileCount i = none := by
    refine (hcounts fun _ => rfl) i |>.trans (if_neg ?_)
    rintro (h | h) <;> rw [h] at hfresh <;> cases hfresh
  rw [hnone] at hcount
  cases hcount

/-- In the root directory, which the file system holds open, a file is created and cannot be removed. -/
theorem remove_refuses_created_file :
    ∃ (sys : System) (k k' : Kernel) (f : OpenFile), System.Reachable System.Regular sys ∧
      exec (sys.fs.create pathF 0 (sys.wd 0)) sys.kernel = .ok (true, k) ∧
      exec (FileSystem.openFile pathF (sys.wd 0)) k = .ok (some f, k') ∧ ¬sys.RemoveRestores 0 pathF k := by
  obtain ⟨sys, k, i, hb, hf, hst, hwd, hc, -, -, -, -, hcounts⟩ := System.boot_create
  have hres : resolve sys.kernel.disk (components pathF) (sys.wd 0) = some (DirectorySector, pathF) := by
    rw [hwd]
    rfl
  have hl : sys.Leads pathF (sys.wd 0) DirectorySector pathF formatted :=
    ⟨hst.toSteady, hst.wd 0, hres, trivial⟩
  obtain ⟨-, f, k', -, -, ho⟩ :=
    (hl.open_iff hc).mpr ⟨Or.inl (freeSlot_of_unused (by rw [hf.slots]; decide) hf.unused),
    fun e he hu => absurd (hf.unused e he) hu, by decide⟩
  refine ⟨sys, k, k', f, ⟨Kernel.blank, sys, hb, .refl⟩, hc, ho, fun hrem => ?_⟩
  have hle := (hst.removeRestores_iff hc ho).mp hrem _ _ 0 hres (hcounts DirectorySector)
  revert hle
  decide

end NachosFileSys
