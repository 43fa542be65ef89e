import NachosFileSys.System

namespace NachosFileSys

open Lib.Programs Lib.Bytes Lib.Runs

lemma sectorsNeeded_zero : sectorsNeeded 0 = 0 := by decide

lemma newBlocks_zero : newBlocks 0 0 = 0 := rfl

lemma countP_set {α : Type} {p : α → Bool} {l : List α} {b : α} (a : α) : ∀ {i : ℕ}, l[i]? = some b →
    (l.set i a).countP p + (if p b then 1 else 0) = l.countP p + (if p a then 1 else 0) := by
  induction l with
  | nil => intro i h; cases h
  | cons c l ih =>
    intro i h
    cases i with
    | zero =>
      cases h
      rw [List.set_cons_zero, List.countP_cons, List.countP_cons]
      omega
    | succ i =>
      have := ih (i := i) h
      rw [List.set_cons_succ, List.countP_cons, List.countP_cons]
      omega

def clearSlots (table : List DirectoryEntry) : ℕ := table.countP fun e => e.inUse = 0

lemma freeSlot_ne_none {table : List DirectoryEntry} (h : 0 < clearSlots table) : freeSlot table ≠ none := by
  obtain ⟨e, he, hu⟩ := List.countP_pos_iff.mp h
  exact fun hnone => absurd hu (List.findIdx?_eq_none_iff.mp hnone e he ▸ Bool.false_ne_true)

lemma freeSlot_of_unused {table : List DirectoryEntry} (hlen : 0 < table.length) (h : ∀ e ∈ table, e.inUse = 0) :
    freeSlot table ≠ none := by
  refine freeSlot_ne_none ?_
  rw [clearSlots, List.countP_eq_length.mpr fun e he => decide_eq_true (h e he)]
  exact hlen

section Installed

variable {d d' : Disk} {kind : ℤ → Option Kind} {s i n : ℤ} {name name' : CString}
  {isDir : Byte} {c : Kind} {j : ℕ}
  {e : DirectoryEntry}

lemma Installed.table_cases (hinst : Installed d kind s name i isDir c n d') (he : (tableAt d' s)[j]? = some e) :
    (tableAt d s)[j]? = some e ∨
      freeSlot (tableAt d s) = some j ∧ ∃ old : DirectoryEntry, e = old.filled name i isDir := by
  rw [hinst.table, withEntry] at he
  cases hf : freeSlot (tableAt d s) with
  | none =>
    rw [hf] at he
    exact Or.inl he
  | some m =>
    obtain ⟨old, hold, -⟩ := freeSlot_spec hf
    rw [hf] at he
    dsimp only at he
    rw [modify_eq_set_of_getElem? hold, List.getElem?_set] at he
    split at he
    · rename_i hm
      subst hm
      rw [if_pos (List.getElem?_eq_some_iff.mp hold).1] at he
      cases he
      exact Or.inr ⟨rfl, old, rfl⟩
    · exact Or.inl he

lemma Installed.lookupIn_other (hinst : Installed d kind s name i isDir c n d') (hnone : lookupIn d s name' = none)
    (hne : key name ≠ key name') : lookupIn d' s name' = none := by
  refine List.find?_eq_none.mpr fun e he hn => ?_
  obtain ⟨j, hj⟩ := List.mem_iff_getElem?.mp he
  rcases hinst.table_cases hj with hold | ⟨-, old, rfl⟩
  · exact List.find?_eq_none.mp hnone e (List.mem_of_getElem? hold) hn
  · rw [named_iff] at hn
    exact hne ((named_iff.mp (old.filled_named name i isDir)).2.symm.trans hn.2)

lemma Installed.clearSlots_eq (hinst : Installed d kind s name i isDir c n d') :
    clearSlots (tableAt d' s) = clearSlots (tableAt d s) - 1 := by
  rw [hinst.table, withEntry]
  cases hf : freeSlot (tableAt d s) with
  | none =>
    have hall := List.findIdx?_eq_none_iff.mp hf
    have h0 : clearSlots (tableAt d s) = 0 := List.countP_eq_zero.mpr fun e he => by rw [hall e he]; decide
    exact h0.trans (by rw [h0])
  | some m =>
    obtain ⟨old, hold, hu⟩ := freeSlot_spec hf
    have hcount := countP_set (p := fun e : DirectoryEntry => e.inUse = 0) (old.filled name i isDir) hold
    rw [if_pos (decide_eq_true hu), if_neg (by simp [DirectoryEntry.filled])] at hcount
    dsimp only
    rw [modify_eq_set_of_getElem? hold, clearSlots, clearSlots]
    omega

lemma Unlinked.clearSlots_eq {i : ℕ} (hu : Unlinked d kind s i e d') (huse : e.inUse ≠ 0) :
    clearSlots (tableAt d' s) = clearSlots (tableAt d s) + 1 := by
  have hcount := countP_set (p := fun e : DirectoryEntry => e.inUse = 0) { e with inUse := 0 } hu.entry
  rw [if_neg (by simpa using huse), if_pos (decide_eq_true rfl)] at hcount
  rw [hu.table, clearSlots, clearSlots]
  omega

lemma Unlinked.lookupIn_none {i : ℕ} (hu : Unlinked d kind s i e d') (hnone : lookupIn d s name = none) :
    lookupIn d' s name = none := by
  refine List.find?_eq_none.mpr fun e' he' hn => ?_
  rw [hu.table] at he'
  rcases List.mem_or_eq_of_mem_set he' with hold | rfl
  · exact List.find?_eq_none.mp hnone e' hold hn
  · exact (named_iff.mp hn).1 rfl

end Installed

lemma Formatted.lookupIn_root {fs : FileSystem} {d : Disk} (hf : Formatted fs d) (name : CString) :
    lookupIn d DirectorySector name = none :=
  List.find?_eq_none.mpr fun e he hn => (named_iff.mp hn).1 (hf.unused e he)

lemma Formatted.clearSlots_eq {fs : FileSystem} {d : Disk} (hf : Formatted fs d) :
    clearSlots (tableAt d DirectorySector) = NumDirEntries := by
  rw [clearSlots, List.countP_eq_length.mpr fun e he => decide_eq_true (hf.unused e he), hf.slots]

abbrev pathF : CString := [0x66]

abbrev pathG : CString := [0x67]

abbrev bin : CString := [0x62, 0x69, 0x6e]

namespace System

variable {sys : System} {kind : ℤ → Option Kind} {room free : ℕ} {name : CString} {n : ℤ}

/-- Every thread is at the root, which can be printed. At least `room` of its entries are not in use, and at least
`free` sectors are free. -/
structure AtRoot (sys : System) (kind : ℤ → Option Kind) (room free : ℕ) : Prop extends sys.Stable kind where
  wdRoot : ∀ t, sys.wd t = DirectorySector
  room : room ≤ clearSlots (tableAt sys.kernel.disk DirectorySector)
  free : free ≤ (freeMapAt sys.kernel.disk).free.length
  printable : Printable sys.kernel.disk DirectorySector
  backed : PlainBacked sys.kernel.disk kind

lemma boot_atRoot (k : Kernel) : ∃ sys, boot k = .ok sys ∧ sys.AtRoot formatted NumDirEntries 1017 ∧
    (freeMapAt sys.kernel.disk).free.length = 1017 ∧
    ∀ name, lookupIn sys.kernel.disk DirectorySector name = none := by
  obtain ⟨sys, hb, hf, hst, hwd, -⟩ := boot_spec k
  refine ⟨sys, hb,
    ⟨hst, hwd, hf.clearSlots_eq.ge, hf.free.ge, fun e he hu => absurd (hf.unused e he) hu, fun {x} hk => ?_⟩,
    hf.free, hf.lookupIn_root⟩
  rcases formatted_cases hk with ⟨-, h⟩ | ⟨-, h⟩ <;> cases h

section Steps

variable {sys' : System} {t : ℕ} {path : CString} {k : Kernel}

lemma step_create {b : Bool} (h : exec (sys.fs.create path n (sys.wd t)) sys.kernel = .ok (b, k)) :
    step (.create t path n) sys = .ok { sys with kernel := k } := by
  rw [step, h]
  rfl

lemma step_makeDir {b : Bool} (h : exec (sys.fs.makeDir path n (sys.wd t)) sys.kernel = .ok (b, k)) :
    step (.makeDir t path n) sys = .ok { sys with kernel := k } := by
  rw [step, h]
  rfl

lemma step_remove {b : Bool} (h : exec (sys.fs.remove path (sys.wd t)) sys.kernel = .ok (b, k)) :
    step (.remove t path) sys = .ok { sys with kernel := k } := by
  rw [step, h]
  rfl

lemma step_session {actions : List Action} {u : Unit}
    (h : exec (NachosFileSys.session sys.fs path (sys.wd t) actions) sys.kernel = .ok (u, k)) :
    step (.session t path actions) sys = .ok { sys with kernel := k } := by
  rw [step, h]
  rfl

end Steps

lemma AtRoot.resolve (h : sys.AtRoot kind room free) (t : ℕ) (hname : components name = [name]) :
    resolve sys.kernel.disk (components name) (sys.wd t) = some (DirectorySector, name) := by
  rw [h.wdRoot, hname]
  rfl

section Installed

variable {i : ℕ} {isDir : Byte} {c : Kind} {k : Kernel} {left : ℕ}

lemma AtRoot.installed (h : sys.AtRoot kind (room + 1) free)
    (hinst : Installed sys.kernel.disk kind DirectorySector name i isDir c n k.disk)
    (hst : Stable { sys with kernel := k } (Function.update kind (i : ℤ) (some c)))
    (hi : InDisk i) (hn : int32 n = n)
    (hsmall : int32 (divRoundUp n SectorSize) ≤ (NumDirect : ℤ))
    (hfree : sectorsNeeded n + newBlocks 0 (sectorsNeeded n) + 1 + left ≤ free) :
    AtRoot { sys with kernel := k } (Function.update kind (i : ℤ) (some c)) room left := by
  have hroom := h.room
  have hclear := h.free
  have hleft := hinst.free
  refine ⟨hst, h.wdRoot, ?_, ?_, hinst.printable h.sound h.sound.names.root hi hsmall h.printable,
      hinst.plainBacked hn h.backed⟩
  · dsimp only
    rw [hinst.clearSlots_eq]
    omega
  · dsimp only
    omega

end Installed

lemma AtRoot.create (h : sys.AtRoot kind (room + 1) free) (t left : ℕ) (hname : components name = [name])
    (hnone : lookupIn sys.kernel.disk DirectorySector name = none) {n : ℤ} (hn : int32 n = n)
    (hsmall : int32 (divRoundUp n SectorSize) ≤ (NumDirect : ℤ)) (hcap : sectorsNeeded n ≤ 928)
    (hfree : sectorsNeeded n + newBlocks 0 (sectorsNeeded n) + 1 + left ≤ free) :
    ∃ (i : ℕ) (k : Kernel), exec (sys.fs.create name n (sys.wd t)) sys.kernel = .ok (true, k) ∧
      (freeMapAt sys.kernel.disk).free.head? = some i ∧
      Installed sys.kernel.disk kind DirectorySector name i 0 .plain n k.disk ∧
      AtRoot { sys with kernel := k } (Function.update kind (i : ℤ) (some .plain)) room left ∧
      ∃ e, lookupIn k.disk DirectorySector name = some e ∧ e.sector.toInt = i ∧ e.isDir = 0 := by
  have hclear := h.free
  have hroom := h.room
  have hroot := h.sound.names.root
  obtain ⟨i, k, hi, he, hx, -, hinst, hs⟩ :=
    h.sound.exec_create_succeeds (h.wd t) rfl (h.resolve t hname) hnone hcap (by omega)
  have hmem := mem_sectors_of_head hi
  have hst :=
    h.toStable.of_installed hx (h.sound.storage.kind_of_free hmem) hnone hinst (fun hc => by cases hc) hs hroot
  exact ⟨i, k, he, hi, hinst, h.installed hinst hst (inDisk_of_free hmem) hn hsmall hfree,
    hinst.lookupIn_eq (inDisk_of_free hmem) hnone (freeSlot_ne_none (by omega))⟩

lemma AtRoot.makeDir (h : sys.AtRoot kind (room + 1) free) (t left : ℕ) (hname : components name = [name])
    (hnone : lookupIn sys.kernel.disk DirectorySector name = none)
    {n : ℤ} (hn : int32 n = n) (hclean : CleanLength n)
    (hsmall : int32 (divRoundUp n SectorSize) ≤ (NumDirect : ℤ)) (hcap : sectorsNeeded n ≤ 928)
    (hfree : sectorsNeeded n + newBlocks 0 (sectorsNeeded n) + 1 + left ≤ free) :
    ∃ (i : ℕ) (k : Kernel), exec (sys.fs.makeDir name n (sys.wd t)) sys.kernel = .ok (true, k) ∧
      Installed sys.kernel.disk kind DirectorySector name i 1 .dir n k.disk ∧
      AtRoot { sys with kernel := k } (Function.update kind (i : ℤ) (some .dir)) room left ∧ kind i = none ∧
      ∃ e, lookupIn k.disk DirectorySector name = some e ∧ e.sector.toInt = i ∧ e.isDir = 1 := by
  have hclear := h.free
  have hroom := h.room
  have hroot := h.sound.names.root
  obtain ⟨i, k, old, old', new, hi, he, hx, hinst, -, -, hs⟩ :=
    h.sound.exec_makeDir_succeeds (h.wd t) rfl (h.resolve t hname) hnone hn hcap (by omega)
  have hmem := mem_sectors_of_head hi
  have hfresh := h.sound.storage.kind_of_free hmem
  have hst :=
    h.toStable.of_installed hx hfresh hnone hinst (fun _ => by rw [hinst.numBytes hn]; exact hclean.not_cuts)
    (hs fun hcut => absurd hcut hclean.not_cuts) hroot
  exact ⟨i, k, he, hinst, h.installed hinst hst (inDisk_of_free hmem) hn hsmall hfree, hfresh,
    hinst.lookupIn_eq (inDisk_of_free hmem) hnone (freeSlot_ne_none (by omega))⟩

lemma AtRoot.restart (h : sys.AtRoot kind room free) : ∃ sys', step .restart sys = .ok sys' ∧
    sys'.kernel.disk = sys.kernel.disk ∧ sys'.AtRoot kind room free ∧
    ∀ s, HeldOpen sys'.kernel.maps s = false := by
  obtain ⟨fs, k, he, hd, hx, hs, hcounts⟩ := h.sound.exec_mount (k := reset sys.kernel) rfl
  have hst : Stable ⟨fs, k, fun _ => DirectorySector, []⟩ kind := by
    refine ⟨⟨by dsimp only; rw [hd]; exact hs, hx (atRest_reset _), fun _ => hs.names.root,
      fun f hf => absurd hf List.not_mem_nil, hcounts (fun _ => rfl) _⟩, ?_⟩
    dsimp only
    rw [hd]
    exact h.uncut
  refine ⟨⟨fs, k, fun _ => DirectorySector, []⟩, ?_, hd, ⟨hst, fun _ => rfl, ?_, ?_, ?_, ?_⟩,
      (hcounts fun _ => rfl).heldOpen⟩
  · rw [step, he]
    rfl
  · dsimp only
    rw [hd]
    exact h.room
  · dsimp only
    rw [hd]
    exact h.free
  · dsimp only
    rw [hd]
    exact h.printable
  · dsimp only
    rw [hd]
    exact h.backed

lemma AtRoot.remove (h : sys.AtRoot kind room free) (t : ℕ) (hname : components name = [name])
    (hheld : HeldOpen sys.kernel.maps DirectorySector = false) {e : DirectoryEntry}
    (hlook : lookupIn sys.kernel.disk DirectorySector name = some e) (hplain : e.isDir = 0) :
    ∃ i k, exec (sys.fs.remove name (sys.wd t)) sys.kernel = .ok (true, k) ∧
      Unlinked sys.kernel.disk kind DirectorySector i e k.disk ∧
      AtRoot { sys with kernel := k } (Function.update kind e.sector.toInt none) (room + 1) free := by
  have hroot := h.sound.names.root
  obtain ⟨hmem, huse, -⟩ := Sound.lookupIn_spec hlook
  obtain ⟨i, k, he, hx, hu, hs⟩ :=
    h.sound.exec_remove_succeeds (h.wd t) rfl h.rest (h.resolve t hname) hheld hlook hplain
    (h.printable e hmem huse)
  have hkeep := hu.keeps h.sound hroot hlook hplain
  obtain ⟨freed, hclear, -⟩ := hu.cleared
  refine ⟨i, k, he, hu,
      ⟨⟨⟨hs, hx.rests h.rest, fun t => hkeep.dirs (h.wd t), h.handles, hx.mapCount.trans h.mapCount⟩,
      fun {x} hk => ?_⟩,
    h.wdRoot, ?_, h.free.trans hclear.free_length_le, fun e' he' hu' => ?_, hu.plainBacked h.backed⟩⟩
  · dsimp only at hk ⊢
    rw [Function.update_apply] at hk
    split at hk
    · cases hk
    · rw [hu.hdrs hk]
      exact h.uncut hk
  · dsimp only
    rw [hu.clearSlots_eq huse]
    exact Nat.succ_le_succ h.room
  · dsimp only at he' ⊢
    rw [hu.table] at he'
    rcases List.mem_or_eq_of_mem_set he' with hold | rfl
    · rw [hu.hdrs (h.sound.names.points hroot hold hu')]
      exact h.printable e' hold hu'
    · exact absurd rfl hu'

lemma AtRoot.session (h : sys.AtRoot kind room free) (t : ℕ)
    (hname : components name = [name]) {e : DirectoryEntry}
    (hlook : lookupIn sys.kernel.disk DirectorySector name = some e) (hplain : e.isDir = 0) (src : List Byte)
    (hlen : 0 ≤ (hdrAt sys.kernel.disk e.sector.toInt).numBytes) (hlt : src.length < 2147483648)
    (hfit : Fits (dataAt sys.kernel.disk e.sector.toInt).length src.length
    (freeMapAt sys.kernel.disk).free.length) :
    ∃ k, exec (NachosFileSys.session sys.fs name (sys.wd t) [.write src src.length]) sys.kernel = .ok ((), k) ∧
      SameDirs kind sys.kernel.disk k.disk := by
  have hres := h.resolve t hname
  have hk : kind e.sector.toInt = some .plain := by
    rw [h.sound.kind_of_lookupIn h.sound.names.root hlook, DirectoryEntry.kind, if_pos hplain]
  obtain ⟨k₁, ho, hd₁, hx₁, hkeys, -⟩ := h.sound.exec_open_found (h.wd t) rfl hres h.printable hlook
  let f : OpenFile := ⟨hdrAt sys.kernel.disk e.sector.toInt, 0, e.sector.toInt⟩
  have hcur : f.Current k₁.disk := by rw [OpenFile.Current, hd₁]
  have hs : Sound sys.fs k₁.disk kind := by
    rw [hd₁]
    exact h.sound
  have hb : PlainBacked k₁.disk kind := by
    rw [hd₁]
    exact h.backed
  have hsem := (hx₁.rests h.rest).semaphoreWrite (hkeys .semaphoreWrite)
  obtain ⟨f', k₂, hw⟩ : ∃ f' k₂, exec (OpenFile.write sys.fs.freeMapFile f src src.length) k₁ =
      .ok ((src.length, f'), k₂) :=
    hs.exec_write (p := 0) hk hcur hb hsem rfl hlen (by omega) le_rfl (Or.inr (by rw [hd₁]; exact hfit))
  obtain ⟨-, -, -, hsec, -⟩ := hs.write_inv hk hcur hsem hw
  obtain ⟨k₃, hc, -⟩ := OpenFile.exec_close f' (by rw [hsec]; exact h.sound.plain_ne_map hk) k₂
  have he : exec (NachosFileSys.session sys.fs name (sys.wd t) [.write src src.length]) sys.kernel =
      .ok ((), k₃) := by
    rw [NachosFileSys.session, exec_bind_of_ok ho]
    change exec (NachosFileSys.perform sys.fs.freeMapFile [.write src src.length] f >>= fun f => f.close) k₁ = _
    rw [NachosFileSys.perform, bind_assoc, exec_bind_of_ok hw]
    exact hc
  refine ⟨k₃, he, (session_inv h.sound (h.wd t) h.rest (fun s name' e' hr hl => ?_) he).2.2.1⟩
  cases hres.symm.trans hr
  cases hlook.symm.trans hl
  exact hplain

end System

end NachosFileSys
