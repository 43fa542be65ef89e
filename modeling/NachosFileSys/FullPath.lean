import NachosFileSys.Listing

namespace NachosFileSys

open Lib.Programs Lib.Bytes Lib.Runs

def cString (s : List Byte) : Except Fault (List Byte) := if 0 ∈ s then .ok (chars s) else .error .index

namespace Directory

def getNameBySector (d : Directory) (sector : ℤ) : List Byte :=
  match d.table.findIdx? fun e => e.sector.toInt = sector with
  | some i => d.toBytes.drop (EntrySize * i + 8)
  | none => [0]

def getFullPathLoop : ℕ → ℤ → ℤ → List Byte → Nachos (List Byte)
  | 0, _, _, _ => stop .depth
  | fuel + 1, sector, preSector, path =>
    if preSector = -1 then pure path
    else do
      let preDir ← new NumDirEntries
      let preDirFile ← OpenFile.new preSector
      let preDir ← preDir.fetchFrom preDirFile
      let currentName ← lift (cString (preDir.getNameBySector sector))
      let path := currentName ++ 0x2f#8 :: path
      preDirFile.close
      getFullPathLoop fuel preSector (preDir.find dotdot) path

/-- `GetFullPath`, up to the return of a pointer into a string that is no more. -/
def getFullPath (d : Directory) (fuel : ℕ) (sector : ℤ) : Nachos (List Byte) := do
  let path ← getFullPathLoop fuel sector (d.find dotdot) []
  pure (0x2f#8 :: path)

end Directory

/-- `FileSystem::PrintFullPath`, up to the string that `GetFullPath` builds. -/
def FileSystem.printFullPath (fuel : ℕ) (workSector : ℤ) : Nachos (List Byte) := do
  let dirFile ← OpenFile.new workSector
  let directory ← fetchDirectory dirFile
  directory.getFullPath fuel workSector

def follow : List CString → ℤ → Nachos ℤ
  | [], s => pure s
  | name :: names, s => do
    let s' ← FileSystem.changeDir name s
    if s' < 0 then pure s' else follow names s'

def pathNames (path : List Byte) : List CString := ((path.splitOn 0x2f#8).drop 1).dropLast

section Names

variable {d : Disk} {s : ℤ}

lemma not_mem_of_mem_splitOn {α : Type} [BEq α] [LawfulBEq α] {a : α} (l : List α) :
    ∀ part ∈ l.splitOn a, a ∉ part := by
  induction l with
  | nil => simp
  | cons x l ih =>
    intro part hpart
    rw [List.splitOn_cons_eq_if_modifyHead] at hpart
    split at hpart
    · rcases List.mem_cons.mp hpart with rfl | hpart
      · exact List.not_mem_nil
      · exact ih part hpart
    · rename_i hx
      obtain ⟨first, rest, hsplit⟩ := List.exists_cons_of_ne_nil (List.splitOn_ne_nil a l)
      rw [hsplit] at hpart ih
      rcases List.mem_cons.mp hpart with rfl | hpart
      · intro hmem
        rcases List.mem_cons.mp hmem with rfl | hmem
        · exact hx BEq.rfl
        · exact ih first List.mem_cons_self hmem
      · exact ih part (List.mem_cons_of_mem _ hpart)

lemma slash_not_mem_of_resolve (names : List CString) : ∀ {wd s : ℤ} {name : CString},
    (∀ part ∈ names, 0x2f#8 ∉ part) → resolve d names wd = some (s, name) → 0x2f#8 ∉ name := by
  induction names with
  | nil =>
    intro wd s name _ hr
    cases hr
    exact List.not_mem_nil
  | cons dirname rest ih =>
    intro wd s name hslash hr
    cases rest with
    | nil =>
      cases hr
      exact hslash _ List.mem_cons_self
    | cons name' rest =>
      rw [resolve_cons_cons] at hr
      cases he : lookupIn d wd dirname with
      | none =>
        rw [he] at hr
        cases hr
      | some e =>
        rw [he] at hr
        dsimp only at hr
        split at hr
        · exact ih (fun part hp => hslash part (List.mem_cons_of_mem _ hp)) hr
        · cases hr

lemma pathNames_join {names : List CString} (hslash : ∀ name ∈ names, 0x2f#8 ∉ name) :
    pathNames (0x2f#8 :: names.flatMap (· ++ [0x2f#8])) = names := by
  have hsplit : ∀ names : List CString, (∀ name ∈ names, 0x2f#8 ∉ name) →
      (names.flatMap (· ++ [0x2f#8])).splitOn 0x2f#8 = names ++ [[]] := by
    intro names
    induction names with
    | nil => exact fun _ => rfl
    | cons name names ih =>
      intro hslash
      rw [List.flatMap_cons, List.append_assoc, List.singleton_append,
        List.splitOn_append_cons_self_of_not_mem (hslash name List.mem_cons_self),
        ih fun name hn => hslash name (List.mem_cons_of_mem _ hn)]
      rfl
  have hfirst := List.splitOn_append_cons_self_of_not_mem (List.not_mem_nil : (0x2f#8 : Byte) ∉ [])
    (names.flatMap (· ++ [0x2f#8]))
  rw [pathNames, ← List.nil_append (0x2f#8 :: _), hfirst, hsplit names hslash, List.drop_one, List.tail_cons,
    List.dropLast_concat]

lemma lookupIn_congr {name name' : CString} (h : key name = key name') :
    lookupIn d s name = lookupIn d s name' := by
  rw [lookupIn, lookupIn]
  congr 1
  funext e
  rw [Bool.eq_iff_iff, named_iff, named_iff, h]

end Names

def DirectoryEntry.Linking (e : DirectoryEntry) (s : ℤ) : Prop :=
  e.inUse ≠ 0 ∧ e.isDir ≠ 0 ∧ key e.name.toList ≠ dotdot ∧ ¬(key e.name.toList = dot ∧ e.sector.toInt = s)

/-- What `GetFullPath` relies on where slot `i` of the directory at sector `s` links it to one below. -/
structure Signed (d : Disk) (s : ℤ) (i : ℕ) (e : DirectoryEntry) : Prop where
  up : ∃ e', lookupIn d e.sector.toInt dotdot = some e' ∧ e'.isDir ≠ 0 ∧ e'.sector.toInt = s
  first : ∀ j < i, ∀ e', (tableAt d s)[j]? = some e' → e'.sector.toInt ≠ e.sector.toInt
  ends : 0 ∈ e.name.toList
  slash : 0x2f#8 ∉ chars e.name.toList

/-- The root has no entry named `..`, and every directory below it leads back to it. -/
structure Homed (d : Disk) (kind : ℤ → Option Kind) : Prop where
  top : lookupIn d DirectorySector dotdot = none
  signed : ∀ {s : ℤ} {i : ℕ} {e : DirectoryEntry}, kind s = some .dir → (tableAt d s)[i]? = some e → e.Linking s →
    Signed d s i e

section Preserved

variable {fs : FileSystem} {d d' : Disk} {kind kind' : ℤ → Option Kind} {s n : ℤ} {i j : ℕ} {name : CString}
  {e : DirectoryEntry}

lemma Signed.keep (h : Signed d s i e)
    (hup : ∀ e', lookupIn d e.sector.toInt dotdot = some e' →
    e'.isDir ≠ 0 → lookupIn d' e.sector.toInt dotdot = some e')
    (hbefore : ∀ j < i, ∀ e', (tableAt d' s)[j]? = some e' →
    (∃ e'', (tableAt d s)[j]? = some e'' ∧ e''.sector = e'.sector) ∨
      e'.sector.toInt ≠ e.sector.toInt) : Signed d' s i e := by
  obtain ⟨e', hl, hdir, hsec⟩ := h.up
  refine ⟨⟨e', hup e' hl hdir, hdir, hsec⟩, fun j hj e₁ he₁ => ?_, h.ends, h.slash⟩
  obtain ⟨e₂, he₂, heq⟩ | hne := hbefore j hj e₁ he₁
  · rw [← heq]
    exact h.first j hj e₂ he₂
  · exact hne

lemma Homed.of_tables (h : Homed d kind) (hs : Sound fs d kind)
    (htab : ∀ {x}, kind x = some .dir → tableAt d' x = tableAt d x) : Homed d' kind := by
  have hlook : ∀ {x}, kind x = some .dir → ∀ name, lookupIn d' x name = lookupIn d x name := fun hk name => by
    rw [lookupIn, lookupIn, htab hk]
  refine ⟨by rw [hlook hs.names.root, h.top], fun {s i e} hk he hlink => ?_⟩
  rw [htab hk] at he
  refine (h.signed hk he hlink).keep (fun e' hl _ => ?_) fun j hj e' he' =>
    Or.inl ⟨e', by rw [← htab hk, he'], rfl⟩
  have hke : kind e.sector.toInt = some .dir := by
    rw [hs.names.points hk (List.mem_of_getElem? he) hlink.1, DirectoryEntry.kind, if_neg hlink.2.1]
  rw [hlook hke, hl]

lemma Homed.of_installed {isDir : Byte} {c : Kind} (h : Homed d kind)
    (hs : Sound fs d kind) (hks : kind s = some .dir)
    (hinst : Installed d kind s name i isDir c n d') (hfree : (freeMapAt d).free.head? = some i)
    (hnone : lookupIn d s name = none) (htop : s = DirectorySector → key name ≠ dotdot)
    (hnew : ∀ j old, freeSlot (tableAt d s) = some j → (DirectoryEntry.filled old name i isDir).Linking s →
      Signed d' s j (old.filled name i isDir))
    (hown : c = .dir → ∀ e ∈ tableAt d' i, ¬e.Linking i) : Homed d' (Function.update kind (i : ℤ) (some c)) := by
  have hmem := mem_sectors_of_head hfree
  have hin := inDisk_of_free hmem
  have hfresh : kind i = none := hs.storage.kind_of_free hmem
  have hkeeps := hinst.keeps (fun _ _ => False) hfresh hnone
  have hne : ∀ {x c'}, kind x = some c' → x ≠ i := by
    rintro x c' hx rfl
    rw [hfresh] at hx
    cases hx
  refine ⟨?_, fun {x j e} hk he hlink => ?_⟩
  · -- the new entry has another name
    by_cases hx : s = DirectorySector
    · subst hx
      rw [lookupIn, List.find?_eq_none]
      intro e he hnamed
      obtain ⟨j, hj⟩ := List.mem_iff_getElem?.mp he
      obtain hold | ⟨-, old, rfl⟩ := hinst.table_cases hj
      · exact List.find?_eq_none.mp h.top e (List.mem_of_getElem? hold) hnamed
      · have hkey := (named_iff.mp hnamed).2
        rw [old.filled_key] at hkey
        exact htop rfl (hkey.trans (by decide))
    · rw [lookupIn, hinst.others hs.names.root (Ne.symm hx)]
      exact h.top
  · by_cases hx : x = i
    · subst hx
      rw [Function.update_self] at hk
      exact absurd hlink (hown (Option.some.inj hk) e (List.mem_of_getElem? he))
    · rw [Function.update_of_ne hx] at hk
      have hup : (tableAt d x)[j]? = some e → ∀ e', lookupIn d e.sector.toInt dotdot = some e' → e'.isDir ≠ 0 →
          lookupIn d' e.sector.toInt dotdot = some e' := fun hold e' hl hdir => by
        refine hkeeps.lookups ?_ hl (Or.inl hdir)
        rw [hs.names.points hk (List.mem_of_getElem? hold) hlink.1, DirectoryEntry.kind, if_neg hlink.2.1]
      by_cases hxs : x = s
      · subst hxs
        obtain hold | ⟨hj, old, rfl⟩ := hinst.table_cases he
        · refine (h.signed hk hold hlink).keep (hup hold) fun m hm e' he' => ?_
          obtain hold' | ⟨-, old', rfl⟩ := hinst.table_cases he'
          · exact Or.inl ⟨e', hold', rfl⟩
          · rw [old'.filled_sector name isDir hin]
            exact Or.inr (Ne.symm (hne (hs.names.points hk (List.mem_of_getElem? hold) hlink.1)))
        · exact hnew j old hj hlink
      · have htab := hinst.others hk hxs
        rw [htab] at he
        exact (h.signed hk he hlink).keep (hup he) fun m hm e' he' => Or.inl ⟨e', by rw [← htab, he'], rfl⟩

lemma Homed.of_unlinked (h : Homed d kind) (hs : Sound fs d kind) (hks : kind s = some .dir)
    (hu : Unlinked d kind s i e d') (hlook : lookupIn d s name = some e) (hplain : e.isDir = 0) :
    Homed d' (Function.update kind e.sector.toInt none) := by
  have hkeeps := hu.keeps hs hks hlook hplain
  have hcases : ∀ {j : ℕ} {e' : DirectoryEntry}, (tableAt d' s)[j]? = some e' →
      (tableAt d s)[j]? = some e' ∨ (tableAt d s)[j]? = some e ∧ e' = { e with inUse := 0 } := by
    intro j e' he'
    rw [hu.table, List.getElem?_set] at he'
    split at he'
    · rename_i hij
      subst hij
      rw [if_pos (List.getElem?_eq_some_iff.mp hu.entry).1] at he'
      cases he'
      exact Or.inr ⟨hu.entry, rfl⟩
    · exact Or.inl he'
  have hkind : ∀ {x}, Function.update kind e.sector.toInt none x = some Kind.dir → kind x = some .dir := by
    intro x hx
    by_cases hxe : x = e.sector.toInt
    · rw [hxe, Function.update_self] at hx
      cases hx
    · rwa [Function.update_of_ne hxe] at hx
  refine ⟨?_, fun {x j e'} hk he' hlink => ?_⟩
  · by_cases hx : s = DirectorySector
    · subst hx
      rw [lookupIn, List.find?_eq_none]
      intro e' he' hnamed
      obtain ⟨j, hj⟩ := List.mem_iff_getElem?.mp he'
      obtain hold | ⟨-, rfl⟩ := hcases hj
      · exact List.find?_eq_none.mp h.top e' (List.mem_of_getElem? hold) hnamed
      · exact (named_iff.mp hnamed).1 rfl
    · rw [lookupIn, hu.others hs.names.root (Ne.symm hx)]
      exact h.top
  · have hk := hkind hk
    have hup : (tableAt d x)[j]? = some e' → ∀ e₁, lookupIn d e'.sector.toInt dotdot = some e₁ → e₁.isDir ≠ 0 →
        lookupIn d' e'.sector.toInt dotdot = some e₁ := fun hold e₁ hl hdir => by
      refine hkeeps.lookups ?_ hl (Or.inl hdir)
      rw [hs.names.points hk (List.mem_of_getElem? hold) hlink.1, DirectoryEntry.kind, if_neg hlink.2.1]
    by_cases hxs : x = s
    · subst hxs
      obtain hold | ⟨-, rfl⟩ := hcases he'
      · refine (h.signed hk hold hlink).keep (hup hold) fun m hm e₁ he₁ => ?_
        obtain hold₁ | ⟨hold₁, rfl⟩ := hcases he₁
        · exact Or.inl ⟨e₁, hold₁, rfl⟩
        · exact Or.inl ⟨e, hold₁, rfl⟩
      · exact absurd rfl hlink.1
    · have htab := hu.others hk hxs
      rw [htab] at he'
      exact (h.signed hk he' hlink).keep (hup he') fun m hm e₁ he₁ => Or.inl ⟨e₁, by rw [← htab, he₁], rfl⟩

lemma zero_mem_of_chars_lt {l : List Byte} (h : (chars l).length < l.length) : 0 ∈ l := by
  by_contra hzero
  rw [chars, List.takeWhile_eq_self_iff.mpr fun a ha => by
    rw [decide_eq_true_eq]
    rintro rfl
    exact hzero ha] at h
  omega

lemma DirectoryEntry.chars_filled (old : DirectoryEntry) (sector : ℤ) (isDir : Byte)
    (hlen : (chars name).length < FileNameMaxLen) :
    chars (old.filled name sector isDir).name.toList = chars name := by
  have hkey := old.filled_key name sector isDir
  have hname : key name = chars name := List.take_of_length_le hlen.le
  rw [hname] at hkey
  exact (key_eq_dotted hlen).mp hkey

lemma Linked.not_linking (h : Linked d i s n) (hi : InDisk i) : ∀ e ∈ tableAt d i, ¬e.Linking i := by
  obtain ⟨old, old', dir, hl, htab⟩ := h
  obtain ⟨junk, ht, hj⟩ := hl.eq
  intro e he hlink
  rw [htab, ht] at he
  rcases List.mem_append.mp (List.mem_of_mem_take he) with he | he
  · rcases List.mem_cons.mp he with rfl | he
    · exact hlink.2.2.2 ⟨(old.filled_key dot i 1).trans (by decide), old.filled_sector dot 1 hi⟩
    · obtain rfl := List.mem_singleton.mp he
      exact hlink.2.2.1 ((old'.filled_key dotdot s 1).trans (by decide))
  · exact hlink.1 (hj e he)

lemma Linked.lookupIn_dotdot (h : Linked d i s n) (hs : InDisk s) (hn : 40 ≤ n) :
    ∃ e, lookupIn d i dotdot = some e ∧ e.isDir ≠ 0 ∧ e.sector.toInt = s := by
  have hslots : 2 ≤ slotsIn n := by
    simp only [slotsIn, EntrySize, NumDirEntries]
    omega
  have hat := (h.dotdot_iff hs).mpr hslots
  have hres : resolve d (components dotdot) i = some (↑i, dotdot) := by
    rw [components_dotdot]
    rfl
  have hpos := hs.1
  rw [directoryAt, hres] at hat
  dsimp only at hat
  cases hlook : lookupIn d i dotdot with
  | none =>
    rw [hlook] at hat
    dsimp only at hat
    omega
  | some e =>
    rw [hlook] at hat
    dsimp only at hat
    by_cases hdir : e.isDir ≠ 0
    · rw [if_pos hdir] at hat
      exact ⟨e, rfl, hdir, hat⟩
    · rw [if_neg hdir] at hat
      omega

lemma Installed.signed (hs : Sound fs d kind) (hks : kind s = some .dir)
    (hinst : Installed d kind s name i 1 .dir n d') (hfree : (freeMapAt d).free.head? = some i)
    (hlinked : Linked d' i s n) (hn : 40 ≤ n) (hlen : (chars name).length < FileNameMaxLen)
    (hslash : 0x2f#8 ∉ name)
    (old : DirectoryEntry) (hj : freeSlot (tableAt d s) = some j) : Signed d' s j (old.filled name i 1) := by
  have hmem := mem_sectors_of_head hfree
  have hin := inDisk_of_free hmem
  have hfresh : kind i = none := hs.storage.kind_of_free hmem
  have hchars := old.chars_filled (i : ℤ) 1 hlen
  refine ⟨?_, fun m hm e' he' hsec => ?_, ?_, ?_⟩
  · rw [old.filled_sector name 1 hin]
    exact hlinked.lookupIn_dotdot (hs.inDisk hks) hn
  · -- the slots before the first unused one are in use
    rw [old.filled_sector name 1 hin] at hsec
    obtain hold | ⟨hm', -⟩ := hinst.table_cases he'
    · obtain ⟨hlt, -, hbefore⟩ := List.findIdx?_eq_some_iff_getElem.mp hj
      have hused := hbefore m hm
      rw [(List.getElem?_eq_some_iff.mp hold).2] at hused
      have hk := hs.names.points hks (List.mem_of_getElem? hold) (by simpa using hused)
      rw [hsec, hfresh] at hk
      cases hk
    · rw [hj] at hm'
      cases hm'
      omega
  · refine zero_mem_of_chars_lt ?_
    rw [hchars, Vector.length_toList]
    simp only [FileNameMaxLen] at hlen
    omega
  · rw [hchars]
    exact fun hmem => hslash ((List.takeWhile_prefix _).subset hmem)

end Preserved

namespace System

variable {sys sys' : System} {kind : ℤ → Option Kind}

/-- The sizes and names with which `GetFullPath` can deal: new directories have room for `.` and
`..`, and names that are shorter than the longest, and nothing is named `..` in the root directory.
-/
def Homely (sys : System) : Op → Prop
  | .create t path _ => ∀ name, resolve sys.kernel.disk (components path) (sys.wd t) =
    some (DirectorySector, name) →
    key name ≠ dotdot
  | .makeDir t path initialSize => 40 ≤ initialSize ∧
    (∀ s name, resolve sys.kernel.disk (components path) (sys.wd t) = some (s, name) →
      (chars name).length < FileNameMaxLen) ∧
    ∀ name, resolve sys.kernel.disk (components path) (sys.wd t) = some (DirectorySector, name) → key name ≠ dotdot
  | _ => True

lemma Stable.homed_step {op : Op} (hst : sys.Stable kind) (hh : Homed sys.kernel.disk kind) (hop : sys.Regular op)
    (hhome : sys.Homely op) (h : System.step op sys = .ok sys') :
    ∃ kind', sys'.Stable kind' ∧ Homed sys'.kernel.disk kind' := by
  have hs := hst.sound
  obtain ⟨kind', hst', hc⟩ := hst.step_cases hop h
  refine ⟨kind', hst', ?_⟩
  cases hc with
  | same hkind htab _ =>
    subst hkind
    exact hh.of_tables hs htab.table
  | @created t path n s name i hop' hr hnone hi hinst hkind =>
    subst hop' hkind
    refine hh.of_installed hs (hs.kind_of_resolve _ (hst.wd t) hr) hinst hi hnone (fun hroot => ?_)
      (fun j old _ hlink => absurd rfl hlink.2.1) (fun hdir => by cases hdir)
    subst hroot
    exact hhome name hr
  | @made t path n s name i hop' hr hnone hi hinst hlinked hkind =>
    subst hop' hkind
    have hks := hs.kind_of_resolve _ (hst.wd t) hr
    have hslash : 0x2f#8 ∉ name := slash_not_mem_of_resolve _ (not_mem_of_mem_splitOn _) hr
    refine hh.of_installed hs hks hinst hi hnone (fun hroot => ?_) (fun j old hj _ => ?_)
      fun _ => hlinked.not_linking (inDisk_of_free (mem_sectors_of_head hi))
    · subst hroot
      exact hhome.2.2 name hr
    · exact hinst.signed hs hks hi hlinked hhome.1 (hhome.2.1 s name hr) hslash old hj
  | @removed t path s name e i hop' he hr hlook hplain hu hkind =>
    subst hop' hkind
    exact hh.of_unlinked hs (hs.kind_of_resolve _ (hst.wd t) hr) hu hlook hplain

lemma Formatted.homed {fs : FileSystem} {d : Disk} (hf : Formatted fs d) : Homed d formatted := by
  refine ⟨hf.lookupIn_root _, fun {s i e} hk he hlink => ?_⟩
  rcases formatted_cases hk with ⟨-, h⟩ | ⟨rfl, -⟩
  · cases h
  · exact absurd (hf.unused e (List.mem_of_getElem? he)) hlink.1

lemma Reachable.homed (h : Reachable (fun st op => st.Regular op ∧ st.Homely op) sys) :
    ∃ kind, sys.Stable kind ∧ Homed sys.kernel.disk kind := by
  obtain ⟨k, start, hb, hr⟩ := h
  obtain ⟨sys₀, hb₀, hf, hst, -⟩ := boot_spec k
  rw [hb₀] at hb
  cases hb
  refine hr.invariant (I := fun st => ∃ kind, st.Stable kind ∧ Homed st.kernel.disk kind)
    (fun op s t hs hop hstep => ?_)
    ⟨formatted, hst, Formatted.homed hf⟩
  obtain ⟨kind, hst, hh⟩ := hs
  exact hst.homed_step hh hop.1 hop.2 hstep

end System

inductive Home (d : Disk) : ℤ → List CString → Prop
  | root : Home d DirectorySector []
  | child {s : ℤ} {names : List CString} {i : ℕ} {e : DirectoryEntry} (h : Home d s names)
      (he : (tableAt d s)[i]? = some e) (hlink : e.Linking s) :
      Home d e.sector.toInt (names ++ [chars e.name.toList])

def parentAt (d : Disk) (s : ℤ) : ℤ := ((lookupIn d s dotdot).map (·.sector.toInt)).getD (-1)

section Homes

variable {fs : FileSystem} {d : Disk} {kind : ℤ → Option Kind} {s x : ℤ} {names : List CString} {k : Kernel}

lemma Home.dir (h : Home d x names) (hs : Sound fs d kind) : kind x = some .dir := by
  induction h with
  | root => exact hs.names.root
  | child _ he hlink ih =>
    rw [hs.names.points ih (List.mem_of_getElem? he) hlink.1, DirectoryEntry.kind, if_neg hlink.2.1]

lemma Home.lookup (h : Home d x names) (hs : Sound fs d kind) (hh : Homed d kind) {name : CString}
    {e : DirectoryEntry} (hl : lookupIn d x name = some e) (hdir : e.isDir ≠ 0) :
    ∃ names', Home d e.sector.toInt names' := by
  obtain ⟨hmem, hu, hkey⟩ := Sound.lookupIn_spec hl
  obtain ⟨i, hi⟩ := List.mem_iff_getElem?.mp hmem
  by_cases hup : key e.name.toList = dotdot
  · have hl' : lookupIn d x dotdot = some e := by
      rw [← hl]
      exact lookupIn_congr ((show key dotdot = dotdot by decide).trans (hup.symm.trans hkey))
    cases h with
    | root =>
      rw [hh.top] at hl'
      cases hl'
    | child h₀ he₀ hlink₀ =>
      obtain ⟨e', hl₀, -, hsec⟩ := (hh.signed (h₀.dir hs) he₀ hlink₀).up
      rw [hl'] at hl₀
      cases hl₀
      exact ⟨_, hsec ▸ h₀⟩
  · by_cases hself : key e.name.toList = dot ∧ e.sector.toInt = x
    · exact ⟨_, hself.2.symm ▸ h⟩
    · exact ⟨_, h.child hi ⟨hu, hdir, hup, hself⟩⟩

lemma Home.resolve (hs : Sound fs d kind) (hh : Homed d kind) (comps : List CString) : ∀ {x s : ℤ}
    {names : List CString} {name : CString}, Home d x names → NachosFileSys.resolve d comps x = some (s, name) →
    ∃ names', Home d s names' := by
  induction comps with
  | nil =>
    intro x s names name h hr
    cases hr
    exact ⟨names, h⟩
  | cons dirname rest ih =>
    intro x s names name h hr
    cases rest with
    | nil =>
      cases hr
      exact ⟨names, h⟩
    | cons name' rest =>
      rw [resolve_cons_cons] at hr
      cases he : lookupIn d x dirname with
      | none =>
        rw [he] at hr
        cases hr
      | some e =>
        rw [he] at hr
        dsimp only at hr
        split at hr
        · obtain ⟨names', h'⟩ := h.lookup hs hh he ‹_›
          exact ih h' hr
        · cases hr

lemma Homed.home_of_changesTo {good : CString → Prop} (hh : Homed d kind) (hs : Sound fs d kind)
    (h : ChangesTo good d x) : ∃ names, Home d x names := by
  induction h with
  | root => exact ⟨[], .root⟩
  | @step s s' path k k' _ _ hd he hpos ih =>
    obtain ⟨names, hhome⟩ := ih
    obtain ⟨k'', he', -⟩ := hs.exec_changeDir (hhome.dir hs) hd path
    rw [he'] at he
    obtain rfl : directoryAt d path s = s' := congrArg Prod.fst (Except.ok.inj he)
    rw [directoryAt] at hpos ⊢
    cases hr : resolve d (components path) s with
    | none =>
      rw [hr] at hpos
      dsimp only at hpos
      omega
    | some r =>
      obtain ⟨s₁, name⟩ := r
      rw [hr] at hpos
      dsimp only at hpos ⊢
      obtain ⟨names₁, hhome₁⟩ := hhome.resolve hs hh _ hr
      cases hl : lookupIn d s₁ name with
      | none =>
        rw [hl] at hpos
        dsimp only at hpos
        omega
      | some e =>
        rw [hl] at hpos
        dsimp only at hpos ⊢
        by_cases hdir : e.isDir ≠ 0
        · rw [if_pos hdir]
          exact hhome₁.lookup hs hh hl hdir
        · rw [if_neg hdir] at hpos
          omega

lemma drop_toBytes (table : List DirectoryEntry) : ∀ {i : ℕ} {e : DirectoryEntry}, table[i]? = some e →
    ∃ rest, (Directory.toBytes ⟨table⟩).drop (EntrySize * i + 8) = e.name.toList ++ rest := by
  induction table with
  | nil =>
    intro i e he
    simp at he
  | cons e table ih =>
    intro i e' he
    have hcons : Directory.toBytes ⟨e :: table⟩ = e.toBytes ++ Directory.toBytes ⟨table⟩ := List.flatMap_cons
    have hlen := e.toBytes_length
    cases i with
    | zero =>
      cases he
      refine ⟨e.trail.toList ++ Directory.toBytes ⟨table⟩, ?_⟩
      rw [hcons, Nat.mul_zero, Nat.zero_add, DirectoryEntry.toBytes, List.append_assoc, List.append_assoc,
        List.drop_append_of_le_length (by simp), List.drop_of_length_le (by simp), List.nil_append]
    | succ i =>
      obtain ⟨rest, hrest⟩ := ih (i := i) (by simpa using he)
      refine ⟨rest, ?_⟩
      have hsum : EntrySize * (i + 1) + 8 = e.toBytes.length + (EntrySize * i + 8) := by
        rw [hlen, Nat.mul_succ]
        omega
      rw [hcons, hsum, ← List.drop_drop, List.drop_left, hrest]

lemma Homed.getNameBySector (hh : Homed d kind) (hk : kind s = some .dir) {i : ℕ} {e : DirectoryEntry}
    (he : (tableAt d s)[i]? = some e) (hlink : e.Linking s) {dir : Directory} (hl : Loaded (tableAt d s) dir) :
    cString (dir.getNameBySector e.sector.toInt) = .ok (chars e.name.toList) := by
  have hsigned := hh.signed hk he hlink
  obtain ⟨junk, ht, -⟩ := hl.eq
  obtain ⟨hlt, hget⟩ := List.getElem?_eq_some_iff.mp he
  have hdir : dir.table[i]? = some e := by rw [ht, List.getElem?_append_left hlt, he]
  have hfind : dir.table.findIdx? (fun e' => e'.sector.toInt = e.sector.toInt) = some i := by
    obtain ⟨hlt', hget'⟩ := List.getElem?_eq_some_iff.mp hdir
    rw [List.findIdx?_eq_some_iff_getElem]
    refine ⟨hlt', by simp [hget'], fun j hj => ?_⟩
    have hold : (tableAt d s)[j]? = some dir.table[j] := by
      rw [← List.getElem?_eq_getElem, ht, List.getElem?_append_left (hj.trans hlt)]
    simpa using hsigned.first j hj _ hold
  obtain ⟨rest, hrest⟩ := drop_toBytes dir.table hdir
  rw [Directory.getNameBySector, hfind]
  dsimp only
  rw [hrest, cString, if_pos (List.mem_append_left _ hsigned.ends)]
  congr 1
  have hstop : (chars e.name.toList).length ≠ e.name.toList.length := by
    intro hlen
    have heq := (List.takeWhile_prefix (fun a : Byte => decide (a ≠ 0)) (l := e.name.toList)).eq_of_length hlen
    have := List.takeWhile_eq_self_iff.mp heq 0 hsigned.ends
    simp at this
  rw [chars, List.takeWhile_append]
  exact if_neg hstop

lemma Home.exec_getFullPathLoop (hs : Sound fs d kind) (hh : Homed d kind) (h : Home d x names) :
    ∀ (fuel : ℕ) (path : List Byte) {k : Kernel}, names.length < fuel → k.disk = d →
      ∃ k', exec (Directory.getFullPathLoop fuel x (parentAt d x) path) k =
        .ok (names.flatMap (· ++ [0x2f#8]) ++ path, k') ∧ k'.disk = d := by
  induction h with
  | root =>
    intro fuel path k hfuel hd
    obtain ⟨fuel, rfl⟩ : ∃ f, fuel = f + 1 := ⟨fuel - 1, by omega⟩
    have htop : parentAt d DirectorySector = -1 := by
      rw [parentAt, hh.top]
      rfl
    refine ⟨k, ?_, hd⟩
    rw [Directory.getFullPathLoop, htop, if_pos rfl]
    rfl
  | @child s names i e h he hlink ih =>
    intro fuel path k hfuel hd
    rw [List.length_append, List.length_singleton] at hfuel
    obtain ⟨fuel, rfl⟩ : ∃ f, fuel = f + 1 := ⟨fuel - 1, by omega⟩
    have hk := h.dir hs
    obtain ⟨e', hup, -, hsec⟩ := (hh.signed hk he hlink).up
    have hparent : parentAt d e.sector.toInt = s := by
      rw [parentAt, hup]
      exact hsec
    have hne : s ≠ -1 := by
      have := (hs.inDisk hk).1
      omega
    obtain ⟨dir, k₁, h₁, hd₁, -, hlen, hnew⟩ := Directory.exec_new k
    obtain ⟨k₂, h₂, hd₂, -⟩ := hs.exec_openDirectory hk (hd₁.trans hd)
    obtain ⟨dir', h₃, hl⟩ := hs.exec_loadDirectory hk hd₂ hlen hnew 0
    obtain ⟨k₄, h₄, hd₄, -⟩ := OpenFile.exec_close ⟨hdrAt d s, 0, s⟩ (hs.dir_ne_map hk) k₂
    obtain ⟨k₅, h₅, hd₅⟩ := ih fuel (chars e.name.toList ++ 0x2f#8 :: path) (by omega) (hd₄.trans hd₂)
    refine ⟨k₅, ?_, hd₅⟩
    rw [hparent, Directory.getFullPathLoop, if_neg hne, exec_bind_of_ok h₁, exec_bind_of_ok h₂, exec_bind_of_ok h₃,
      hh.getNameBySector hk he hlink hl, exec_bind_of_ok (exec_lift_ok _ _)]
    dsimp only
    rw [exec_bind_of_ok h₄, hl.find_eq, ← parentAt, h₅]
    simp [List.flatMap_append]

lemma exec_follow_append (names rest : List CString) : ∀ {s : ℤ} {k k' : Kernel}, 0 ≤ x →
    exec (follow names s) k = .ok (x, k') → exec (follow (names ++ rest) s) k = exec (follow rest x) k' := by
  induction names with
  | nil =>
    intro s k k' _ he
    cases he
    rfl
  | cons name names ih =>
    intro s k k' hx he
    obtain ⟨s', k₁, h₁, he⟩ := exec_bind_ok.mp he
    rw [List.cons_append, follow, exec_bind_of_ok h₁]
    split at he
    · cases he
      omega
    · rw [if_neg ‹_›]
      exact ih hx he

lemma Homed.exec_changeDir (hh : Homed d kind) (hs : Sound fs d kind) (hk : kind s = some .dir) {i : ℕ}
    {e : DirectoryEntry} (he : (tableAt d s)[i]? = some e) (hlink : e.Linking s) (hd : k.disk = d) :
    ∃ k', exec (FileSystem.changeDir (chars e.name.toList) s) k = .ok (e.sector.toInt, k') ∧ k'.disk = d := by
  obtain ⟨k', hc, hd', -⟩ := hs.exec_changeDir hk hd (chars e.name.toList)
  refine ⟨k', ?_, hd'⟩
  have hkey : key (chars e.name.toList) = key e.name.toList := by rw [key, chars_chars, key]
  have hcomp : components (chars e.name.toList) = [chars e.name.toList] := by
    rw [components, chars_chars]
    exact List.splitOn_eq_singleton (hh.signed hk he hlink).slash
  have hlook : lookupIn d s (chars e.name.toList) = some e := by
    have hsome : (lookupIn d s (chars e.name.toList)).isSome := List.find?_isSome.mpr
      ⟨e, List.mem_of_getElem? he, named_iff.mpr ⟨hlink.1, hkey.symm⟩⟩
    obtain ⟨e', he'⟩ := Option.isSome_iff_exists.mp hsome
    obtain ⟨hmem, hu, hkey'⟩ := Sound.lookupIn_spec he'
    obtain ⟨j, hj⟩ := List.mem_iff_getElem?.mp hmem
    have hij := hs.names.keys hk he hj hlink.1 hu (hkey.symm.trans hkey'.symm)
    rw [← hij, he] at hj
    rw [he', hj]
  have hres : resolve d (components (chars e.name.toList)) s = some (s, chars e.name.toList) := by
    rw [hcomp]
    rfl
  rw [hc, directoryAt, hres]
  dsimp only
  rw [hlook]
  dsimp only
  rw [if_pos hlink.2.1]

lemma Home.exec_follow (hs : Sound fs d kind) (hh : Homed d kind) (h : Home d x names) :
    ∀ {k : Kernel}, k.disk = d →
    ∃ k', exec (follow names DirectorySector) k = .ok (x, k') ∧ k'.disk = d := by
  induction h with
  | root => exact fun {k} hd => ⟨k, rfl, hd⟩
  | @child s names i e h he hlink ih =>
    intro k hd
    have hk := h.dir hs
    obtain ⟨k₁, h₁, hd₁⟩ := ih hd
    obtain ⟨k₂, h₂, hd₂⟩ := hh.exec_changeDir hs hk he hlink hd₁
    have hin := hs.inDisk ((h.child he hlink).dir hs)
    refine ⟨k₂, ?_, hd₂⟩
    rw [exec_follow_append names _ (hs.inDisk hk).1 h₁, follow, exec_bind_of_ok h₂, if_neg (not_lt.mpr hin.1)]
    rfl

lemma Home.slash (hs : Sound fs d kind) (hh : Homed d kind) (h : Home d x names) :
    ∀ name ∈ names, 0x2f#8 ∉ name := by
  induction h with
  | root => simp
  | child h he hlink ih =>
    intro name hn
    rcases List.mem_append.mp hn with hn | hn
    · exact ih name hn
    · rw [List.mem_singleton] at hn
      rw [hn]
      exact (hh.signed (h.dir hs) he hlink).slash

end Homes

/-- `PrintFullPath` on the directory at sector `x` builds a path, and the names in it lead there from the root. -/
def PathLeadsTo (fuel : ℕ) (x : ℤ) (k : Kernel) : Prop :=
  ∃ path k₁ k₂, exec (FileSystem.printFullPath fuel x) k = .ok (path, k₁) ∧
    exec (follow (pathNames path) DirectorySector) k₁ = .ok (x, k₂)

theorem full_path_leads_back (sys : System) (h : System.Reachable (fun st op => st.Regular op ∧ st.Homely op) sys)
    (x : ℤ) (hx : ChangesTo (fun _ => True) sys.kernel.disk x) (k : Kernel) (hd : k.disk = sys.kernel.disk) :
    ∃ enough, ∀ fuel ≥ enough, PathLeadsTo fuel x k := by
  obtain ⟨kind, hst, hh⟩ := h.homed
  have hs := hst.sound
  obtain ⟨names, hhome⟩ := hh.home_of_changesTo hs hx
  refine ⟨names.length + 1, fun fuel hfuel => ?_⟩
  have hk := hhome.dir hs
  obtain ⟨k₁, h₁, hd₁, -⟩ := hs.exec_openDirectory hk hd
  obtain ⟨dir, k₂, h₂, hd₂, -, hl⟩ := exec_fetchDirectory hs.toGrounded hk (hs.unused hk) hd₁ 0
  obtain ⟨k₃, h₃, hd₃⟩ := hhome.exec_getFullPathLoop hs hh fuel [] hfuel hd₂
  obtain ⟨k₄, h₄, -⟩ := hhome.exec_follow hs hh hd₃
  rw [List.append_nil] at h₃
  refine ⟨0x2f#8 :: names.flatMap (· ++ [0x2f#8]), k₃, k₄, ?_, ?_⟩
  · rw [FileSystem.printFullPath, exec_bind_of_ok h₁, exec_bind_of_ok h₂,
      Directory.getFullPath, hl.find_eq, ← parentAt,
      exec_bind_of_ok h₃, exec_pure]
  · rw [pathNames_join (hhome.slash hs hh), h₄]

lemma System.boot_changes {n : ℤ} (hn : int32 n = n) (hclean : CleanLength n) (hfew : sectorsNeeded n ≤ 2) :
    ∃ (sys₀ sys : System) (i : ℤ) (kind : ℤ → Option Kind), System.boot Kernel.blank = .ok sys₀ ∧
      System.step (.makeDir 0 bin n) sys₀ = .ok sys ∧ sys₀.wd 0 = DirectorySector ∧ sys.Stable kind ∧
      kind i = some .dir ∧ i ≠ DirectorySector ∧ Linked sys.kernel.disk i DirectorySector n ∧
      ChangesTo (fun _ => True) sys.kernel.disk i := by
  obtain ⟨sys, k, i, kind, hb, hf, hwd, he, hmade, -⟩ := System.boot_made hn hfew
  have hst := hmade.stable hclean.not_cuts
  have hs := hst.sound
  have hne : (i : ℤ) ≠ DirectorySector := by
    intro hroot
    have hfresh := hf.sound.storage.kind_of_free (mem_sectors_of_head hmade.sector)
    rw [hroot] at hfresh
    cases hfresh
  have hat : directoryAt k.disk bin (sys.wd 0) = i :=
    hmade.directoryAt_iff.mpr (freeSlot_of_unused (by rw [hf.slots]; decide) hf.unused)
  obtain ⟨k', hc, -⟩ := hs.exec_changeDir hmade.start rfl bin
  dsimp only at hc
  rw [hat, hwd] at hc
  refine ⟨sys, { sys with kernel := k }, i, kind, hb, ?_, hwd 0, hst, hmade.dir, hne, hmade.linked,
    .step .root trivial rfl hc (Int.natCast_nonneg i)⟩
  rw [System.step, he]
  rfl

theorem full_path_leads_back_made : ∃ (sys : System) (x : ℤ), x ≠ DirectorySector ∧
    System.Reachable (fun st op => st.Regular op ∧ st.Homely op) sys ∧
    ChangesTo (fun _ => True) sys.kernel.disk x ∧ ∃ enough, ∀ fuel ≥ enough, PathLeadsTo fuel x sys.kernel := by
  obtain ⟨sys₀, sys, i, kind, hb, hstep, hwd, -, -, hne, -, hx⟩ :=
    System.boot_changes (n := 200) (by decide) (Or.inr (Or.inr le_rfl)) (by decide)
  have hres : ∀ {s : ℤ} {name : CString}, resolve sys₀.kernel.disk (components bin) (sys₀.wd 0) = some (s, name) →
      name = bin := by
    intro s name hr
    cases hr
    rfl
  have hhome : sys₀.Homely (.makeDir 0 bin 200) := by
    refine ⟨by decide, fun s name hr => ?_, fun name hr => ?_⟩
    · rw [hres hr]
      decide
    · rw [hres hr]
      decide
  have hreach : System.Reachable (fun st op => st.Regular op ∧ st.Homely op) sys :=
    ⟨Kernel.blank, sys₀, hb, .step (.makeDir 0 bin 200) .refl ⟨⟨by decide, Or.inr (Or.inr le_rfl)⟩, hhome⟩ hstep⟩
  exact ⟨sys, i, hne, hreach, hx, full_path_leads_back sys hreach i hx sys.kernel rfl⟩

/-- The path of a directory that has no room for `..` is the one of the root. -/
theorem full_path_of_empty : ¬∀ sys : System, System.Reachable (fun _ op => op.Builds) sys → ∀ x : ℤ,
    ChangesTo (fun _ => True) sys.kernel.disk x → ∀ k : Kernel, k.disk = sys.kernel.disk →
    ∃ enough, ∀ fuel ≥ enough, PathLeadsTo fuel x k := by
  intro hall
  obtain ⟨sys₀, sys, i, kind, hb, hstep, -, hst, hk, hne, hlinked, hx⟩ :=
    System.boot_changes (n := 0) (by decide) (Or.inl le_rfl) (by decide)
  have hs := hst.sound
  have hreach : System.Reachable (fun _ op => op.Builds) sys :=
    ⟨Kernel.blank, sys₀, hb, .step (.makeDir 0 bin 0) .refl (show (0 : ℤ) ≤ 0 from le_rfl) hstep⟩
  obtain ⟨enough, hall⟩ := hall sys hreach i hx sys.kernel rfl
  obtain ⟨path, k₁, k₂, hp, hfollow⟩ := hall (enough + 1) (Nat.le_succ enough)
  have hnone : lookupIn sys.kernel.disk i dotdot = none := by
    obtain ⟨old, old', dir, hl, htab⟩ := hlinked
    rw [lookupIn, htab]
    rfl
  obtain ⟨k₃, h₃, hd₃, -⟩ := hs.exec_openDirectory hk rfl
  obtain ⟨dir, k₄, h₄, -, -, hl⟩ := exec_fetchDirectory hs.toGrounded hk (hs.unused hk) hd₃ 0
  have hfind : dir.find dotdot = -1 := by
    rw [hl.find_eq, hnone]
    rfl
  rw [FileSystem.printFullPath, exec_bind_of_ok h₃, exec_bind_of_ok h₄, Directory.getFullPath, hfind,
    Directory.getFullPathLoop, if_pos rfl] at hp
  cases hp
  rw [show pathNames [0x2f#8] = [] by decide] at hfollow
  cases hfollow
  exact hne rfl

end NachosFileSys
