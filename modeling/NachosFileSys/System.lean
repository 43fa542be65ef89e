import NachosFileSys.Lib.Results
import NachosFileSys.Lib.Runs
import NachosFileSys.Outcomes

/-! The machine as a whole: the mounted file system, the kernel, the working directories of the threads
and the handles that are open. An operation is one call that no other call overlaps; a session opens a
file, moves and writes in it, and closes it. -/

namespace NachosFileSys

open Lib.Programs Lib.Bytes Lib.Results Lib.Runs

structure System where
  fs : FileSystem
  kernel : Kernel
  wd : ℕ → ℤ
  handles : List OpenFile

inductive Action
  | seek (position : ℤ)
  | write (src : List Byte) (numBytes : ℤ)

def perform (freeMapFile : OpenFile) : List Action → OpenFile → Nachos OpenFile
  | [], f => pure f
  | .seek position :: rest, f => perform freeMapFile rest (f.seek position)
  | .write src numBytes :: rest, f => do
    let (_, f) ← OpenFile.write freeMapFile f src numBytes
    perform freeMapFile rest f

def session (fs : FileSystem) (path : CString) (wdSector : ℤ) (actions : List Action) : Nachos Unit := do
  match ← FileSystem.openFile path wdSector with
  | none => pure ()
  | some f =>
    let f ← perform fs.freeMapFile actions f
    f.close

inductive Op
  | create (thread : ℕ) (path : CString) (initialSize : ℤ)
  | makeDir (thread : ℕ) (path : CString) (initialSize : ℤ)
  | remove (thread : ℕ) (path : CString)
  | changeDir (thread : ℕ) (path : CString)
  | list (thread : ℕ) (depth : ℕ)
  | session (thread : ℕ) (path : CString) (actions : List Action)
  | openFile (thread : ℕ) (path : CString)
  | close (handle : ℕ)
  | restart

def Op.Counted : Op → Prop
  | .session _ _ actions => ∀ src n, Action.write src n ∈ actions → 0 ≤ n
  | _ => True

namespace System

def reset (k : Kernel) : Kernel := { k with maps := fun _ _ => none }

/-- The machine after `FileSystem(TRUE)`. The working directory of a new thread is the root. -/
def boot (k : Kernel) : Except Fault System := do
  let (fs, k) ← exec FileSystem.format (reset k)
  pure ⟨fs, k, fun _ => DirectorySector, []⟩

def step : Op → System → Except Fault System
  | .create t path initialSize, sys => do
    let (_, k) ← exec (sys.fs.create path initialSize (sys.wd t)) sys.kernel
    pure { sys with kernel := k }
  | .makeDir t path initialSize, sys => do
    let (_, k) ← exec (sys.fs.makeDir path initialSize (sys.wd t)) sys.kernel
    pure { sys with kernel := k }
  | .remove t path, sys => do
    let (_, k) ← exec (sys.fs.remove path (sys.wd t)) sys.kernel
    pure { sys with kernel := k }
  | .changeDir t path, sys => do
    let (sector, k) ← exec (FileSystem.changeDir path (sys.wd t)) sys.kernel
    pure { sys with
      kernel := k
      wd := if sector = -1 then sys.wd else Function.update sys.wd t sector }
  | .list t depth, sys => do
    let (_, k) ← exec (FileSystem.list depth (sys.wd t)) sys.kernel
    pure { sys with kernel := k }
  | .session t path actions, sys => do
    let (_, k) ← exec (NachosFileSys.session sys.fs path (sys.wd t) actions) sys.kernel
    pure { sys with kernel := k }
  | .openFile t path, sys => do
    let (file, k) ← exec (FileSystem.openFile path (sys.wd t)) sys.kernel
    pure { sys with
      kernel := k
      handles := sys.handles ++ file.toList }
  | .close i, sys =>
    match sys.handles[i]? with
    | none => pure sys
    | some f => do
      let (_, k) ← exec f.close sys.kernel
      pure { sys with
        kernel := k
        handles := sys.handles.eraseIdx i }
  | .restart, sys => do
    let (fs, k) ← exec FileSystem.mount (reset sys.kernel)
    pure ⟨fs, k, fun _ => DirectorySector, []⟩

def OnPlainFile (sys : System) (t : ℕ) (path : CString) : Prop :=
  ∀ s name e, resolve sys.kernel.disk (components path) (sys.wd t) = some (s, name) →
    lookupIn sys.kernel.disk s name = some e → e.isDir = 0

/-- The operations of which runs are made: sizes are `int`s, the file of a new directory cuts no entry,
and sessions are on plain files. -/
def Regular (sys : System) : Op → Prop
  | .create _ _ initialSize => int32 initialSize = initialSize
  | .makeDir _ _ initialSize => int32 initialSize = initialSize ∧ CleanLength initialSize
  | .session t path _ => sys.OnPlainFile t path
  | _ => True

/-- `sys` is reached from a formatted disk by operations that `ok` permits, none of which aborts. -/
def Reachable (ok : System → Op → Prop) (sys : System) : Prop :=
  ∃ k start, boot k = .ok start ∧ Reaches (fun op s t => step op s = .ok t) ok start sys

/-- The operation is a `Remove` that takes the name out of the directory at sector `s`. -/
def Removes (sys : System) (op : Op) (s : ℤ) (name : CString) : Prop :=
  ∃ t path name' k, op = .remove t path ∧
    resolve sys.kernel.disk (components path) (sys.wd t) = some (s, name') ∧ key name = key name' ∧
    exec (sys.fs.remove path (sys.wd t)) sys.kernel = .ok (true, k)

def EntersWhole (sys : System) : Op → Prop
  | .create t path _ | .makeDir t path _ => ∀ s name,
    resolve sys.kernel.disk (components path) (sys.wd t) = some (s, name) → NextWhole sys.kernel.disk s
  | _ => True

/-- The invariant of the runs in which no entry is cut that is in use. -/
structure Steady (sys : System) (kind : ℤ → Option Kind) : Prop where
  sound : Sound sys.fs sys.kernel.disk kind
  rest : AtRest sys.kernel.maps
  wd : ∀ t, kind (sys.wd t) = some .dir
  handles : ∀ f ∈ sys.handles, f.hdrSector ≠ FreeMapSector
  mapCount : sys.kernel.maps .openFileCount FreeMapSector = some 0

structure Stable (sys : System) (kind : ℤ → Option Kind) : Prop extends Steady sys kind where
  uncut : ∀ {x}, kind x = some .dir → ¬Cuts (hdrAt sys.kernel.disk x).numBytes

lemma Stable.nextWhole {sys : System} {kind : ℤ → Option Kind}
    (hst : sys.Stable kind) {s : ℤ} (hk : kind s = some .dir) :
    NextWhole sys.kernel.disk s := fun hcut => absurd hcut (hst.uncut hk)

lemma atRest_reset (k : Kernel) : AtRest (reset k).maps := fun _ _ _ h => by cases h

lemma boot_spec (k : Kernel) : ∃ sys, boot k = .ok sys ∧ Formatted sys.fs sys.kernel.disk ∧
    sys.Stable formatted ∧ (∀ t, sys.wd t = DirectorySector) ∧ FirstCounts sys.kernel.maps := by
  obtain ⟨fs, k', he, hf, hx, hh⟩ := exec_format (reset k)
  refine ⟨⟨fs, k', fun _ => DirectorySector, []⟩, ?_, hf, ⟨⟨hf.sound, hx (atRest_reset k), fun _ => rfl, ?_,
    hh (fun _ => rfl) _⟩, ?_⟩, fun _ => rfl, hh fun _ => rfl⟩
  case refine_2 => exact fun f hf => absurd hf List.not_mem_nil
  case refine_3 =>
    intro x hk
    rcases formatted_cases hk with ⟨-, h⟩ | ⟨rfl, -⟩
    · cases h
    · exact hf.uncut
  rw [boot, he]
  rfl

end System

lemma perform_inv {fs : FileSystem} {kind : ℤ → Option Kind} (actions : List Action) :
    ∀ {k k' : Kernel} {f f' : OpenFile},
    Sound fs k.disk kind → kind f.hdrSector = some .plain → f.Current k.disk →
    k.maps .semaphoreWrite f.hdrSector = some 1 → exec (perform fs.freeMapFile actions f) k = .ok (f', k') →
    Sound fs k'.disk kind ∧ k'.maps = k.maps ∧ f'.Current k'.disk ∧ f'.hdrSector = f.hdrSector ∧
      SameDirs kind k.disk k'.disk ∧
      ((∀ src n, Action.write src n ∈ actions → 0 ≤ n) → PlainBacked k.disk kind → PlainBacked k'.disk kind) := by
  induction actions with
  | nil =>
    intro k k' f f' hs _ hf _ he
    cases he
    exact ⟨hs, rfl, hf, rfl, .refl _ _, fun _ => id⟩
  | cons action rest ih =>
    intro k k' f f' hs hk hf hsem he
    cases action with
    | seek position =>
      obtain ⟨h₁, h₂, h₃, h₄, h₅, h₆⟩ := ih (f := f.seek position) hs hk hf hsem he
      exact ⟨h₁, h₂, h₃, h₄, h₅, fun hn => h₆ fun src n h => hn src n (List.mem_cons_of_mem _ h)⟩
    | write src numBytes =>
      obtain ⟨⟨r, f₁⟩, k₁, hw, he⟩ := exec_bind_ok.mp he
      obtain ⟨hs₁, hm₁, hf₁, hsec₁, htab₁, hb₁⟩ := hs.write_inv hk hf hsem hw
      rw [← hsec₁] at hk hsem
      rw [← hm₁] at hsem
      obtain ⟨h₁, h₂, h₃, h₄, h₅, h₆⟩ := ih hs₁ hk hf₁ hsem he
      exact ⟨h₁, h₂.trans hm₁, h₃, h₄.trans hsec₁, htab₁.trans h₅, fun hn hb =>
        h₆ (fun src n h => hn src n (List.mem_cons_of_mem _ h)) (hb₁ (hn _ _ List.mem_cons_self) hb)⟩

lemma session_inv {fs : FileSystem} {kind : ℤ → Option Kind} {k k' : Kernel} {path : CString} {wd : ℤ}
    {actions : List Action} {u : Unit} (hs : Sound fs k.disk kind)
    (hwd : kind wd = some .dir) (hrest : AtRest k.maps)
    (hplain : ∀ s name e, resolve k.disk (components path) wd = some (s, name) → lookupIn k.disk s name = some e →
      e.isDir = 0) (he : exec (session fs path wd actions) k = .ok (u, k')) :
    Sound fs k'.disk kind ∧ Extends k.maps k'.maps ∧ SameDirs kind k.disk k'.disk ∧
      ((∀ src n, Action.write src n ∈ actions → 0 ≤ n) → PlainBacked k.disk kind → PlainBacked k'.disk kind) := by
  rw [session] at he
  obtain ⟨r, k₁, ho, he⟩ := exec_bind_ok.mp he
  obtain ⟨hd₁, hx₁, hfound⟩ := hs.open_inv hwd ho
  have hs₁ : Sound fs k₁.disk kind := by rw [hd₁]; exact hs
  rw [← hd₁]
  cases r with
  | none =>
    cases he
    exact ⟨hs₁, hx₁, .refl _ _, fun _ => id⟩
  | some f =>
    obtain ⟨s, name, e, hr, hlook, rfl, hkeys⟩ := hfound f rfl
    have hk : kind e.sector.toInt = some .plain := by
      rw [hs.kind_of_lookupIn (hs.kind_of_resolve _ hwd hr) hlook, DirectoryEntry.kind,
        if_pos (hplain s name e hr hlook)]
    have hsem := (hx₁.rests hrest).semaphoreWrite (hkeys .semaphoreWrite)
    obtain ⟨f', k₂, hp, hc⟩ := exec_bind_ok.mp he
    have hcur : (OpenFile.mk (hdrAt k.disk e.sector.toInt) 0 e.sector.toInt).Current k₁.disk := by
      rw [OpenFile.Current, hd₁]
    obtain ⟨h₁, h₂, -, h₄, h₅, h₆⟩ := perform_inv actions hs₁ hk hcur hsem hp
    obtain ⟨k₃, hc₃, hd₃, hx₃, -⟩ := OpenFile.exec_close f' (by rw [h₄]; exact hs.plain_ne_map hk) k₂
    rw [hc₃] at hc
    cases hc
    rw [hd₃]
    exact ⟨h₁, hx₁.trans (h₂ ▸ hx₃), h₅, h₆⟩

namespace System

variable {sys sys' : System} {kind : ℤ → Option Kind}

inductive Changes (sys : System) (op : Op) (k : Kernel) (kind kind' : ℤ → Option Kind) : Prop
  | same (hkind : kind' = kind) (htab : SameDirs kind sys.kernel.disk k.disk)
      (hb : op.Counted → PlainBacked sys.kernel.disk kind → PlainBacked k.disk kind)
  | created {t : ℕ} {path : CString} {n s : ℤ} {name : CString} {i : ℕ} (hop : op = .create t path n)
      (hr : resolve sys.kernel.disk (components path) (sys.wd t) = some (s, name))
      (hnone : lookupIn sys.kernel.disk s name = none) (hi : (freeMapAt sys.kernel.disk).free.head? = some i)
      (hinst : Installed sys.kernel.disk kind s name i 0 .plain n k.disk)
      (hkind : kind' = Function.update kind (i : ℤ) (some .plain))
  | made {t : ℕ} {path : CString} {n s : ℤ} {name : CString} {i : ℕ} (hop : op = .makeDir t path n)
      (hr : resolve sys.kernel.disk (components path) (sys.wd t) = some (s, name))
      (hnone : lookupIn sys.kernel.disk s name = none) (hi : (freeMapAt sys.kernel.disk).free.head? = some i)
      (hinst : Installed sys.kernel.disk kind s name i 1 .dir n k.disk) (hlinked : Linked k.disk i s n)
      (hkind : kind' = Function.update kind (i : ℤ) (some .dir))
  | removed {t : ℕ} {path : CString} {s : ℤ} {name : CString}
      {e : DirectoryEntry} {i : ℕ} (hop : op = .remove t path)
      (he : exec (sys.fs.remove path (sys.wd t)) sys.kernel = .ok (true, k))
      (hr : resolve sys.kernel.disk (components path) (sys.wd t) = some (s, name))
      (hlook : lookupIn sys.kernel.disk s name = some e) (hplain : e.isDir = 0)
      (hu : Unlinked sys.kernel.disk kind s i e k.disk)
      (hkind : kind' = Function.update kind e.sector.toInt none)

section Installed

variable {s i n : ℤ} {name : CString} {isDir : Byte} {c : Kind} {k : Kernel}

lemma Steady.of_installed (hst : sys.Steady kind) (hx : Extends sys.kernel.maps k.maps) (hfresh : kind i = none)
    (hnone : lookupIn sys.kernel.disk s name = none)
    (hinst : Installed sys.kernel.disk kind s name i isDir c n k.disk)
    (hs' : Sound sys.fs k.disk (Function.update kind i (some c))) :
    Steady { sys with kernel := k } (Function.update kind i (some c)) :=
  ⟨hs', hx.rests hst.rest, fun t => (hinst.keeps (fun _ _ => False) hfresh hnone).dirs (hst.wd t), hst.handles,
    hx.mapCount.trans hst.mapCount⟩

lemma Stable.of_installed (hst : sys.Stable kind) (hx : Extends sys.kernel.maps k.maps) (hfresh : kind i = none)
    (hnone : lookupIn sys.kernel.disk s name = none)
    (hinst : Installed sys.kernel.disk kind s name i isDir c n k.disk)
    (hcut : c = .dir → ¬Cuts (hdrAt k.disk i).numBytes)
    (hs' : NextWhole sys.kernel.disk s → Sound sys.fs k.disk (Function.update kind i (some c)))
    (hks : kind s = some .dir) : Stable { sys with kernel := k } (Function.update kind i (some c)) := by
  refine ⟨hst.toSteady.of_installed hx hfresh hnone hinst (hs' (hst.nextWhole hks)), fun {x} hk => ?_⟩
  rw [Function.update_apply] at hk
  split at hk
  · rename_i hxi
    rw [hxi]
    exact hcut (Option.some.inj hk)
  · rw [hinst.hdrs hk]
    exact hst.uncut hk

end Installed

lemma Steady.step_cases {op : Op} (hst : sys.Steady kind) (hop : sys.Regular op) (hwhole : sys.EntersWhole op)
    (h : step op sys = .ok sys') : ∃ kind', sys'.Steady kind' ∧ Changes sys op sys'.kernel kind kind' := by
  obtain ⟨hs, hrest, hwd, hhandles, hmap⟩ := id hst
  have hsame : ∀ {k : Kernel}, k.disk = sys.kernel.disk → Extends sys.kernel.maps k.maps →
      Steady { sys with kernel := k } kind ∧ Changes sys op k kind kind := fun hd hx =>
    ⟨⟨by rw [hd]; exact hs, hx.rests hrest, hwd, hhandles, hx.mapCount.trans hmap⟩,
      .same rfl (by rw [hd]; exact .refl _ _) (by rw [hd]; exact fun _ => id)⟩
  cases op with
  | create t path n =>
    obtain ⟨⟨b, k⟩, he, h⟩ := bind_eq_ok.mp h
    cases h
    obtain ⟨hx, ⟨-, hd⟩ | ⟨-, s, name, i, hr, hnone, hi, -, hinst, hs'⟩⟩ := hs.create_inv (hwd t) he
    · exact ⟨kind, hsame hd hx⟩
    · have hfresh : kind i = none := hs.storage.kind_of_free (mem_sectors_of_head hi)
      exact ⟨_, hst.of_installed hx hfresh hnone hinst (hs' (hwhole s name hr)),
          .created rfl hr hnone hi hinst rfl⟩
  | makeDir t path n =>
    obtain ⟨⟨b, k⟩, he, h⟩ := bind_eq_ok.mp h
    cases h
    obtain ⟨hx, ⟨-, hd⟩ | ⟨-, s, name, i, hr, hnone, hi, hinst, ⟨old, old', new, hlinks⟩, -, hs'⟩⟩ :=
      hs.makeDir_inv (hwd t) hop.1 he
    · exact ⟨kind, hsame hd hx⟩
    · have hfresh : kind i = none := hs.storage.kind_of_free (mem_sectors_of_head hi)
      exact ⟨_, hst.of_installed hx hfresh hnone hinst (hs' (fun h => absurd h hop.2.not_cuts) (hwhole s name hr)),
        .made rfl hr hnone hi hinst hlinks.linked rfl⟩
  | remove t path =>
    obtain ⟨⟨b, k⟩, he, h⟩ := bind_eq_ok.mp h
    cases h
    obtain ⟨hx, ⟨-, hd⟩ | ⟨rfl, s, name, e, i, hr, -, hlook, hplain, -, hu, hs'⟩⟩ := hs.remove_inv (hwd t) hrest he
    · exact ⟨kind, hsame hd hx⟩
    · have hk := hu.keeps hs (hs.kind_of_resolve _ (hwd t) hr) hlook hplain
      exact ⟨_, ⟨hs', hx.rests hrest, fun t => hk.dirs (hwd t), hhandles, hx.mapCount.trans hmap⟩,
        .removed rfl he hr hlook hplain hu rfl⟩
  | changeDir t path =>
    obtain ⟨⟨r, k⟩, he, h⟩ := bind_eq_ok.mp h
    cases h
    obtain ⟨k', he', hd, hx⟩ := hs.exec_changeDir (hwd t) rfl path
    rw [he'] at he
    cases he
    obtain ⟨h₁, h₂⟩ := hsame hd hx
    refine ⟨kind, ⟨h₁.sound, h₁.rest, fun t' => ?_, h₁.handles, h₁.mapCount⟩, h₂⟩
    dsimp only
    split
    · exact hwd t'
    · by_cases ht : t' = t
      · rw [ht, Function.update_self]
        exact (hs.kind_of_directoryAt (hwd t) path).resolve_left ‹_›
      · rw [Function.update_of_ne ht]
        exact hwd t'
  | list t depth =>
    obtain ⟨⟨u, k⟩, he, h⟩ := bind_eq_ok.mp h
    cases h
    obtain ⟨hd, hx⟩ := hs.list_inv (hwd t) he
    exact ⟨kind, hsame hd hx⟩
  | session t path actions =>
    obtain ⟨⟨u, k⟩, he, h⟩ := bind_eq_ok.mp h
    cases h
    obtain ⟨h₁, h₂, h₃, h₄⟩ := session_inv hs (hwd t) hrest hop he
    exact ⟨kind, ⟨h₁, h₂.rests hrest, hwd, hhandles, h₂.mapCount.trans hmap⟩, .same rfl h₃ h₄⟩
  | openFile t path =>
    obtain ⟨⟨r, k⟩, he, h⟩ := bind_eq_ok.mp h
    cases h
    obtain ⟨hd, hx, hfound⟩ := hs.open_inv (hwd t) he
    obtain ⟨h₁, h₂⟩ := hsame hd hx
    refine ⟨kind, ⟨h₁.sound, h₁.rest, h₁.wd, fun f hf => ?_, h₁.mapCount⟩, h₂⟩
    obtain hf | hf := List.mem_append.mp hf
    · exact hhandles f hf
    · obtain ⟨s, name, e, hr, hlook, rfl, -⟩ := hfound f (Option.mem_toList.mp hf)
      refine hs.ne_map (hs.kind_of_lookupIn (hs.kind_of_resolve _ (hwd t) hr) hlook) ?_
      rw [DirectoryEntry.kind]
      split <;> decide
  | close i =>
    rw [System.step] at h
    split at h
    · cases h
      exact ⟨kind, hsame rfl (.refl _)⟩
    · rename_i f hf
      obtain ⟨⟨u, k⟩, he, h⟩ := bind_eq_ok.mp h
      cases h
      obtain ⟨k', he', hd, hx, -⟩ := OpenFile.exec_close f (hhandles f (List.mem_of_getElem? hf)) sys.kernel
      rw [he'] at he
      cases he
      obtain ⟨h₁, h₂⟩ := hsame hd hx
      exact ⟨kind,
          ⟨h₁.sound, h₁.rest, h₁.wd, fun f hf => hhandles f (List.mem_of_mem_eraseIdx hf), h₁.mapCount⟩, h₂⟩
  | restart =>
    obtain ⟨⟨fs', k⟩, he, h⟩ := bind_eq_ok.mp h
    cases h
    obtain ⟨fs'', k', he', hd, hx, hs', hcounts⟩ := hs.exec_mount (k := reset sys.kernel) rfl
    rw [he'] at he
    cases he
    refine ⟨kind, ⟨by dsimp only; rw [hd]; exact hs', hx (atRest_reset _), fun _ => hs.names.root,
      fun f hf => absurd hf List.not_mem_nil, hcounts (fun _ => rfl) _⟩, .same rfl ?_ ?_⟩
    · dsimp only
      rw [hd]
      exact .refl _ _
    · dsimp only
      rw [hd]
      exact fun _ => id

lemma Changes.keeps {op : Op} {kind' : ℤ → Option Kind} (hc : Changes sys op sys'.kernel kind kind')
    (hst : sys.Steady kind) (hop : sys.Regular op) :
    Keeps (sys.Removes op) sys.kernel.disk kind sys'.kernel.disk kind' ∧
      (op.Counted → PlainBacked sys.kernel.disk kind → PlainBacked sys'.kernel.disk kind') := by
  have hs := hst.sound
  cases hc with
  | same hkind htab hb =>
    subst hkind
    exact ⟨.of_tables htab, hb⟩
  | created hop' hr hnone hi hinst hkind =>
    subst hop' hkind
    exact ⟨hinst.keeps _ (hs.storage.kind_of_free (mem_sectors_of_head hi)) hnone, fun _ => hinst.plainBacked hop⟩
  | made hop' hr hnone hi hinst hlinked hkind =>
    subst hop' hkind
    exact ⟨hinst.keeps _ (hs.storage.kind_of_free (mem_sectors_of_head hi)) hnone,
        fun _ => hinst.plainBacked hop.1⟩
  | @removed t path s name e i hop' he hr hlook hplain hu hkind =>
    subst hop' hkind
    have hk := hu.keeps hs (hs.kind_of_resolve _ (hst.wd t) hr) hlook hplain
    refine ⟨⟨hk.dirs, hk.hdrs, fun {x name' e'} hkx hl hg => ?_⟩, fun _ => hu.plainBacked⟩
    refine hk.lookups hkx hl (hg.imp id fun hg hgone => hg ?_)
    obtain ⟨rfl, hkey⟩ := hgone
    exact ⟨t, path, name, sys'.kernel, rfl, hr, hkey, he⟩

lemma Stable.entersWhole (hst : sys.Stable kind) (op : Op) : sys.EntersWhole op := by
  cases op with
  | create t path n | makeDir t path n =>
    exact fun s name hr => hst.nextWhole (hst.sound.kind_of_resolve _ (hst.wd t) hr)
  | _ => trivial

lemma Stable.step_cases {op : Op} (hst : sys.Stable kind) (hop : sys.Regular op) (h : step op sys = .ok sys') :
    ∃ kind', sys'.Stable kind' ∧ Changes sys op sys'.kernel kind kind' := by
  obtain ⟨kind', hst', hc⟩ := hst.toSteady.step_cases hop (hst.entersWhole op) h
  have hold := (hc.keeps hst.toSteady hop).1
  refine ⟨kind', ⟨hst', fun {x} hk => ?_⟩, hc⟩
  by_cases hkx : kind x = some .dir
  · rw [hold.hdrs hkx]
    exact hst.uncut hkx
  · cases hc with
    | same hkind => exact absurd (hkind ▸ hk) hkx
    | created hop' hr hnone hi hinst hkind =>
      rw [hkind, Function.update_apply] at hk
      split at hk
      · cases hk
      · exact absurd hk hkx
    | made hop' hr hnone hi hinst hlinked hkind =>
      rw [hkind, Function.update_apply] at hk
      split at hk
      · rename_i hx
        subst hx hop'
        rw [hinst.numBytes hop.1]
        exact hop.2.not_cuts
      · exact absurd hk hkx
    | removed hop' he hr hlook hplain hu hkind =>
      rw [hkind, Function.update_apply] at hk
      split at hk
      · cases hk
      · exact absurd hk hkx

lemma Stable.step {op : Op} (hst : sys.Stable kind) (hop : sys.Regular op) (h : step op sys = .ok sys') :
    ∃ kind', sys'.Stable kind' ∧ Keeps (sys.Removes op) sys.kernel.disk kind sys'.kernel.disk kind' ∧
      (op.Counted → PlainBacked sys.kernel.disk kind → PlainBacked sys'.kernel.disk kind') := by
  obtain ⟨kind', hst', hc⟩ := hst.step_cases hop h
  exact ⟨kind', hst', hc.keeps hst.toSteady hop⟩

lemma Reachable.step {ok : System → Op → Prop} (h : Reachable ok sys) (op : Op) (hop : ok sys op)
    (hstep : System.step op sys = .ok sys') : Reachable ok sys' := by
  obtain ⟨k, start, hb, hr⟩ := h
  exact ⟨k, start, hb, hr.step op hop hstep⟩

lemma Reachable.stable (h : Reachable Regular sys) : ∃ kind, sys.Stable kind := by
  obtain ⟨k, start, hb, hr⟩ := h
  obtain ⟨sys₀, hb₀, -, hst, -⟩ := boot_spec k
  rw [hb₀] at hb
  cases hb
  refine hr.invariant (I := fun s => ∃ kind, s.Stable kind) (fun op s t hs hop hstep => ?_) ⟨formatted, hst⟩
  obtain ⟨kind, hs⟩ := hs
  obtain ⟨kind', hs', -⟩ := hs.step hop hstep
  exact ⟨kind', hs'⟩

end System

end NachosFileSys
