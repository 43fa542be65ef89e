import NachosFileSys.FileSystem

namespace NachosFileSys

open Lib.Programs Lib.Bytes

def Request.IsRead : Request → Prop
  | .readSector _ | .find _ _ | .stop _ => True
  | _ => False

def Request.KeepsDisk : Request → Prop
  | .writeSector _ _ => False
  | _ => True

def Request.IsFrugal : Request → Prop
  | .readSector _ | .find _ _ | .assign _ _ _ | .stop _ => True
  | _ => False

structure Reads {α : Type} (p : Nachos α) : Prop where
  all : p.All Request.IsRead

structure KeepsDisk {α : Type} (p : Nachos α) : Prop where
  all : p.All Request.KeepsDisk

structure Frugal {α : Type} (p : Nachos α) : Prop where
  all : p.All Request.IsFrugal

variable {α β : Type} {k k' : Kernel} {a : α}

lemma Reads.keepsDisk {p : Nachos α} (hp : Reads p) : KeepsDisk p :=
  ⟨Prog.All.mono (fun e he => by cases e <;> trivial) hp.all⟩

lemma Reads.frugal {p : Nachos α} (hp : Reads p) : Frugal p :=
  ⟨Prog.All.mono (fun e he => by cases e <;> trivial) hp.all⟩

lemma Frugal.keepsDisk {p : Nachos α} (hp : Frugal p) : KeepsDisk p :=
  ⟨Prog.All.mono (fun e he => by cases e <;> trivial) hp.all⟩

lemma Reads.exec_eq {p : Nachos α} (hp : Reads p) (he : exec p k = .ok (a, k')) : k = k' := by
  refine Prog.All.run_invariant Kernel.handle (I := fun t => k = t) ?_ hp.all rfl he
  intro e hread s r s' hs hh
  subst hs
  cases e with
  | readSector s =>
    simp only [Kernel.handle] at hh
    split at hh
    · cases hh
      rfl
    · cases hh
  | find m key =>
    cases hh
    rfl
  | stop f => cases hh
  | writeSector | malloc | assign | p | v => exact hread.elim

lemma Kernel.handle_keepsDisk {e : Request} {r : e.Reply} (he : e.KeepsDisk)
    (hh : Kernel.handle e k = .ok (r, k')) :
    k'.disk = k.disk := by
  cases e with
  | readSector s =>
    simp only [Kernel.handle] at hh
    split at hh
    · cases hh
      rfl
    · cases hh
  | writeSector => exact he.elim
  | malloc | find | assign =>
    cases hh
    rfl
  | p m key =>
    simp only [Kernel.handle] at hh
    split at hh
    · cases hh
    · split at hh
      · cases hh
      · cases hh
        rfl
  | v m key =>
    simp only [Kernel.handle] at hh
    split at hh
    · cases hh
    · cases hh
      rfl
  | stop f => cases hh

lemma KeepsDisk.exec_eq {p : Nachos α} (hp : KeepsDisk p) (he : exec p k = .ok (a, k')) : k'.disk = k.disk := by
  refine Prog.All.run_invariant Kernel.handle (I := fun t => t.disk = k.disk) ?_ hp.all rfl he
  intro e hkeep s r s' hs hh
  rw [Kernel.handle_keepsDisk hkeep hh]
  exact hs

lemma reads_pure (a : α) : Reads (pure a : Nachos α) := ⟨Prog.all_pure a⟩

lemma reads_stop (f : Fault) : Reads (stop f : Nachos α) := ⟨trivial, fun e => nomatch e⟩

lemma reads_lift (x : Except Fault α) : Reads (lift x) := by
  cases x with
  | ok a => exact reads_pure a
  | error f => exact reads_stop f

lemma reads_assert (b : Bool) : Reads (assert b) := reads_lift _

lemma reads_readSector (s : ℤ) : Reads (readSector s) := ⟨Prog.all_send trivial⟩

lemma reads_find (m : KernelMap) (key : ℤ) : Reads (find m key) := ⟨Prog.all_send trivial⟩

lemma Reads.bind {p : Nachos α} {f : α → Nachos β} (hp : Reads p) (hf : ∀ a, Reads (f a)) : Reads (p >>= f) :=
  ⟨Prog.All.bind hp.all fun a => (hf a).all⟩

lemma KeepsDisk.bind {p : Nachos α} {f : α → Nachos β} (hp : KeepsDisk p) (hf : ∀ a, KeepsDisk (f a)) :
    KeepsDisk (p >>= f) :=
  ⟨Prog.All.bind hp.all fun a => (hf a).all⟩

lemma Frugal.bind {p : Nachos α} {f : α → Nachos β} (hp : Frugal p) (hf : ∀ a, Frugal (f a)) : Frugal (p >>= f) :=
  ⟨Prog.All.bind hp.all fun a => (hf a).all⟩

lemma frugal_assign (m : KernelMap) (key value : ℤ) : Frugal (assign m key value) := ⟨Prog.all_send trivial⟩

lemma frugal_register (m : KernelMap) (key value : ℤ) : Frugal (register m key value) := by
  refine (reads_find m key).frugal.bind fun v => ?_
  cases v with
  | none => exact frugal_assign _ _ _
  | some v => exact (reads_pure ()).frugal

lemma keepsDisk_pure (a : α) : KeepsDisk (pure a : Nachos α) := ⟨Prog.all_pure a⟩

lemma keepsDisk_malloc (n : ℕ) : KeepsDisk (malloc n) := ⟨Prog.all_send trivial⟩

lemma keepsDisk_lookup (m : KernelMap) (key : ℤ) : KeepsDisk (lookup m key) := by
  refine (reads_find m key).keepsDisk.bind fun v => ?_
  cases v with
  | none => exact (frugal_assign _ _ _).keepsDisk.bind fun _ => keepsDisk_pure _
  | some v => exact keepsDisk_pure v

namespace FileHeader

lemma reads_fetchFrom (s : ℤ) : Reads (fetchFrom s) := (reads_readSector s).bind fun _ => reads_pure _

lemma reads_byteToSector (h : FileHeader) (offset : ℤ) : Reads (h.byteToSector offset) :=
  (reads_lift _).bind fun b => ((reads_readSector b).bind fun _ => reads_pure _).bind fun _ =>
    (reads_lift _).bind fun _ => (reads_assert _).bind fun _ => reads_pure _

lemma keepsDisk_new : KeepsDisk new := (keepsDisk_malloc 4).bind fun _ => keepsDisk_pure _

end FileHeader

namespace OpenFile

lemma reads_readSectors (hdr : FileHeader) (count : ℕ) : ∀ i, Reads (readSectors hdr i count) := by
  induction count with
  | zero => exact fun _ => reads_pure _
  | succ count ih =>
    exact fun i => (hdr.reads_byteToSector _).bind fun s => (reads_readSector s).bind fun _ =>
      (ih (i + 1)).bind fun _ => reads_pure _

lemma reads_readAt (f : OpenFile) (numBytes position : ℤ) : Reads (f.readAt numBytes position) := by
  rw [readAt]
  dsimp only
  split
  · exact reads_pure _
  · generalize (if int32 (position + numBytes) > f.hdr.fileLength then int32 (f.hdr.fileLength - position)
      else numBytes) = c
    split
    · exact reads_stop _
    · exact (reads_readSectors _ _ _).bind fun _ => reads_lift _

lemma reads_readPartial (f : OpenFile) (partly : Bool) (s off : ℤ) (buf : List Byte) :
    Reads (f.readPartial partly s off buf) := by
  rw [readPartial]
  split
  · exact (f.reads_readAt _ _).bind fun _ => reads_lift _
  · exact reads_pure _

lemma frugal_new (s : ℤ) : Frugal (new s) := by
  refine (FileHeader.reads_fetchFrom s).frugal.bind fun hdr =>
    .bind ((reads_find _ s).frugal.bind fun v => ?_) fun _ =>
    (frugal_register _ _ _).bind fun _ => (frugal_register _ _ _).bind fun _ =>
      (frugal_register _ _ _).bind fun _ =>
      (reads_pure _).frugal
  cases v <;> exact frugal_assign _ _ _

lemma keepsDisk_new (s : ℤ) : KeepsDisk (new s) := (frugal_new s).keepsDisk

lemma keepsDisk_close (f : OpenFile) : KeepsDisk f.close :=
  (keepsDisk_lookup _ _).bind fun _ => (frugal_assign _ _ _).keepsDisk

end OpenFile

lemma Bitmap.reads_fetchFrom {n : ℕ} (b : Bitmap n) (file : OpenFile) : Reads (b.fetchFrom file) :=
  (file.reads_readAt _ _).bind fun _ => reads_lift _

namespace Directory

lemma keepsDisk_new (size : ℕ) : KeepsDisk (new size) := (keepsDisk_malloc _).bind fun _ => keepsDisk_pure _

lemma reads_fetchFrom (d : Directory) (file : OpenFile) : Reads (d.fetchFrom file) :=
  (file.reads_readAt _ _).bind fun _ => reads_lift _

lemma keepsDisk_insert (d : Directory) (name : CString) (s : ℤ) (isDir : Byte) :
    KeepsDisk (d.insert name s isDir) := by
  rw [insert]
  split
  · exact keepsDisk_pure _
  · refine ((keepsDisk_malloc _).bind fun _ => keepsDisk_pure _).bind fun d' => ?_
    split <;> exact keepsDisk_pure _

lemma keepsDisk_add (d : Directory) (name : CString) (s : ℤ) : KeepsDisk (d.add name s) := by
  rw [add]
  split
  · exact keepsDisk_pure _
  · exact (d.keepsDisk_insert _ _ _).bind fun _ => (reads_assert _).keepsDisk.bind fun _ => keepsDisk_pure _

lemma keepsDisk_addDirectory (d : Directory) (name : CString) (s : ℤ) : KeepsDisk (d.addDirectory name s) := by
  rw [addDirectory]
  split
  · exact keepsDisk_pure _
  · exact d.keepsDisk_insert _ _ _

end Directory

lemma keepsDisk_fetchDirectory (file : OpenFile) : KeepsDisk (fetchDirectory file) :=
  (Directory.keepsDisk_new _).bind fun d => (d.reads_fetchFrom file).keepsDisk

lemma keepsDisk_walk (names : List CString) : ∀ wd, KeepsDisk (walk names wd) := by
  induction names with
  | nil => exact fun _ => keepsDisk_pure _
  | cons name rest ih =>
    intro wd
    cases rest with
    | nil => exact keepsDisk_pure _
    | cons name' rest =>
      refine (Directory.keepsDisk_new _).bind fun d => (OpenFile.keepsDisk_new wd).bind fun file =>
        (d.reads_fetchFrom file).keepsDisk.bind fun d' => ?_
      split
      · exact file.keepsDisk_close.bind fun _ => ih _
      · exact keepsDisk_pure _

lemma keepsDisk_parsePath (path : CString) (wd : ℤ) : KeepsDisk (parsePath path wd) := keepsDisk_walk _ wd

lemma FileSystem.reads_fetchFreeMap (fs : FileSystem) : Reads fs.fetchFreeMap := by
  rw [fetchFreeMap]
  exact (reads_lift _).bind fun m => m.reads_fetchFrom _

def Request.KeepsMaps : Request → Prop
  | .assign _ _ _ | .p _ _ | .v _ _ => False
  | _ => True

structure KeepsMaps {α : Type} (p : Nachos α) : Prop where
  all : p.All Request.KeepsMaps

lemma Reads.keepsMaps {p : Nachos α} (hp : Reads p) : KeepsMaps p :=
  ⟨Prog.All.mono (fun e he => by cases e <;> trivial) hp.all⟩

lemma KeepsMaps.bind {p : Nachos α} {f : α → Nachos β} (hp : KeepsMaps p) (hf : ∀ a, KeepsMaps (f a)) :
    KeepsMaps (p >>= f) :=
  ⟨Prog.All.bind hp.all fun a => (hf a).all⟩

lemma keepsMaps_pure (a : α) : KeepsMaps (pure a : Nachos α) := (reads_pure a).keepsMaps

lemma keepsMaps_malloc (n : ℕ) : KeepsMaps (malloc n) := ⟨Prog.all_send trivial⟩

lemma keepsMaps_writeSector (s : ℤ) (data : Sector) : KeepsMaps (writeSector s data) := ⟨Prog.all_send trivial⟩

namespace FileHeader

lemma keepsMaps_blockAt (s : ℤ) (m : FreeMap) : KeepsMaps (blockAt s m) := by
  rw [blockAt]
  split
  · exact (reads_lift _).keepsMaps.bind fun _ => keepsMaps_pure _
  · exact ((reads_readSector s).bind fun _ => reads_pure _).keepsMaps.bind fun _ => keepsMaps_pure _

lemma keepsMaps_allocateLoop (need : ℤ) (slots : List ℤ) :
    ∀ (allocated : ℤ) (m : FreeMap), KeepsMaps (allocateLoop need slots allocated m) := by
  induction slots with
  | nil => exact fun _ _ => keepsMaps_pure _
  | cons s slots ih =>
    intro allocated m
    rw [allocateLoop]
    split
    · exact (keepsMaps_blockAt s m).bind fun _ => (reads_assert _).keepsMaps.bind fun _ =>
        (reads_lift _).keepsMaps.bind fun _ => (reads_assert _).keepsMaps.bind fun _ =>
          (keepsMaps_writeSector _ _).bind fun _ => (ih _ _).bind fun _ => keepsMaps_pure _
    · exact keepsMaps_pure _

lemma keepsMaps_allocate (h : FileHeader) (m : FreeMap) (fileSize : ℤ) : KeepsMaps (h.allocate m fileSize) := by
  refine (reads_lift _).keepsMaps.bind fun clear => ?_
  split
  · exact keepsMaps_pure _
  · exact (keepsMaps_allocateLoop _ _ _ _).bind fun _ => (reads_assert _).keepsMaps.bind fun _ => keepsMaps_pure _

end FileHeader

namespace OpenFile

lemma keepsMaps_writeSectors (hdr : FileHeader) (count : ℕ) :
    ∀ (i : ℤ) (buf : List Byte), KeepsMaps (writeSectors hdr i count buf) := by
  induction count with
  | zero => exact fun _ _ => keepsMaps_pure _
  | succ count ih =>
    exact fun i buf => (hdr.reads_byteToSector _).keepsMaps.bind fun s =>
      (keepsMaps_writeSector s _).bind fun _ => ih (i + 1) _

lemma keepsMaps_writeAt (f : OpenFile) (src : List Byte) (numBytes position : ℤ) :
    KeepsMaps (f.writeAt src numBytes position) := by
  rw [writeAt]
  dsimp only
  split
  · exact keepsMaps_pure _
  · generalize (if int32 (position + numBytes) > f.hdr.fileLength then int32 (f.hdr.fileLength - position)
      else numBytes) = c
    split
    · exact (reads_stop _).keepsMaps
    · exact (keepsMaps_malloc _).bind fun _ => (f.reads_readPartial _ _ _ _).keepsMaps.bind fun _ =>
        (f.reads_readPartial _ _ _ _).keepsMaps.bind fun _ => (reads_lift _).keepsMaps.bind fun _ =>
          (reads_lift _).keepsMaps.bind fun _ => (keepsMaps_writeSectors _ _ _ _).bind fun _ => keepsMaps_pure _

lemma keepsMaps_extend (fm f : OpenFile) (numBytes : ℤ) : KeepsMaps (extend fm f numBytes) :=
  (reads_lift _).keepsMaps.bind fun m => (m.reads_fetchFrom fm).keepsMaps.bind fun _ =>
    (f.hdr.keepsMaps_allocate _ _).bind fun _ => (reads_assert _).keepsMaps.bind fun _ =>
      (keepsMaps_writeSector _ _).bind fun _ =>
        ((fm.keepsMaps_writeAt _ _ _).bind fun _ => keepsMaps_pure _).bind fun _ => keepsMaps_pure _

end OpenFile

end NachosFileSys
