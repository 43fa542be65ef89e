import NachosFileSys.Handles

namespace NachosFileSys

open Lib.Programs Lib.Bytes

/-- The invariant of the file system, but for the entries that directory files cut. `kind` gives the
files of the disk by their header sectors. -/
structure Grounded (fs : FileSystem) (d : Disk) (kind : ℤ → Option Kind) : Prop where
  storage : Storage d (freeMapAt d) kind
  names : Names (tableAt d) kind
  backed : ∀ {s}, kind s = some .dir → (hdrAt d s).numBytes ≤ 128 * (dataAt d s).length
  mapFile : fs.freeMapFile.Current d
  mapSector : fs.freeMapFile.hdrSector = FreeMapSector

def CutUnused (d : Disk) (s : ℤ) : Prop := Cuts (hdrAt d s).numBytes → cutInUse d s = 0

structure Sound (fs : FileSystem) (d : Disk) (kind : ℤ → Option Kind) : Prop extends Grounded fs d kind where
  unused : ∀ {s}, kind s = some .dir → CutUnused d s

structure SameDirs (kind : ℤ → Option Kind) (d d' : Disk) : Prop where
  table : ∀ {s}, kind s = some .dir → tableAt d' s = tableAt d s
  hdr : ∀ {s}, kind s = some .dir → hdrAt d' s = hdrAt d s

lemma SameDirs.refl (kind : ℤ → Option Kind) (d : Disk) : SameDirs kind d d := ⟨fun _ => rfl, fun _ => rfl⟩

lemma SameDirs.trans {kind : ℤ → Option Kind} {d d₁ d₂ : Disk}
    (h : SameDirs kind d d₁) (h' : SameDirs kind d₁ d₂) :
    SameDirs kind d d₂ :=
  ⟨fun hk => (h'.table hk).trans (h.table hk), fun hk => (h'.hdr hk).trans (h.hdr hk)⟩

/-- The entry that `Directory::FindIndex` finds in the directory at sector `s`. -/
def lookupIn (d : Disk) (s : ℤ) (name : CString) : Option DirectoryEntry :=
  (tableAt d s).find? (Directory.named name)

def resolve (d : Disk) : List CString → ℤ → Option (ℤ × CString)
  | [], wd => some (wd, [])
  | [name], wd => some (wd, name)
  | dirname :: rest, wd =>
    match lookupIn d wd dirname with
    | some e => if e.isDir ≠ 0 then resolve d rest e.sector.toInt else none
    | none => none

lemma resolve_cons_cons (d : Disk) (name name' : CString) (rest : List CString) (wd : ℤ) :
    resolve d (name :: name' :: rest) wd =
      match lookupIn d wd name with
      | some e => if e.isDir ≠ 0 then resolve d (name' :: rest) e.sector.toInt else none
      | none => none := by
  rw [resolve]
  simp

namespace Loaded

variable {d : Disk} {s : ℤ} {dir : Directory}

lemma isDirectory_eq (hl : Loaded (tableAt d s) dir) (name : CString) :
    dir.isDirectory name = (lookupIn d s name).any (·.isDir ≠ 0) := by
  rw [Directory.isDirectory, hl.entryNamed_eq, lookupIn]
  cases (tableAt d s).find? (Directory.named name) <;> rfl

lemma find_eq (hl : Loaded (tableAt d s) dir) (name : CString) :
    dir.find name = ((lookupIn d s name).map (·.sector.toInt)).getD (-1) := by
  rw [Directory.find, hl.entryNamed_eq, lookupIn]
  cases (tableAt d s).find? (Directory.named name) <;> rfl

end Loaded

lemma Sound.lookupIn_spec {d : Disk} {s : ℤ} {name : CString}
    {e : DirectoryEntry} (h : lookupIn d s name = some e) :
    e ∈ tableAt d s ∧ e.inUse ≠ 0 ∧ key e.name.toList = key name :=
  ⟨List.mem_of_find?_eq_some h, named_iff.mp (List.find?_some h)⟩

def Along (P : ℤ → Prop) (d : Disk) : List CString → ℤ → Prop
  | name :: name' :: rest, wd =>
    P wd ∧ ∀ e, lookupIn d wd name = some e → e.isDir ≠ 0 → Along P d (name' :: rest) e.sector.toInt
  | _, _ => True

lemma Along.append {P : ℤ → Prop} {d : Disk} {s : ℤ} {name x : CString} (names : List CString) : ∀ {wd : ℤ},
    Along P d names wd → resolve d names wd = some (s, name) → P s → Along P d (names ++ [x]) wd := by
  induction names with
  | nil => exact fun _ _ _ => trivial
  | cons dirname rest ih =>
    intro wd halong hr hs
    cases rest with
    | nil =>
      cases hr
      exact ⟨hs, fun _ _ _ => trivial⟩
    | cons name' rest =>
      refine ⟨halong.1, fun e hl hd => ih (halong.2 e hl hd) ?_ hs⟩
      rw [resolve_cons_cons, hl] at hr
      dsimp only at hr
      rwa [if_pos hd] at hr

namespace Grounded

variable {fs : FileSystem} {d : Disk} {kind : ℤ → Option Kind} {s : ℤ} {name : CString} {e : DirectoryEntry}

lemma kind_of_lookupIn (hs : Grounded fs d kind) (hk : kind s = some .dir) (h : lookupIn d s name = some e) :
    kind e.sector.toInt = some e.kind :=
  hs.names.points hk (Sound.lookupIn_spec h).1 (Sound.lookupIn_spec h).2.1

lemma inDisk (hs : Grounded fs d kind) {c : Kind} (hk : kind s = some c) : InDisk s := (hs.storage.file hk).inDisk

lemma ne_map (hs : Grounded fs d kind) {c : Kind} (hk : kind s = some c) (hc : c ≠ .map) : s ≠ FreeMapSector := by
  rintro rfl
  rw [hs.storage.map] at hk
  exact hc (Option.some.inj hk).symm

lemma plain_ne_map (hs : Grounded fs d kind) (hk : kind s = some .plain) : s ≠ FreeMapSector :=
  hs.ne_map hk (by decide)

lemma dir_ne_map (hs : Grounded fs d kind) (hk : kind s = some .dir) : s ≠ FreeMapSector :=
  hs.ne_map hk (by decide)

lemma kind_of_isDir (hs : Grounded fs d kind) (hk : kind s = some .dir) (h : lookupIn d s name = some e)
    (hd : e.isDir ≠ 0) : kind e.sector.toInt = some .dir := by
  rw [hs.kind_of_lookupIn hk h, DirectoryEntry.kind, if_neg hd]

lemma kind_of_resolve (hs : Grounded fs d kind) (names : List CString) : ∀ {wd s : ℤ} {name : CString},
    kind wd = some .dir → resolve d names wd = some (s, name) → kind s = some .dir := by
  induction names with
  | nil =>
    intro wd s name hwd hr
    cases hr
    exact hwd
  | cons dirname rest ih =>
    intro wd s name hwd hr
    cases rest with
    | nil =>
      cases hr
      exact hwd
    | cons name' rest =>
      rw [resolve_cons_cons] at hr
      cases he : lookupIn d wd dirname with
      | none =>
        rw [he] at hr
        cases hr
      | some e =>
        rw [he] at hr
        dsimp only at hr
        split at hr
        · exact ih (hs.kind_of_isDir hwd he ‹_›) hr
        · cases hr

lemma resolve_congr (hs : Grounded fs d kind) {d' : Disk} (names : List CString)
    (hl : ∀ {s}, kind s = some .dir → ∀ name e, lookupIn d s name = some e → e.isDir ≠ 0 →
      lookupIn d' s name = some e) :
    ∀ {wd : ℤ} {r : ℤ × CString}, kind wd = some .dir → resolve d names wd = some r →
    resolve d' names wd = some r := by
  induction names with
  | nil => exact fun _ hr => hr
  | cons dirname rest ih =>
    intro wd r hwd hr
    cases rest with
    | nil => exact hr
    | cons name' rest =>
      rw [resolve_cons_cons] at hr ⊢
      cases he : lookupIn d wd dirname with
      | none =>
        rw [he] at hr
        cases hr
      | some e =>
        rw [he] at hr
        dsimp only at hr
        split at hr
        · rw [hl hwd dirname e he ‹_›]
          dsimp only
          rw [if_pos ‹_›]
          exact ih (hs.kind_of_isDir hwd he ‹_›) hr
        · cases hr

lemma along_congr (hs : Grounded fs d kind) {d' : Disk} {P : ℤ → Prop} (names : List CString)
    (hl : ∀ {s}, kind s = some .dir → ∀ name e, lookupIn d s name = some e → e.isDir ≠ 0 →
      lookupIn d' s name = some e) :
    ∀ {wd : ℤ} {r : ℤ × CString}, kind wd = some .dir → resolve d names wd = some r → Along P d names wd →
      Along P d' names wd := by
  induction names with
  | nil => exact fun _ _ _ => trivial
  | cons dirname rest ih =>
    intro wd r hwd hr halong
    cases rest with
    | nil => trivial
    | cons name' rest =>
      rw [resolve_cons_cons] at hr
      cases he : lookupIn d wd dirname with
      | none =>
        rw [he] at hr
        cases hr
      | some e =>
        rw [he] at hr
        dsimp only at hr
        split at hr
        · rename_i hd
          refine ⟨halong.1, fun e' he' hd' => ?_⟩
          obtain rfl : e = e' := Option.some.inj ((hl hwd dirname e he hd).symm.trans he')
          exact ih (hs.kind_of_isDir hwd he hd) hr (halong.2 e he hd)
        · cases hr

lemma along_dirs (hs : Grounded fs d kind) (names : List CString) : ∀ {wd : ℤ}, kind wd = some .dir →
    Along (fun x => kind x = some .dir) d names wd := by
  induction names with
  | nil => exact fun _ => trivial
  | cons name rest ih =>
    intro wd hwd
    cases rest with
    | nil => trivial
    | cons name' rest => exact ⟨hwd, fun e he hd => ih (hs.kind_of_isDir hwd he hd)⟩

lemma along_mono (hs : Grounded fs d kind) {P Q : ℤ → Prop} (hPQ : ∀ {x}, kind x = some .dir → P x → Q x)
    (names : List CString) : ∀ {wd : ℤ}, kind wd = some .dir → Along P d names wd → Along Q d names wd := by
  induction names with
  | nil => exact fun _ _ => trivial
  | cons name rest ih =>
    intro wd hwd halong
    cases rest with
    | nil => trivial
    | cons name' rest =>
      exact ⟨hPQ hwd halong.1, fun e he hd => ih (hs.kind_of_isDir hwd he hd) (halong.2 e he hd)⟩

lemma exec_openDirectory (hs : Grounded fs d kind) (hk : kind s = some .dir) {k : Kernel} (hd : k.disk = d) :
    ∃ k', exec (OpenFile.new s) k = .ok (⟨hdrAt d s, 0, s⟩, k') ∧ k'.disk = d ∧ Extends k.maps k'.maps ∧
      k'.maps .openFileCount =
        Function.update (k.maps .openFileCount) s (some (counted 0 (k.maps .openFileCount s))) := by
  obtain ⟨k', he, hd', hx, -, -, hc⟩ := OpenFile.exec_new (hs.inDisk hk) k
  rw [hd] at he hd'
  exact ⟨k', he, hd', hx (hs.dir_ne_map hk), hc⟩

lemma exec_loadDirectory (hs : Grounded fs d kind) (hk : kind s = some .dir)
    (hu : CutUnused d s) {k : Kernel} (hd : k.disk = d)
    {dir : Directory} (hlen : dir.table.length = NumDirEntries) (hnew : ∀ e ∈ dir.table, e.inUse = 0) (pos : ℤ) :
    ∃ dir', exec (dir.fetchFrom ⟨hdrAt d s, pos, s⟩) k = .ok (dir', k) ∧ Loaded (tableAt d s) dir' := by
  subst hd
  have hf : (OpenFile.mk (hdrAt k.disk s) pos s).Current k.disk := rfl
  exact Directory.exec_fetch ⟨hs.storage.file hk, hs.backed hk, hu⟩ hf rfl hlen hnew

lemma exec_walk (hs : Grounded fs d kind) (names : List CString) : ∀ {wd : ℤ} {k : Kernel}, kind wd = some .dir →
    Along (CutUnused d) d names wd → k.disk = d →
    ∃ k', exec (walk names wd) k = .ok ((resolve d names wd).getD (-1, []), k') ∧ k'.disk = d ∧
      Extends k.maps k'.maps ∧
      (AtRest k.maps → (resolve d names wd).isSome → Balanced k.maps k'.maps) := by
  induction names with
  | nil => exact fun {wd k} _ _ hd => ⟨k, rfl, hd, .refl _, fun _ _ => .refl _⟩
  | cons dirname rest ih =>
    intro wd k hwd halong hd
    cases rest with
    | nil => exact ⟨k, rfl, hd, .refl _, fun _ _ => .refl _⟩
    | cons name' rest =>
      obtain ⟨dir, k₁, h₁, hd₁, hm₁, hlen, hnew⟩ := Directory.exec_new k
      obtain ⟨k₂, h₂, hd₂, hx₂, hc₂⟩ := hs.exec_openDirectory hwd (hd₁.trans hd)
      obtain ⟨dir', h₃, hl⟩ := hs.exec_loadDirectory hwd halong.1 hd₂ hlen hnew 0
      have hstart : exec (walk (dirname :: name' :: rest) wd) k =
          exec (if dir'.isDirectory dirname = true then do
              (OpenFile.mk (hdrAt d wd) 0 wd).close
              walk (name' :: rest) (dir'.find dirname)
            else pure (-1, [])) k₂ := by
        rw [walk]
        · simp only [exec_bind, h₁, h₂, h₃]
        · simp
      rw [hm₁] at hx₂ hc₂
      rw [hstart, resolve_cons_cons, hl.isDirectory_eq, hl.find_eq]
      cases he : lookupIn d wd dirname with
      | none => exact ⟨k₂, rfl, hd₂, hx₂, fun _ h => by simp at h⟩
      | some e =>
        by_cases hdir : e.isDir ≠ 0
        · obtain ⟨k₃, h₄, hd₄, hx₄, hc₄⟩ := OpenFile.exec_close ⟨hdrAt d wd, 0, wd⟩ (hs.dir_ne_map hwd) k₂
          obtain ⟨k', h₅, hd₅, hx₅, hc₅⟩ := ih (hs.kind_of_isDir hwd he hdir) (halong.2 e he hdir) (hd₄.trans hd₂)
          refine ⟨k', ?_, hd₅, hx₂.trans (hx₄.trans hx₅), fun hr hsome => ?_⟩
          · rw [if_pos (by simpa using hdir), exec_bind, h₄]
            dsimp only
            rw [if_pos hdir]
            exact h₅
          · dsimp only at hsome
            rw [if_pos hdir] at hsome
            exact (balanced_of_open_close hr hc₂ hc₄).trans (hc₅ (hx₄.rests (hx₂.rests hr)) hsome)
        · refine ⟨k₂, ?_, hd₂, hx₂, fun _ h => ?_⟩
          · rw [if_neg (by simpa using hdir)]
            dsimp only
            rw [if_neg hdir]
            rfl
          · dsimp only at h
            rw [if_neg hdir] at h
            simp at h

end Grounded

namespace Sound

variable {fs : FileSystem} {d : Disk} {kind : ℤ → Option Kind} {s : ℤ}

lemma dir (hs : Sound fs d kind) (hk : kind s = some .dir) : DirAt d s :=
  ⟨hs.storage.file hk, hs.backed hk, hs.unused hk⟩

lemma along (hs : Sound fs d kind) (names : List CString) {wd : ℤ} (hwd : kind wd = some .dir) :
    Along (CutUnused d) d names wd :=
  hs.along_mono (fun hk _ => hs.unused hk) names hwd (hs.along_dirs names hwd)

lemma exec_loadDirectory (hs : Sound fs d kind) (hk : kind s = some .dir) {k : Kernel} (hd : k.disk = d)
    {dir : Directory} (hlen : dir.table.length = NumDirEntries) (hnew : ∀ e ∈ dir.table, e.inUse = 0) (pos : ℤ) :
    ∃ dir', exec (dir.fetchFrom ⟨hdrAt d s, pos, s⟩) k = .ok (dir', k) ∧ Loaded (tableAt d s) dir' :=
  hs.toGrounded.exec_loadDirectory hk (hs.unused hk) hd hlen hnew pos

lemma exec_walk (hs : Sound fs d kind) (names : List CString) {wd : ℤ} {k : Kernel} (hwd : kind wd = some .dir)
    (hd : k.disk = d) : ∃ k', exec (walk names wd) k = .ok ((resolve d names wd).getD (-1, []), k') ∧ k'.disk = d ∧
      Extends k.maps k'.maps ∧
      (AtRest k.maps → (resolve d names wd).isSome → Balanced k.maps k'.maps) :=
  hs.toGrounded.exec_walk names hwd (hs.along names hwd) hd

end Sound

end NachosFileSys
