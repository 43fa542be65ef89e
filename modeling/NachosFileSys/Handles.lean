import NachosFileSys.Names

namespace NachosFileSys

open Lib.Programs Lib.Bytes

/-- The values that the kernel's maps hold while no thread is inside `Read` or `Write`. -/
def KernelMap.Rests : KernelMap → ℤ → Prop
  | .semaphoreRead, v => v = 1
  | .semaphoreWrite, v => v = 1
  | .readerCount, v => v = 0
  | .openFileCount, v => -2147483648 ≤ v ∧ v < 2147483648

def AtRest (maps : KernelMap → ℤ → Option ℤ) : Prop := ∀ m s v, maps m s = some v → m.Rests v

lemma AtRest.semaphoreWrite {maps : KernelMap → ℤ → Option ℤ} (h : AtRest maps) {s : ℤ}
    (hs : maps .semaphoreWrite s ≠ none) : maps .semaphoreWrite s = some 1 := by
  obtain ⟨v, hv⟩ := Option.ne_none_iff_exists'.mp hs
  have h1 : v = 1 := h _ _ _ hv
  rw [hv, h1]

/-- `maps'` comes from `maps` by whole operations: it has all its keys, it is at rest if `maps` is, and
the file of the free map has neither been opened nor closed. -/
structure Extends (maps maps' : KernelMap → ℤ → Option ℤ) : Prop where
  keeps : ∀ {m s}, maps m s ≠ none → maps' m s ≠ none
  rests : AtRest maps → AtRest maps'
  mapCount : maps' .openFileCount FreeMapSector = maps .openFileCount FreeMapSector

namespace Extends

variable {maps maps₁ maps₂ : KernelMap → ℤ → Option ℤ}

lemma refl (maps : KernelMap → ℤ → Option ℤ) : Extends maps maps := ⟨id, id, rfl⟩

lemma trans (h : Extends maps maps₁) (h' : Extends maps₁ maps₂) : Extends maps maps₂ :=
  ⟨fun hk => h'.keeps (h.keeps hk), fun hr => h'.rests (h.rests hr), h'.mapCount.trans h.mapCount⟩

end Extends

namespace Kernel

lemma setMap_self (k : Kernel) (m : KernelMap) (s v : ℤ) : (k.setMap m s v).maps m s = some v := by
  simp [setMap]

lemma setMap_of_map_ne (k : Kernel) {m m' : KernelMap} (h : m' ≠ m) (s v : ℤ) :
    (k.setMap m s v).maps m' = k.maps m' := by
  simp [setMap, h]

lemma setMap_same (k : Kernel) (m : KernelMap) (s v : ℤ) :
    (k.setMap m s v).maps m = Function.update (k.maps m) s (some v) := by
  simp [setMap]

lemma setMap_ne_none (k : Kernel) (m m' : KernelMap) (s s' v : ℤ) (h : k.maps m' s' ≠ none) :
    (k.setMap m s v).maps m' s' ≠ none := by
  by_cases hm : m' = m
  · subst hm
    rw [setMap_same]
    by_cases hs : s' = s
    · rw [hs, Function.update_self]
      simp
    · rwa [Function.update_of_ne hs]
  · rwa [setMap_of_map_ne k hm]

lemma setMap_atRest (k : Kernel) (m : KernelMap) (s v : ℤ) (hv : m.Rests v) (hr : AtRest k.maps) :
    AtRest (k.setMap m s v).maps := by
  intro m' s' v' h
  by_cases hm : m' = m
  · subst hm
    rw [setMap_same] at h
    by_cases hs : s' = s
    · rw [hs, Function.update_self] at h
      cases h
      exact hv
    · rw [Function.update_of_ne hs] at h
      exact hr m' s' v' h
  · rw [setMap_of_map_ne k hm] at h
    exact hr m' s' v' h

lemma setMap_extends (k : Kernel) (m : KernelMap) (s v : ℤ) (hv : m.Rests v)
    (hs : m = .openFileCount → s ≠ FreeMapSector) : Extends k.maps (k.setMap m s v).maps := by
  refine ⟨fun h => k.setMap_ne_none m _ s _ v h, k.setMap_atRest m s v hv, ?_⟩
  by_cases hm : KernelMap.openFileCount = m
  · subst hm
    rw [setMap_same, Function.update_of_ne (Ne.symm (hs rfl))]
  · rw [setMap_of_map_ne k hm]

end Kernel

def counted (first : ℤ) : Option ℤ → ℤ
  | none => first
  | some c => int32 (c + 1)

lemma counted_rests (first : ℤ) (hf : KernelMap.openFileCount.Rests first) (c : Option ℤ) :
    KernelMap.openFileCount.Rests (counted first c) := by
  cases c with
  | none => exact hf
  | some c => exact int32_bounds _

lemma exec_countOpen (s first : ℤ) (k : Kernel) :
    exec (OpenFile.countOpen s first) k =
      .ok ((), k.setMap .openFileCount s (counted first (k.maps .openFileCount s))) := by
  rw [OpenFile.countOpen, exec_bind, exec_find]
  dsimp only
  cases k.maps .openFileCount s <;> exact exec_assign _ _ _ _

lemma exec_register (m : KernelMap) (s v : ℤ) (hv : m.Rests v) (hm : m ≠ .openFileCount) (k : Kernel) :
    ∃ k', exec (register m s v) k = .ok ((), k') ∧ k'.disk = k.disk ∧ Extends k.maps k'.maps ∧
      k'.maps m s ≠ none ∧ k'.maps .openFileCount = k.maps .openFileCount := by
  rw [register, exec_bind, exec_find]
  dsimp only
  cases h : k.maps m s with
  | none =>
    exact ⟨k.setMap m s v, exec_assign _ _ _ _, rfl, k.setMap_extends m s v hv (fun h => absurd h hm),
      by rw [Kernel.setMap_self]; simp,
      k.setMap_of_map_ne hm.symm s v⟩
  | some v' => exact ⟨k, rfl, rfl, .refl _, by rw [h]; simp, rfl⟩

namespace OpenFile

lemma exec_new {s : ℤ} (hs : InDisk s) (k : Kernel) :
    ∃ k', exec (new s) k = .ok (⟨hdrAt k.disk s, 0, s⟩, k') ∧ k'.disk = k.disk ∧
      (s ≠ FreeMapSector → Extends k.maps k'.maps) ∧ (AtRest k.maps → AtRest k'.maps) ∧
      (∀ m, k'.maps m s ≠ none) ∧ k'.maps .openFileCount =
        Function.update (k.maps .openFileCount) s (some (counted 0 (k.maps .openFileCount s))) := by
  let k₁ := k.setMap .openFileCount s (counted 0 (k.maps .openFileCount s))
  have hr₁ : KernelMap.openFileCount.Rests (counted 0 (k.maps .openFileCount s)) :=
    counted_rests 0 ⟨by decide, by decide⟩ _
  obtain ⟨k₂, h₂, hd₂, hx₂, hn₂, hc₂⟩ := exec_register .readerCount s 0 rfl (by decide) k₁
  obtain ⟨k₃, h₃, hd₃, hx₃, hn₃, hc₃⟩ := exec_register .semaphoreWrite s 1 rfl (by decide) k₂
  obtain ⟨k₄, h₄, hd₄, hx₄, hn₄, hc₄⟩ := exec_register .semaphoreRead s 1 rfl (by decide) k₃
  have hx : Extends k₁.maps k₄.maps := hx₂.trans (hx₃.trans hx₄)
  refine ⟨k₄, ?_, hd₄.trans (hd₃.trans hd₂), fun h0 => (k.setMap_extends _ _ _ hr₁ fun _ => h0).trans hx,
    fun hr => hx.rests (k.setMap_atRest _ _ _ hr₁ hr), ?_, ?_⟩
  · rw [new]
    simp only [FileHeader.fetchFrom, exec_bind, exec_read_inDisk hs, exec_pure, exec_countOpen, h₂, h₃, h₄, k₁]
    rfl
  · intro m
    have hself : k₁.maps .openFileCount s ≠ none := by
      rw [Kernel.setMap_self]
      simp
    cases m with
    | semaphoreRead => exact hn₄
    | semaphoreWrite => exact hx₄.keeps hn₃
    | readerCount => exact hx₄.keeps (hx₃.keeps hn₂)
    | openFileCount => exact hx₄.keeps (hx₃.keeps (hx₂.keeps hself))
  · rw [hc₄, hc₃, hc₂, Kernel.setMap_same]

lemma exec_close (f : OpenFile) (hf : f.hdrSector ≠ FreeMapSector) (k : Kernel) :
    ∃ k', exec f.close k = .ok ((), k') ∧ k'.disk = k.disk ∧ Extends k.maps k'.maps ∧
      k'.maps .openFileCount = Function.update (k.maps .openFileCount) f.hdrSector
        (some (int32 ((k.maps .openFileCount f.hdrSector).getD 0 - 1))) := by
  rw [close, lookup, exec_bind, exec_bind, exec_find]
  dsimp only
  cases h : k.maps .openFileCount f.hdrSector with
  | none =>
    refine ⟨(k.setMap .openFileCount f.hdrSector 0).setMap .openFileCount f.hdrSector (int32 (0 - 1)), ?_, rfl,
      (k.setMap_extends .openFileCount f.hdrSector 0 ⟨by decide, by decide⟩ fun _ => hf).trans
        (Kernel.setMap_extends _ _ _ _ (int32_bounds _) fun _ => hf), ?_⟩
    · dsimp only
      rw [exec_bind, exec_assign]
      dsimp only
      rw [exec_pure]
      exact exec_assign _ _ _ _
    · rw [Kernel.setMap_same, Kernel.setMap_same, Function.update_idem]
      rfl
  | some c =>
    refine ⟨k.setMap .openFileCount f.hdrSector (int32 (c - 1)), exec_assign _ _ _ _, rfl,
      k.setMap_extends _ _ _ (int32_bounds _) fun _ => hf, ?_⟩
    rw [Kernel.setMap_same]
    rfl

end OpenFile

def HeldOpen (maps : KernelMap → ℤ → Option ℤ) (s : ℤ) : Bool := (maps .openFileCount s).any (0 < ·)

/-- `maps'` comes from `maps` by opens that are all followed by a close: a count is the same, or it is new
and at `-1`, since the first open starts it at `0`. -/
def Balanced (maps maps' : KernelMap → ℤ → Option ℤ) : Prop :=
  ∀ x, maps' .openFileCount x = maps .openFileCount x ∨
    maps .openFileCount x = none ∧ maps' .openFileCount x = some (-1)

namespace Balanced

variable {maps maps₁ maps₂ : KernelMap → ℤ → Option ℤ}

lemma refl (maps : KernelMap → ℤ → Option ℤ) : Balanced maps maps := fun _ => .inl rfl

lemma trans (h : Balanced maps maps₁) (h' : Balanced maps₁ maps₂) : Balanced maps maps₂ := by
  intro x
  rcases h x with he | ⟨hn, he⟩
  · rcases h' x with he' | ⟨hn', he'⟩
    · exact .inl (he'.trans he)
    · exact .inr ⟨by rw [← he, hn'], he'⟩
  · rcases h' x with he' | ⟨hn', -⟩
    · exact .inr ⟨hn, he'.trans he⟩
    · rw [he] at hn'
      cases hn'

lemma heldOpen (h : Balanced maps maps₁) (x : ℤ) : HeldOpen maps₁ x = HeldOpen maps x := by
  rw [HeldOpen, HeldOpen]
  rcases h x with he | ⟨hn, he⟩
  · rw [he]
  · rw [hn, he]
    rfl

lemma counted_eq (h : Balanced maps maps₁) (x : ℤ) :
    counted 0 (maps₁ .openFileCount x) = counted 0 (maps .openFileCount x) := by
  rcases h x with he | ⟨hn, he⟩
  · rw [he]
  · rw [hn, he]
    rfl

end Balanced

lemma balanced_of_open_close {maps maps₁ maps₂ : KernelMap → ℤ → Option ℤ} {s : ℤ} (hr : AtRest maps)
    (h₁ : maps₁ .openFileCount =
      Function.update (maps .openFileCount) s (some (counted 0 (maps .openFileCount s))))
    (h₂ : maps₂ .openFileCount =
      Function.update (maps₁ .openFileCount) s (some (int32 ((maps₁ .openFileCount s).getD 0 - 1)))) :
    Balanced maps maps₂ := by
  intro x
  rw [h₂, h₁, Function.update_idem, Function.update_self, Option.getD_some]
  by_cases hx : x = s
  · subst hx
    rw [Function.update_self]
    cases hc : maps .openFileCount x with
    | none => exact .inr ⟨rfl, rfl⟩
    | some c =>
      obtain ⟨hl, hu⟩ := hr _ _ _ hc
      have hback : int32 (counted 0 (some c) - 1) = c := by
        rw [counted]
        by_cases hmax : c = 2147483647
        · rw [hmax]
          decide
        · rw [int32_of_bounds (x := c + 1) (by omega) (by omega), int32_of_bounds (by omega) (by omega)]
          omega
      exact .inl (by rw [hback])
  · exact .inl (by rw [Function.update_of_ne hx])

structure Loaded (table : List DirectoryEntry) (dir : Directory) : Prop where
  length : dir.table.length = NumDirEntries
  eq : ∃ junk, dir.table = table ++ junk ∧ ∀ e ∈ junk, e.inUse = 0

namespace Directory

lemma exec_new (k : Kernel) :
    ∃ dir k', exec (new NumDirEntries) k = .ok (dir, k') ∧ k'.disk = k.disk ∧ k'.maps = k.maps ∧
      dir.table.length = NumDirEntries ∧ ∀ e ∈ dir.table, e.inUse = 0 := by
  have he : exec (new NumDirEntries) k = .ok (⟨(ofBytes NumDirEntries
      ((List.range (EntrySize * NumDirEntries)).map k.heap)).table.map fun e => { e with inUse := 0 }⟩,
        { k with heap := fun i => k.heap (i + EntrySize * NumDirEntries) }) := by
    rw [new, exec_bind, exec_malloc]
    rfl
  refine ⟨_, _, he, rfl, rfl, ?_, ?_⟩
  · rw [List.length_map, ofBytes, List.length_map, List.length_range]
  · intro e he
    obtain ⟨e', -, rfl⟩ := List.mem_map.mp he
    rfl

lemma exec_fetch {k : Kernel} {s : ℤ} {f : OpenFile} (hd : DirAt k.disk s) (hf : f.Current k.disk)
    (hfs : f.hdrSector = s) {dir : Directory} (hlen : dir.table.length = NumDirEntries)
    (hnew : ∀ e ∈ dir.table, e.inUse = 0) :
    ∃ dir', exec (dir.fetchFrom f) k = .ok (dir', k) ∧ Loaded (tableAt k.disk s) dir' := by
  obtain ⟨junk, he, hlength, hjunk⟩ := exec_fetchFrom_directory hd hf hfs dir hlen hnew
  exact ⟨_, he, hlength, junk, rfl, hjunk⟩

end Directory

namespace Loaded

variable {table : List DirectoryEntry} {dir : Directory}

lemma entryNamed_eq (hl : Loaded table dir) (name : CString) :
    dir.entryNamed name = table.find? (Directory.named name) := by
  obtain ⟨junk, ht, hj⟩ := hl.eq
  rw [Directory.entryNamed, ht, List.find?_append]
  have hnone : junk.find? (Directory.named name) = none := List.find?_eq_none.mpr fun e he hn =>
    (named_iff.mp hn).1 (hj e he)
  rw [hnone, Option.or_none]

lemma findIndex_eq (hl : Loaded table dir) (name : CString) :
    dir.findIndex name = -1 ↔ table.find? (Directory.named name) = none := by
  rw [← hl.entryNamed_eq, Directory.findIndex, Directory.entryNamed]
  cases h : dir.table.findIdx? (Directory.named name) with
  | none =>
    simp only [true_iff]
    exact List.find?_eq_none.mpr fun e he => by
      rw [List.findIdx?_eq_none_iff.mp h e he]
      simp
  | some i =>
    have hne : ((i : ℕ) : ℤ) ≠ -1 := by omega
    simp only [hne, false_iff]
    obtain ⟨hi, hp, -⟩ := List.findIdx?_eq_some_iff_getElem.mp h
    exact fun hf => List.find?_eq_none.mp hf _ (List.getElem_mem hi) hp

end Loaded

end NachosFileSys
