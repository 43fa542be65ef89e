import NachosFileSys.Deallocation
import NachosFileSys.Contents

namespace NachosFileSys

open Lib.Programs Lib.Bytes

def hdrAt (d : Disk) (s : ℤ) : FileHeader := FileHeader.ofSector (d s)

namespace FileHeader

def blocks (h : FileHeader) : List ℤ := h.dataSectors.filter (· ≠ EmptyBlock)

def data (h : FileHeader) (d : Disk) : List ℤ :=
  h.blocks.flatMap fun b => (IndirectBlock.ofSector (d b)).dataSectors.filter (· ≠ EmptyBlock)

lemma filter_replicate_empty (n : ℕ) : (List.replicate n EmptyBlock).filter (· ≠ EmptyBlock) = [] := by
  rw [List.filter_eq_nil_iff]
  intro s hs
  simpa using List.eq_of_mem_replicate hs

lemma filter_inDisk {l : List ℤ} (h : ∀ s ∈ l, InDisk s) : l.filter (· ≠ EmptyBlock) = l := by
  rw [List.filter_eq_self]
  intro s hs
  simpa using (h s hs).ne_empty

lemma On.blocks_eq {h : FileHeader} {d : Disk} {bs secs : List ℤ} (hon : h.On d bs secs) : h.blocks = bs := by
  rw [blocks, hon.stored.slots_eq, List.filter_append, filter_replicate_empty, List.append_nil]
  exact filter_inDisk hon.stored.blocks_inDisk

lemma On.data_eq {h : FileHeader} {d : Disk} {bs secs : List ℤ} (hon : h.On d bs secs) : h.data d = secs := by
  have hs : ∀ {slots bs secs : List ℤ}, Stored d slots bs secs →
      bs.flatMap (fun b => (IndirectBlock.ofSector (d b)).dataSectors.filter (· ≠ EmptyBlock)) = secs := by
    intro slots bs secs h
    induction h with
    | nil n => rfl
    | cons _ hpart _ _ _ hblock _ ih =>
      rw [List.flatMap_cons, ih, hblock, List.filter_append, filter_replicate_empty, List.append_nil,
        filter_inDisk hpart]
  rw [data, hon.blocks_eq, hs hon.stored]

end FileHeader

def blocksAt (d : Disk) (s : ℤ) : List ℤ := (hdrAt d s).blocks

def dataAt (d : Disk) (s : ℤ) : List ℤ := (hdrAt d s).data d

def owned (d : Disk) (s : ℤ) : List ℤ := s :: (blocksAt d s ++ dataAt d s)

structure FileAt (d : Disk) (s : ℤ) : Prop where
  inDisk : InDisk s
  on : (hdrAt d s).On d (blocksAt d s) (dataAt d s)

section FileAt

variable {d d' : Disk} {s : ℤ}

lemma FileAt.of_on (hs : InDisk s) {bs secs : List ℤ} (hon : (hdrAt d s).On d bs secs) :
    FileAt d s ∧ blocksAt d s = bs ∧ dataAt d s = secs := by
  have hb : blocksAt d s = bs := hon.blocks_eq
  have hd : dataAt d s = secs := hon.data_eq
  refine ⟨⟨hs, ?_⟩, hb, hd⟩
  rw [hb, hd]
  exact hon

lemma hdrAt_congr (h : d' s = d s) : hdrAt d' s = hdrAt d s := by
  rw [hdrAt, hdrAt, h]

lemma blocksAt_congr (h : d' s = d s) : blocksAt d' s = blocksAt d s := by
  rw [blocksAt, blocksAt, hdrAt_congr h]

lemma dataAt_congr (h : d' s = d s) (hb : ∀ b ∈ blocksAt d s, d' b = d b) : dataAt d' s = dataAt d s := by
  rw [dataAt, dataAt, hdrAt_congr h, FileHeader.data, FileHeader.data]
  refine List.flatMap_congr fun b hb' => ?_
  rw [hb b hb']

lemma FileAt.congr (hf : FileAt d s) (h : d' s = d s) (hb : ∀ b ∈ blocksAt d s, d' b = d b) :
    FileAt d' s ∧ owned d' s = owned d s := by
  have hon := hf.on.congr hb
  rw [← hdrAt_congr h] at hon
  obtain ⟨hf', hbe, hde⟩ := FileAt.of_on hf.inDisk hon
  exact ⟨hf', by rw [owned, owned, hbe, hde]⟩

lemma mem_owned_self (d : Disk) (s : ℤ) : s ∈ owned d s := List.mem_cons_self

lemma mem_owned_block {b : ℤ} (hb : b ∈ blocksAt d s) : b ∈ owned d s :=
  List.mem_cons_of_mem _ (List.mem_append_left _ hb)

lemma mem_owned_data {x : ℤ} (hx : x ∈ dataAt d s) : x ∈ owned d s :=
  List.mem_cons_of_mem _ (List.mem_append_right _ hx)

lemma owned_congr (hf : FileAt d s) (h : ∀ x ∈ owned d s, d' x = d x) : FileAt d' s ∧ owned d' s = owned d s :=
  hf.congr (h s (mem_owned_self d s)) fun _ hb => h _ (mem_owned_block hb)

end FileAt

inductive Kind
  | map | dir | plain
  deriving DecidableEq

/-- The files of a disk, by header sector, own sectors of the disk that are apart from each other and
marked in the free map `m`. -/
structure Storage (d : Disk) (m : FreeMap) (kind : ℤ → Option Kind) : Prop where
  file : ∀ {s c}, kind s = some c → FileAt d s
  nodup : ∀ {s c}, kind s = some c → (owned d s).Nodup
  apart : ∀ {s s' c c'}, kind s = some c → kind s' = some c' → s ≠ s' → ∀ x ∈ owned d s, x ∉ owned d s'
  marked : ∀ {s c}, kind s = some c → ∀ x ∈ owned d s, Marked m x
  map : kind FreeMapSector = some .map
  mapLength : (hdrAt d FreeMapSector).numBytes = FreeMapFileSize
  mapBacked : 1 ≤ (dataAt d FreeMapSector).length

namespace Storage

variable {d d' : Disk} {m m' : FreeMap} {kind : ℤ → Option Kind} {s : ℤ} {c : Kind}

lemma data_nodup (hs : Storage d m kind) (hk : kind s = some c) : (blocksAt d s ++ dataAt d s).Nodup :=
  (List.nodup_cons.mp (hs.nodup hk)).2

lemma block_not_data (hs : Storage d m kind) (hk : kind s = some c) {b : ℤ} (hb : b ∈ blocksAt d s) :
    b ∉ dataAt d s :=
  fun hd => (List.nodup_append.mp (hs.data_nodup hk)).2.2 b hb b hd rfl

lemma header_not_data (hs : Storage d m kind) (hk : kind s = some c) : s ∉ dataAt d s := fun hd =>
  (List.nodup_cons.mp (hs.nodup hk)).1 (List.mem_append_right _ hd)

lemma not_owned_of_free (hs : Storage d m kind) (hk : kind s = some c) {x : ℤ} (hx : x ∈ sectors m.free) :
    x ∉ owned d s :=
  fun ho => (marked_iff.mp (hs.marked hk x ho)).2 hx

lemma structure_not_data (hs : Storage d m kind) (hk : kind s = some c)
    {x : ℤ} {c' : Kind} (hkx : kind x = some c') :
    x ∉ dataAt d s ∧ ∀ b ∈ blocksAt d x, b ∉ dataAt d s := by
  by_cases he : x = s
  · subst he
    exact ⟨hs.header_not_data hk, fun b hb => hs.block_not_data hk hb⟩
  · exact ⟨fun hx => hs.apart hkx hk he x (mem_owned_self _ _) (mem_owned_data hx),
      fun b hb hx => hs.apart hkx hk he b (mem_owned_block hb) (mem_owned_data hx)⟩

lemma structure_of_write (hs : Storage d m kind) (hk : kind s = some c) (h : ∀ x, x ∉ dataAt d s → d' x = d x)
    {s' : ℤ} {c' : Kind} (hk' : kind s' = some c') :
    d' s' = d s' ∧ ∀ b ∈ blocksAt d s', d' b = d b :=
  have hout := hs.structure_not_data hk hk'
  ⟨h _ hout.1, fun b hb => h b (hout.2 b hb)⟩

lemma write (hs : Storage d m kind) (hk : kind s = some c) (h : ∀ x, x ∉ dataAt d s → d' x = d x) :
    Storage d' m kind := by
  have hc : ∀ {s' c'}, kind s' = some c' → FileAt d' s' ∧ owned d' s' = owned d s' := fun hk' =>
    (hs.file hk').congr (hs.structure_of_write hk h hk').1 (hs.structure_of_write hk h hk').2
  refine ⟨fun hk' => (hc hk').1, fun hk' => ?_, fun hk₁ hk₂ hne => ?_, fun hk' => ?_, hs.map, ?_, ?_⟩
  · rw [(hc hk').2]
    exact hs.nodup hk'
  · rw [(hc hk₁).2, (hc hk₂).2]
    exact hs.apart hk₁ hk₂ hne
  · rw [(hc hk').2]
    exact hs.marked hk'
  · rw [hdrAt_congr (hs.structure_of_write hk h hs.map).1]
    exact hs.mapLength
  · rw [dataAt_congr (hs.structure_of_write hk h hs.map).1 (hs.structure_of_write hk h hs.map).2]
    exact hs.mapBacked

lemma put (hs : Storage d m kind) (new : List ℤ) (hm : ∀ x, Marked m x → Marked m' x)
    (hnew : ∀ x ∈ new, Marked m' x ∧ x ∈ sectors m.free) (hmap : s ≠ FreeMapSector)
    (hframe : ∀ {s' c'}, kind s' = some c' → s' ≠ s → ∀ x ∈ owned d s', d' x = d x)
    (hfile : FileAt d' s) (hnd : (owned d' s).Nodup)
    (hown : ∀ x ∈ owned d' s, x ∈ new ∨ (∃ c, kind s = some c) ∧ x ∈ owned d s) (c : Kind) :
    Storage d' m' (Function.update kind s (some c)) := by
  have hother : ∀ {s' c'}, s' ≠ s → Function.update kind s (some c) s' = some c' → kind s' = some c' :=
    fun hne hk => by rwa [Function.update_of_ne hne] at hk
  have hc : ∀ {s' c'}, s' ≠ s → kind s' = some c' → FileAt d' s' ∧ owned d' s' = owned d s' := fun hne hk =>
    owned_congr (hs.file hk) (hframe hk hne)
  -- a sector of `s` is in no other file
  have happ : ∀ {s' c'}, s' ≠ s → kind s' = some c' → ∀ x ∈ owned d' s, x ∉ owned d s' := by
    intro s' c' hne hk x hx hx'
    rcases hown x hx with hx | ⟨⟨c'', hks⟩, hx⟩
    · exact hs.not_owned_of_free hk (hnew x hx).2 hx'
    · exact hs.apart hks hk (Ne.symm hne) x hx hx'
  refine ⟨fun {s' c'} hk => ?_, fun {s' c'} hk => ?_, fun {s₁ s₂ c₁ c₂} hk₁ hk₂ hne => ?_, fun {s' c'} hk => ?_,
    ?_, ?_, ?_⟩
  · by_cases he : s' = s
    · subst he
      exact hfile
    · exact (hc he (hother he hk)).1
  · by_cases he : s' = s
    · subst he
      exact hnd
    · rw [(hc he (hother he hk)).2]
      exact hs.nodup (hother he hk)
  · by_cases he₁ : s₁ = s
    · subst he₁
      rw [(hc (Ne.symm hne) (hother (Ne.symm hne) hk₂)).2]
      exact happ (Ne.symm hne) (hother (Ne.symm hne) hk₂)
    · rw [(hc he₁ (hother he₁ hk₁)).2]
      by_cases he₂ : s₂ = s
      · subst he₂
        exact fun x hx hx' => happ hne (hother hne hk₁) x hx' hx
      · rw [(hc he₂ (hother he₂ hk₂)).2]
        exact hs.apart (hother he₁ hk₁) (hother he₂ hk₂) hne
  · by_cases he : s' = s
    · subst he
      intro x hx
      rcases hown x hx with hx | ⟨⟨c'', hks⟩, hx⟩
      · exact (hnew x hx).1
      · exact hm x (hs.marked hks x hx)
    · rw [(hc he (hother he hk)).2]
      exact fun x hx => hm x (hs.marked (hother he hk) x hx)
  · rw [Function.update_of_ne (Ne.symm hmap)]
    exact hs.map
  · rw [hdrAt_congr (hframe hs.map (Ne.symm hmap) _ (mem_owned_self _ _))]
    exact hs.mapLength
  · rw [dataAt_congr (hframe hs.map (Ne.symm hmap) _ (mem_owned_self _ _)) fun b hb =>
      hframe hs.map (Ne.symm hmap) b (mem_owned_block hb)]
    exact hs.mapBacked

lemma drop (hs : Storage d m kind) (hk : kind s = some c) (hmap : s ≠ FreeMapSector) (freed : List ℤ)
    (hf : freed ⊆ owned d s) (hc : Cleared m m' freed) : Storage d m' (Function.update kind s none) := by
  have hother : ∀ {s' c'}, Function.update kind s none s' = some c' → s' ≠ s ∧ kind s' = some c' := by
    intro s' c' h
    by_cases he : s' = s
    · subst he
      rw [Function.update_self] at h
      cases h
    · rw [Function.update_of_ne he] at h
      exact ⟨he, h⟩
  refine ⟨fun h => hs.file (hother h).2, fun h => hs.nodup (hother h).2,
    fun h h' => hs.apart (hother h).2 (hother h').2, fun h x hx => ?_, ?_, hs.mapLength, hs.mapBacked⟩
  · exact hc.marked (hs.marked (hother h).2 x hx) fun hxf =>
      hs.apart (hother h).2 hk (hother h).1 x hx (hf hxf)
  · rw [Function.update_of_ne (Ne.symm hmap)]
    exact hs.map

end Storage

end NachosFileSys
