import NachosFileSys.Formatting

namespace NachosFileSys

open Lib.Programs Lib.Bytes

/-- The header in the handle `f` has the first blocks `bs` and the first data sectors `secs` of its
file: it is the header on disk, or one that was there before the file was extended. -/
structure OpenFile.Follows (f : OpenFile) (d : Disk) (bs secs : List ℤ) : Prop where
  on : f.hdr.On d bs secs
  blocks : bs <+: blocksAt d f.hdrSector
  data : secs <+: dataAt d f.hdrSector
  permisstion : int32 f.hdr.permisstion = f.hdr.permisstion

lemma OpenFile.Current.follows {f : OpenFile} {d : Disk} (hf : f.Current d) (hfile : FileAt d f.hdrSector) :
    f.Follows d (blocksAt d f.hdrSector) (dataAt d f.hdrSector) := by
  rw [OpenFile.Current] at hf
  refine ⟨by rw [hf]; exact hfile.on, List.prefix_rfl, List.prefix_rfl, ?_⟩
  rw [hf]
  exact int32_of_bounds (toInt_bounds _).1 (toInt_bounds _).2

/-- The request for `n` more bytes in a file of `count` data sectors fits into the header and the free
sectors. -/
def Fits (count : ℕ) (n : ℤ) (free : ℕ) : Prop :=
  count + sectorsNeeded n ≤ 928 ∧ sectorsNeeded n + newBlocks count (sectorsNeeded n) ≤ free

instance (count : ℕ) (n : ℤ) (free : ℕ) : Decidable (Fits count n free) :=
  inferInstanceAs (Decidable (_ ∧ _))

/-- The disk `d'` is `d` after the file at sector `s` has got the header `hdr`, with the blocks `bs` and
the data sectors `secs`, and the free map has been written back. -/
structure Extended (d : Disk) (kind : ℤ → Option Kind) (s : ℤ) (hdr : FileHeader) (bs secs : List ℤ) (d' : Disk) :
    Prop where
  storage : Storage d' (freeMapAt d') kind
  hdr : hdrAt d' s = hdr
  blocks : blocksAt d' s = bs
  data : dataAt d' s = secs
  old : ∀ y ∈ dataAt d s, d' y = d y
  others : ∀ {x c}, kind x = some c → x ≠ s → x ≠ FreeMapSector → ∀ y ∈ owned d x, d' y = d y
  map : d' FreeMapSector = d FreeMapSector

lemma Storage.extend {d d₁ : Disk} {m m' : FreeMap} {kind : ℤ → Option Kind} (hs : Storage d m kind) {f : OpenFile}
    {c : Kind} (hk : kind f.hdrSector = some c) (hmap : f.hdrSector ≠ FreeMapSector) {bs secs nbs nsecs : List ℤ}
    (hf : f.Follows d bs secs) (ht : Taken m m' (nbs ++ nsecs)) {hdr : FileHeader}
    (hon : hdr.On d₁ (bs ++ nbs) (secs ++ nsecs)) (hfits : hdr.Fits)
    (hd₁ : ∀ x, x ∉ bs → x ∉ nbs → d₁ x = d x) :
    ∀ d', d' = Function.update d₁ f.hdrSector hdr.toSector →
      Storage d' m' kind ∧ hdrAt d' f.hdrSector = hdr ∧ blocksAt d' f.hdrSector = bs ++ nbs ∧
      dataAt d' f.hdrSector = secs ++ nsecs ∧ (∀ y ∈ dataAt d f.hdrSector, d' y = d y) ∧
      ∀ {x c}, kind x = some c → x ≠ f.hdrSector → ∀ y ∈ owned d x, d' y = d y := by
  rintro d' rfl
  have hb : ∀ b ∈ bs, b ∈ blocksAt d f.hdrSector := fun b hb => hf.blocks.subset hb
  have hfree : ∀ x ∈ nbs ++ nsecs, x ∈ sectors m.free := fun x hx => ht.mem_free hx
  have hsub : (f.hdrSector :: (bs ++ secs)).Sublist (owned d f.hdrSector) :=
    (hf.blocks.sublist.append hf.data.sublist).cons_cons _
  have hnd := (hs.nodup hk).sublist hsub
  have hsb : f.hdrSector ∉ bs ++ nbs := by
    intro h
    rcases List.mem_append.mp h with h | h
    · exact (List.nodup_cons.mp hnd).1 (List.mem_append_left _ h)
    · exact hs.not_owned_of_free hk (hfree _ (List.mem_append_left _ h)) (mem_owned_self _ _)
  set d' := Function.update d₁ f.hdrSector hdr.toSector with hd'
  have hh : hdrAt d' f.hdrSector = hdr :=
    by rw [hdrAt, hd', Function.update_self, FileHeader.ofSector_toSector _ hfits]
  obtain ⟨hfile, hbe, hde⟩ := FileAt.of_on (d := d') (hs.file hk).inDisk (by
    rw [hh]
    exact hon.congr fun b hb => Function.update_of_ne (by rintro rfl; exact hsb hb) _ _)
  have hown : owned d' f.hdrSector = f.hdrSector :: ((bs ++ nbs) ++ (secs ++ nsecs)) := by rw [owned, hbe, hde]
  have hperm : (f.hdrSector :: ((bs ++ nbs) ++ (secs ++ nsecs))).Perm
      (f.hdrSector :: (bs ++ secs) ++ (nbs ++ nsecs)) := by
    rw [List.cons_append]
    refine List.Perm.cons _ ?_
    simp only [List.append_assoc]
    refine List.Perm.append_left _ ?_
    rw [← List.append_assoc, ← List.append_assoc]
    exact List.perm_append_comm.append_right _
  have hframe : ∀ {x c}, kind x = some c → x ≠ f.hdrSector → ∀ y ∈ owned d x, d' y = d y := by
    intro x c' hkx hne y hy
    rw [hd', Function.update_of_ne, hd₁ y]
    · exact fun hyb => hs.apart hkx hk hne y hy (mem_owned_block (hb y hyb))
    · exact fun hyb => hs.not_owned_of_free hkx (hfree y (List.mem_append_left _ hyb)) hy
    · rintro rfl
      exact hs.apart hkx hk hne _ hy (mem_owned_self _ _)
  refine ⟨?_, hh, hbe, hde, fun y hy => ?_, hframe⟩
  · have hput := hs.put (s := f.hdrSector) (nbs ++ nsecs) (fun x hx => ht.marked_mono hx)
      (fun x hx => ⟨ht.marked hx, hfree x hx⟩) hmap (fun hkx hne => hframe hkx hne) hfile ?_ ?_ c
    · rwa [← hk, Function.update_eq_self] at hput
    · rw [hown, hperm.nodup_iff, List.nodup_append]
      refine ⟨hnd, ht.nodup, ?_⟩
      rintro x hx _ hx' rfl
      exact hs.not_owned_of_free hk (hfree x hx') (hsub.subset hx)
    · intro x hx
      rw [hown, hperm.mem_iff] at hx
      rcases List.mem_append.mp hx with hx | hx
      · exact Or.inr ⟨⟨c, hk⟩, hsub.subset hx⟩
      · exact Or.inl hx
  · rw [hd', Function.update_of_ne, hd₁ y]
    · exact fun hyb => hs.block_not_data hk (hb y hyb) hy
    · exact fun hyb => hs.not_owned_of_free hk (hfree y (List.mem_append_left _ hyb)) (mem_owned_data hy)
    · rintro rfl
      exact hs.header_not_data hk hy

namespace OpenFile

variable {kind : ℤ → Option Kind} {k k' : Kernel} {fm f f' : OpenFile} {bs secs : List ℤ} {n : ℤ}

def extendFrom (fm f : OpenFile) (n : ℤ) (freeMap : FreeMap) : Nachos OpenFile := do
  let (success, hdr, freeMap) ← f.hdr.allocate freeMap n
  assert success
  hdr.writeBack f.hdrSector
  freeMap.writeBack fm
  pure { f with hdr := hdr }

lemma extend_eq (fm f : OpenFile) (n : ℤ) :
    extend fm f n = (lift (Bitmap.new 1024) >>= fun m => m.fetchFrom fm) >>= extendFrom fm f n := by
  rw [bind_assoc]
  rfl

lemma exec_fetch (hs : Storage k.disk (freeMapAt k.disk) kind)
    (hfm : fm.Current k.disk) (h0 : fm.hdrSector = FreeMapSector) :
    exec (lift (Bitmap.new 1024) >>= fun m => m.fetchFrom fm) k = .ok (freeMapAt k.disk, k) := by
  rw [Bitmap.new_eq (by decide), exec_bind_of_ok (exec_lift_ok _ _)]
  exact exec_fetchFrom_map hs hfm h0 _

lemma exec_extend_start (hs : Storage k.disk (freeMapAt k.disk) kind) (hfm : fm.Current k.disk)
    (h0 : fm.hdrSector = FreeMapSector) (f : OpenFile) (n : ℤ) :
    exec (extend fm f n) k = exec (extendFrom fm f n (freeMapAt k.disk)) k := by
  rw [extend_eq, exec_bind_of_ok (exec_fetch hs hfm h0)]

lemma Follows.blocks_nodup {d : Disk} {m : FreeMap} {c : Kind} (hf : f.Follows d bs secs) (hs : Storage d m kind)
    (hk : kind f.hdrSector = some c) : bs.Nodup :=
  (List.nodup_append.mp (hs.data_nodup hk)).1.sublist hf.blocks.sublist

lemma Follows.blocks_not_free {d : Disk} {m : FreeMap} {c : Kind}
    (hf : f.Follows d bs secs) (hs : Storage d m kind)
    (hk : kind f.hdrSector = some c) : ∀ b ∈ bs, b ∉ sectors m.free := fun _ hb hfree =>
  hs.not_owned_of_free hk hfree (mem_owned_block (hf.blocks.subset hb))

lemma exec_extendFrom {m : FreeMap} (hs : Storage k.disk m kind) (hfm : fm.Current k.disk)
    (h0 : fm.hdrSector = FreeMapSector) (hk : kind f.hdrSector = some .plain) (hf : f.Follows k.disk bs secs)
    (hfit : Fits secs.length n m.free.length) :
    ∃ ds nbs nsecs k', exec (extendFrom fm f n m) k = .ok ({ f with hdr := f.hdr.grown n ds }, k') ∧
    k'.maps = k.maps ∧
      nsecs.length = sectorsNeeded n ∧ Taken m (freeMapAt k'.disk) (nbs ++ nsecs) ∧
      Extended k.disk kind f.hdrSector (f.hdr.grown n ds) (bs ++ nbs) (secs ++ nsecs) k'.disk ∧
      ∀ x, x ∉ bs → x ∉ nbs → x ≠ f.hdrSector → x ∉ dataAt k.disk FreeMapSector → k'.disk x = k.disk x := by
  have hne : f.hdrSector ≠ FreeMapSector := by
    intro h
    rw [h, hs.map] at hk
    cases hk
  obtain ⟨ds, nbs, nsecs, m', d₁, ha, hon, hlen, ht, hd₁⟩ := FileHeader.allocate_ok hf.on
    (hf.blocks_nodup hs hk) (hf.blocks_not_free hs hk) n hfit.1 hfit.2
  have hfits := FileHeader.grown_fits hf.permisstion hon
  obtain ⟨hst, hh, hbe, hde, hold, hothers⟩ := hs.extend hk hne hf ht hon hfits hd₁ _ rfl
  set d₂ := Function.update d₁ f.hdrSector (f.hdr.grown n ds).toSector with hd₂
  have hmapsame : ∀ y ∈ owned k.disk FreeMapSector, d₂ y = k.disk y := hothers hs.map (Ne.symm hne)
  have hmapdata : dataAt d₂ FreeMapSector = dataAt k.disk FreeMapSector :=
    dataAt_congr (hmapsame _ (mem_owned_self _ _)) fun b hb => hmapsame b (mem_owned_block hb)
  have hcur : fm.Current d₂ := by
    rw [Current, h0] at hfm ⊢
    rw [hdrAt_congr (hmapsame _ (mem_owned_self _ _)), hfm]
  have hw := exec_write_inDisk (hs.file hk).inDisk (f.hdr.grown n ds).toSector { k with disk := d₁ }
  rw [← FileHeader.writeBack] at hw
  obtain ⟨k', hwm, hm', hout, hfree'⟩ := exec_writeBack_map (k := { k with disk := d₂ }) hst hcur h0 m'
  dsimp only at hout hm'
  have hst' := hst.write hst.map hout
  have hstr := hst.structure_of_write hst.map hout hk
  rw [hmapdata] at hout
  have hstrm := hst.structure_of_write hst.map (by rw [hmapdata]; exact hout) hs.map
  refine ⟨ds, nbs, nsecs, k', ?_, hm', hlen, by rw [hfree']; exact ht,
    ⟨by rw [hfree']; exact hst', ?_, ?_, ?_, fun y hy => ?_,
    fun {x c} hkx hxs hx0 y hy => ?_, ?_⟩, fun x hxb hxn hxs hx0 => ?_⟩
  · rw [extendFrom, exec_bind_of_ok ha]
    dsimp only
    rw [exec_bind_of_ok (exec_assert _ _), exec_bind_of_ok hw, exec_bind_of_ok hwm, exec_pure]
  · rw [hdrAt_congr hstr.1, hh]
  · rw [blocksAt_congr hstr.1, hbe]
  · rw [dataAt_congr hstr.1 hstr.2, hde]
  · rw [hout y fun hy' => hs.apart hk hs.map hne y (mem_owned_data hy) (mem_owned_data hy'), hold y hy]
  · rw [hout y fun hy' => hs.apart hkx hs.map hx0 y hy (mem_owned_data hy'), hothers hkx hxs y hy]
  · rw [hstrm.1, hmapsame _ (mem_owned_self _ _)]
  · rw [hout x hx0, hd₂, Function.update_of_ne hxs, hd₁ x hxb hxn]

section Extend

variable (hs : Storage k.disk (freeMapAt k.disk) kind) (hfm : fm.Current k.disk)
  (h0 : fm.hdrSector = FreeMapSector)
  (hk : kind f.hdrSector = some .plain) (hf : f.Follows k.disk bs secs)
include hs hfm h0 hk hf

lemma exec_extend (hfit : Fits secs.length n (freeMapAt k.disk).free.length) :
    ∃ ds nbs nsecs k', exec (extend fm f n) k = .ok ({ f with hdr := f.hdr.grown n ds }, k') ∧ k'.maps = k.maps ∧
      nsecs.length = sectorsNeeded n ∧
      Extended k.disk kind f.hdrSector (f.hdr.grown n ds) (bs ++ nbs) (secs ++ nsecs) k'.disk := by
  obtain ⟨ds, nbs, nsecs, k', he, hm, hlen, -, hx, -⟩ := exec_extendFrom hs hfm h0 hk hf hfit
  rw [← exec_extend_start hs hfm h0] at he
  exact ⟨ds, nbs, nsecs, k', he, hm, hlen, hx⟩

lemma exec_extend_aborts (hfit : ¬Fits secs.length n (freeMapAt k.disk).free.length) :
    exec (extend fm f n) k = .error .assertion := by
  have hsl := hf.on.secs_le
  rw [exec_extend_start hs hfm h0, extendFrom, exec_bind]
  by_cases hfew : (freeMapAt k.disk).free.length < sectorsNeeded n
  · rw [FileHeader.allocate_refuse _ _ _ _ hfew]
    rfl
  · have hpos : 0 < sectorsNeeded n := by
      simp only [Fits, newBlocks] at hfit
      omega
    rw [FileHeader.allocate_abort hf.on (hf.blocks_nodup hs hk) n hpos (by omega) hfit]

lemma extend_inv (he : exec (extend fm f n) k = .ok (f', k')) :
    ∃ ds nbs nsecs, f' = { f with hdr := f.hdr.grown n ds } ∧ k'.maps = k.maps ∧ nsecs.length = sectorsNeeded n ∧
      Extended k.disk kind f.hdrSector (f.hdr.grown n ds) (bs ++ nbs) (secs ++ nsecs) k'.disk := by
  by_cases hfit : Fits secs.length n (freeMapAt k.disk).free.length
  · obtain ⟨ds, nbs, nsecs, k₁, he₁, hrest⟩ := exec_extend hs hfm h0 hk hf hfit
    rw [he₁] at he
    cases he
    exact ⟨ds, nbs, nsecs, rfl, hrest⟩
  · rw [exec_extend_aborts hs hfm h0 hk hf hfit] at he
    cases he

end Extend

end OpenFile

namespace Sound

variable {fs : FileSystem} {d d' : Disk} {kind : ℤ → Option Kind} {s : ℤ}

lemma of_storage (hs : Sound fs d kind) (hst : Storage d' (freeMapAt d') kind)
    (hmap : d' FreeMapSector = d FreeMapSector)
    (hdirs : ∀ {x}, kind x = some .dir → ∀ y ∈ owned d x, d' y = d y) : Sound fs d' kind ∧ SameDirs kind d d' := by
  have hsame : SameDirs kind d d' := ⟨fun hkx => tableAt_congr (hs.backed hkx) (hdirs hkx),
    fun hkx => hdrAt_congr (hdirs hkx _ (mem_owned_self _ _))⟩
  have hdir : ∀ {x}, kind x = some .dir → DirAt d' x := fun hkx => (hs.dir hkx).congr (hdirs hkx)
  refine ⟨⟨⟨hst, hs.names.congr fun x hkx => hsame.table hkx, fun hkx => (hdir hkx).backed, ?_, hs.mapSector⟩,
    fun hkx => (hdir hkx).unused⟩, hsame⟩
  have h := hs.mapFile
  rw [OpenFile.Current, hs.mapSector] at h ⊢
  rw [hdrAt_congr hmap, h]

lemma of_extended (hs : Sound fs d kind) (hk : kind s = some .plain) {hdr : FileHeader} {bs secs : List ℤ}
    (he : Extended d kind s hdr bs secs d') :
    Sound fs d' kind ∧ SameDirs kind d d' :=
  hs.of_storage he.storage he.map fun {x} hkx => he.others hkx (by
    rintro rfl
    rw [hk] at hkx
    cases hkx) (hs.dir_ne_map hkx)

lemma of_write (hs : Sound fs d kind) (hk : kind s = some .plain) (hout : ∀ x, x ∉ dataAt d s → d' x = d x) :
    Sound fs d' kind ∧ SameDirs kind d d' := by
  refine hs.of_storage ?_ (hs.storage.structure_of_write hk hout hs.storage.map).1 fun {x} hkx y hy => ?_
  · rw [hs.storage.freeMapAt_of_write hk (hs.plain_ne_map hk) hout]
    exact hs.storage.write hk hout
  · refine hout y fun hy' => hs.storage.apart hkx hk ?_ y hy (mem_owned_data hy')
    rintro rfl
    rw [hk] at hkx
    cases hkx

end Sound

def PlainBacked (d : Disk) (kind : ℤ → Option Kind) : Prop :=
  ∀ {s}, kind s = some .plain → (hdrAt d s).numBytes ≤ 128 * (dataAt d s).length

lemma PlainBacked.congr {d d' : Disk} {kind : ℤ → Option Kind} (hb : PlainBacked d kind)
    (h : ∀ {s}, kind s = some .plain → d' s = d s ∧ ∀ b ∈ blocksAt d s, d' b = d b) : PlainBacked d' kind := by
  intro s hk
  rw [hdrAt_congr (h hk).1, dataAt_congr (h hk).1 (h hk).2]
  exact hb hk

lemma exec_semP {m : KernelMap} {s v : ℤ} {k : Kernel} (h : k.maps m s = some v) (hv : v ≠ 0) :
    exec (semP m s) k = .ok ((), k.setMap m s (v - 1)) := by
  have he : exec (semP m s) k = Kernel.handle (.p m s) k := Prog.run_send _ _ _
  rw [he]
  simp only [Kernel.handle, h]
  rw [if_neg hv]
  rfl

lemma exec_semV {m : KernelMap} {s v : ℤ} {k : Kernel} (h : k.maps m s = some v) :
    exec (semV m s) k = .ok ((), k.setMap m s (v + 1)) := by
  have he : exec (semV m s) k = Kernel.handle (.v m s) k := Prog.run_send _ _ _
  rw [he]
  simp only [Kernel.handle, h]
  rfl

lemma exec_adjust {m : KernelMap} {key value : ℤ} {k : Kernel} (h : k.maps m key = some value) (amount : ℤ) :
    exec (adjust m key amount) k = .ok ((), k.setMap m key (value + amount)) := by
  rw [adjust, exec_bind_of_ok (exec_find m key k), h]
  exact exec_assign ..

lemma exec_lookup {m : KernelMap} {key value : ℤ} {k : Kernel} (h : k.maps m key = some value) :
    exec (lookup m key) k = .ok (value, k) := by
  rw [lookup, exec_bind_of_ok (exec_find m key k), h]
  rfl

namespace OpenFile

lemma exec_read {f : OpenFile} {k : Kernel} (hr : k.maps .semaphoreRead f.hdrSector = some 1)
    (hw : k.maps .semaphoreWrite f.hdrSector = some 1) (hc : k.maps .readerCount f.hdrSector = some 0) {n : ℤ}
    {bytes : List Byte}
    (h : ∀ k₁ : Kernel, k₁.disk = k.disk → exec (f.readAt n f.seekPosition) k₁ = .ok (bytes, k₁)) :
    exec (f.read n) k = .ok ((bytes, { f with seekPosition := int32 (f.seekPosition + bytes.length) }), k) := by
  set x := f.hdrSector with hx
  let k₁ :=
    (((k.setMap .semaphoreRead x 0).setMap .readerCount x 1).setMap .semaphoreWrite x 0).setMap .semaphoreRead x 1
  have henter : exec f.enterRead k = .ok ((), k₁) := by
    rw [OpenFile.enterRead, exec_bind_of_ok (exec_semP hr (by decide)), exec_bind_of_ok (exec_adjust
      (by rw [Kernel.setMap_of_map_ne _ (by decide)]; exact hc) 1),
      exec_bind_of_ok (exec_lookup (Kernel.setMap_self ..)),
      onlyIf, if_pos (by decide), exec_bind_of_ok (exec_semP (v := 1) (by
        rw [Kernel.setMap_of_map_ne _ (by decide), Kernel.setMap_of_map_ne _ (by decide)]
        exact hw) (by decide))]
    exact exec_semV (v := 0) (by
      rw [Kernel.setMap_of_map_ne _ (by decide), Kernel.setMap_of_map_ne _ (by decide), Kernel.setMap_self]
      rfl)
  have hleave : exec f.leaveRead k₁ = .ok ((), k) := by
    rw [OpenFile.leaveRead, exec_bind_of_ok (exec_semP (Kernel.setMap_self ..) (by decide)),
      exec_bind_of_ok (exec_adjust
      (by
        rw [Kernel.setMap_of_map_ne _ (by decide), Kernel.setMap_of_map_ne _ (by decide),
          Kernel.setMap_of_map_ne _ (by decide),
          Kernel.setMap_self]) (-1)), exec_bind_of_ok (exec_lookup (Kernel.setMap_self ..)),
      onlyIf, if_pos (by decide), exec_bind_of_ok (exec_semV (v := 0) (by
        rw [Kernel.setMap_of_map_ne _ (by decide), Kernel.setMap_of_map_ne _ (by decide),
          Kernel.setMap_of_map_ne _ (by decide),
          Kernel.setMap_self]))]
    refine (exec_semV (v := 0) (by
      rw [Kernel.setMap_of_map_ne _ (by decide), Kernel.setMap_of_map_ne _ (by decide), Kernel.setMap_self]
      rfl)).trans ?_
    congr 2
    change Kernel.mk k.disk _ k.heap = ⟨k.disk, k.maps, k.heap⟩
    congr 1
    funext m key
    by_cases hkey : key = x
    · rw [hkey]
      cases m <;> simp [Kernel.setMap, Function.update, hr, hw, hc, ← hx]
    · cases m <;> simp [Kernel.setMap, Function.update, hkey, ← hx]
  rw [OpenFile.read, exec_bind_of_ok henter, exec_bind_of_ok (h k₁ rfl), exec_bind_of_ok hleave]
  rfl

end OpenFile

lemma Kernel.setMap_back (k : Kernel) {m : KernelMap} {s v : ℤ} (h : k.maps m s = some v) (w : ℤ) {t : Kernel}
    (ht : t.maps = (k.setMap m s w).maps) : (t.setMap m s v).maps = k.maps := by
  funext m'
  by_cases hm : m' = m
  · subst hm
    rw [Kernel.setMap_same, ht, Kernel.setMap_same, Function.update_idem, ← h, Function.update_eq_self]
  · rw [Kernel.setMap_of_map_ne _ hm, ht, Kernel.setMap_of_map_ne _ hm]

namespace OpenFile

variable {kind : ℤ → Option Kind} {k k' : Kernel} {fm f f' : OpenFile} {bs secs : List ℤ} {src : List Byte}

lemma exec_writeLocked_start (hsem : k.maps .semaphoreWrite f.hdrSector = some 1) (src : List Byte) (n : ℤ) :
    ∃ k₁, k₁.disk = k.disk ∧ k₁.maps = (k.setMap .semaphoreWrite f.hdrSector 0).maps ∧
      exec (f.writeLocked src n) k =
        exec (do
          let result ← f.writeAt src n f.seekPosition
          semV .semaphoreWrite f.hdrSector
          pure (result, { f with seekPosition := int32 (f.seekPosition + result) })) k₁ := by
  refine ⟨k.setMap .semaphoreWrite f.hdrSector 0, rfl, rfl, ?_⟩
  rw [writeLocked, exec_bind_of_ok (exec_semP hsem (by decide))]
  rfl

lemma exec_writeLocked_end (hsem : k.maps .semaphoreWrite f.hdrSector = some 1) {k₁ k₂ : Kernel}
    (hk₁ : k₁.maps = (k.setMap .semaphoreWrite f.hdrSector 0).maps) (hk₂ : k₂.maps = k₁.maps) :
    ∃ k', exec (semV .semaphoreWrite f.hdrSector) k₂ = .ok ((), k') ∧ k'.disk = k₂.disk ∧ k'.maps = k.maps := by
  have h0 : k₂.maps .semaphoreWrite f.hdrSector = some 0 := by
    rw [hk₂, hk₁, Kernel.setMap_self]
  exact ⟨_, exec_semV h0, rfl, k.setMap_back hsem 0 (hk₂.trans hk₁)⟩

lemma writeLocked_inv (hsem : k.maps .semaphoreWrite f.hdrSector = some 1) (hon : f.hdr.On k.disk bs secs)
    (hnd : (bs ++ secs).Nodup) {n r : ℤ} (he : exec (f.writeLocked src n) k = .ok ((r, f'), k')) :
    k'.maps = k.maps ∧ (∀ x, x ∉ secs → k'.disk x = k.disk x) ∧ f'.hdr = f.hdr ∧ f'.hdrSector = f.hdrSector := by
  obtain ⟨k₁, hd₁, hm₁, hstart⟩ := exec_writeLocked_start hsem src n
  rw [hstart] at he
  obtain ⟨r', k₂, hw, he⟩ := exec_bind_ok.mp he
  rw [← hd₁] at hon ⊢
  obtain ⟨hm₂, hout⟩ := writeAt_inv hon hnd hw
  obtain ⟨k₃, hv, hd₃, hm₃⟩ := exec_writeLocked_end hsem hm₁ hm₂
  rw [exec_bind_of_ok hv] at he
  cases he
  exact ⟨hm₃, fun x hx => by rw [hd₃, hout x hx], rfl, rfl⟩

lemma exec_writeLocked (hsem : k.maps .semaphoreWrite f.hdrSector = some 1) (hf : f.Backed k.disk bs secs)
    (hnd : (bs ++ secs).Nodup) (src : List Byte) (n p : ℕ) (hp : f.seekPosition = p) (hpn : p + n < 2147483648)
    (hsrc : transferred f.hdr.fileLength p n ≤ src.length) :
    ∃ k', exec (f.writeLocked src n) k = .ok (((transferred f.hdr.fileLength p n : ℕ),
        { f with seekPosition := ((p + transferred f.hdr.fileLength p n : ℕ) : ℤ) }), k') ∧ k'.maps = k.maps ∧
      (∀ x, (∀ q, p ≤ q → q < p + transferred f.hdr.fileLength p n → secs[q / 128]? ≠ some x) →
        k'.disk x = k.disk x) ∧
      ∀ q : ℕ, (q : ℤ) < f.hdr.fileLength → byteIn k'.disk secs q =
        if p ≤ q ∧ q < p + transferred f.hdr.fileLength p n then src.getD (q - p) 0 else byteIn k.disk secs q := by
  obtain ⟨k₁, hd₁, hm₁, hstart⟩ := exec_writeLocked_start hsem src n
  rw [← hd₁] at hf ⊢
  obtain ⟨k₂, hw, hm₂, hframe, hbytes⟩ := exec_writeAt hf hnd src n p hpn hsrc
  obtain ⟨k', hv, hd', hm'⟩ := exec_writeLocked_end hsem hm₁ hm₂
  have hle : transferred f.hdr.fileLength p n ≤ n := min_le_left _ _
  refine ⟨k', ?_, hm', by rw [hd']; exact hframe, by rw [hd']; exact hbytes⟩
  rw [hstart, hp, exec_bind_of_ok hw, exec_bind_of_ok hv, exec_pure, int32_of_bounds (by omega) (by omega)]
  push_cast
  rfl

lemma exec_write_within (fm : OpenFile) {n : ℤ} (hn : ¬int32 (f.seekPosition + n) > f.hdr.fileLength)
    (src : List Byte) (k : Kernel) :
    exec (write fm f src n) k = exec (f.writeLocked src n) k := by
  rw [write, if_neg hn]
  rfl

lemma exec_write_beyond (fm : OpenFile) {n : ℤ} (hn : int32 (f.seekPosition + n) > f.hdr.fileLength)
    (src : List Byte) (k : Kernel) :
    exec (write fm f src n) k = exec (extend fm f n >>= fun f => f.writeLocked src n) k := by
  rw [write, if_pos hn]

end OpenFile

namespace Sound

variable {fs : FileSystem} {kind : ℤ → Option Kind} {k k' : Kernel} {f f' : OpenFile} {src : List Byte}

lemma write_inv (hs : Sound fs k.disk kind) (hk : kind f.hdrSector = some .plain) (hf : f.Current k.disk)
    (hsem : k.maps .semaphoreWrite f.hdrSector = some 1) {n r : ℤ}
    (he : exec (OpenFile.write fs.freeMapFile f src n) k = .ok ((r, f'), k')) :
    Sound fs k'.disk kind ∧ k'.maps = k.maps ∧ f'.Current k'.disk ∧ f'.hdrSector = f.hdrSector ∧
      SameDirs kind k.disk k'.disk ∧
      (0 ≤ n → PlainBacked k.disk kind → PlainBacked k'.disk kind) := by
  have hfollows := hf.follows (hs.storage.file hk)
  -- the part under the semaphore, after an extension or without one
  have hlocked : ∀ {g : OpenFile} {t : Kernel}, Sound fs t.disk kind →
      g.Current t.disk → g.hdrSector = f.hdrSector →
      t.maps = k.maps → exec (g.writeLocked src n) t = .ok ((r, f'), k') →
      Sound fs k'.disk kind ∧ k'.maps = k.maps ∧ f'.Current k'.disk ∧ f'.hdrSector = f.hdrSector ∧
        SameDirs kind t.disk k'.disk ∧
        (PlainBacked t.disk kind → PlainBacked k'.disk kind) := by
    intro g t hst hg hgs hm hw
    rw [← hgs] at hk hsem ⊢
    rw [← hm] at hsem ⊢
    have hgf := hg.follows (hst.storage.file hk)
    obtain ⟨hm', hout, hhdr, hsec⟩ := OpenFile.writeLocked_inv hsem hgf.on (hst.storage.data_nodup hk) hw
    obtain ⟨hs', htab⟩ := hst.of_write hk hout
    refine ⟨hs', hm', ?_, hsec, htab, fun hb => hb.congr fun hkx => ?_⟩
    · rw [OpenFile.Current, hhdr, hsec, hdrAt_congr (hst.storage.structure_of_write hk hout hk).1]
      exact hg
    · exact hst.storage.structure_of_write hk hout hkx
  by_cases hn : int32 (f.seekPosition + n) > f.hdr.fileLength
  · rw [OpenFile.exec_write_beyond _ hn] at he
    obtain ⟨g, t, hext, hw⟩ := exec_bind_ok.mp he
    obtain ⟨ds, nbs, nsecs, rfl, hm, hlen, hx⟩ :=
      OpenFile.extend_inv hs.storage hs.mapFile hs.mapSector hk hfollows hext
    obtain ⟨hs', htab⟩ := hs.of_extended hk hx
    have hcur : (OpenFile.mk (f.hdr.grown n ds) f.seekPosition f.hdrSector).Current t.disk := hx.hdr.symm
    obtain ⟨h₁, h₂, h₃, h₄, h₅, h₆⟩ := hlocked hs' hcur rfl hm hw
    refine ⟨h₁, h₂, h₃, h₄, htab.trans h₅, fun hpos hb => h₆ fun {x} hkx => ?_⟩
    by_cases hxf : x = f.hdrSector
    · subst hxf
      have hsl := (hs'.storage.file hk).on.secs_le
      rw [OpenFile.Current] at hf
      rw [hx.hdr, hx.data, List.length_append, hlen, hf, Nat.cast_add, mul_add]
      rw [hx.data, List.length_append, hlen] at hsl
      have hlo := (toInt_bounds ((k.disk f.hdrSector).word 1)).1
      have hnum : (hdrAt k.disk f.hdrSector).numBytes = ((k.disk f.hdrSector).word 1).toInt := rfl
      exact (FileHeader.grown_fileLength_le _ (hb hk) (by omega) (by omega)).2
    · have ho := hx.others hkx hxf (hs.plain_ne_map hkx)
      rw [hdrAt_congr (ho _ (mem_owned_self _ _)), dataAt_congr (ho _ (mem_owned_self _ _)) fun b hb =>
        ho b (mem_owned_block hb)]
      exact hb hkx
  · rw [OpenFile.exec_write_within _ hn] at he
    obtain ⟨h₁, h₂, h₃, h₄, h₅, h₆⟩ := hlocked hs hf rfl rfl he
    exact ⟨h₁, h₂, h₃, h₄, h₅, fun _ => h₆⟩

lemma exec_write (hs : Sound fs k.disk kind) (hk : kind f.hdrSector = some .plain) (hf : f.Current k.disk)
    (hb : PlainBacked k.disk kind) (hsem : k.maps .semaphoreWrite f.hdrSector = some 1)
    {n p : ℕ} (hp : f.seekPosition = p) (hle : (p : ℤ) ≤ f.length)
    (hpn : p + n < 2147483648) (hsrc : n ≤ src.length)
    (hfit : (p + n : ℤ) ≤ f.length ∨ Fits (dataAt k.disk f.hdrSector).length n (freeMapAt k.disk).free.length) :
    ∃ f' k', exec (OpenFile.write fs.freeMapFile f src n) k = .ok ((n, f'), k') := by
  have hfollows := hf.follows (hs.storage.file hk)
  have hback := hf.backed (hs.storage.file hk) (hb hk)
  have hsum : int32 (f.seekPosition + (n : ℤ)) = p + n := by rw [hp, int32_of_bounds (by omega) (by omega)]
  have hlen : f.length = f.hdr.fileLength := rfl
  by_cases hwithin : (p + n : ℤ) ≤ f.length
  · have ht : transferred f.hdr.fileLength p n = n := by rw [transferred, ← hlen]; omega
    obtain ⟨k', he, -⟩ := OpenFile.exec_writeLocked hsem hback (hs.storage.data_nodup hk) src n p hp hpn
      (by rw [ht]; exact hsrc)
    rw [ht] at he
    exact ⟨_, k', (OpenFile.exec_write_within fs.freeMapFile (by rw [hsum, ← hlen]; omega) src k).trans he⟩
  · have hfit := hfit.resolve_left hwithin
    have hbeyond : int32 (f.seekPosition + (n : ℤ)) > f.hdr.fileLength := by rw [hsum, ← hlen]; omega
    obtain ⟨ds, nbs, nsecs, k₁, he₁, hm₁, hns, hx⟩ := OpenFile.exec_extend hs.storage hs.mapFile hs.mapSector hk
      hfollows hfit
    have hnum : f.hdr.numBytes = f.length := rfl
    have hcap := hfit.1
    have hgl : (f.hdr.grown n ds).numBytes = f.hdr.numBytes + n ∧ (f.hdr.grown n ds).numBytes ≤
        128 * (dataAt k.disk f.hdrSector).length + 128 * sectorsNeeded n :=
      FileHeader.grown_fileLength_le ds hback.length_le (by omega) (by omega)
    have hcur : (OpenFile.mk (f.hdr.grown n ds) f.seekPosition f.hdrSector).Current k₁.disk := hx.hdr.symm
    have hback₁ := hcur.backed (hx.storage.file hk) (by
      dsimp only
      rw [hx.hdr, hx.data, List.length_append, hns]
      push_cast
      linarith [hgl.2])
    have ht : transferred (f.hdr.grown n ds).fileLength p n = n := by
      rw [transferred, FileHeader.fileLength, hgl.1]
      omega
    obtain ⟨k', he, -⟩ := OpenFile.exec_writeLocked (by rw [hm₁]; exact hsem) hback₁
      (hx.storage.data_nodup hk) src n p hp hpn (by rw [ht]; exact hsrc)
    dsimp only at he
    rw [ht] at he
    exact ⟨_, k', (OpenFile.exec_write_beyond fs.freeMapFile hbeyond src k).trans
        ((exec_bind_of_ok he₁ _).trans he)⟩

end Sound

end NachosFileSys
