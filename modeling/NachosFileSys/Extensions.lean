import NachosFileSys.Ledger
import NachosFileSys.UserWrites

namespace NachosFileSys

open Lib.Programs Lib.Bytes Lib.Runs Lib.Threads
open Prog (Safe Terms)

section Extend

variable {fm : OpenFile} {F : MapFile fm} {kind : ℤ → Option Kind} {g g' : Ledger} {s : ℤ}

lemma MapFile.readAt_eq (F : MapFile fm) : fm.readAt ((numWords 1024 : ℕ) * 4) 0 =
    OpenFile.readSectors fm.hdr 0 1 >>= fun buf => lift (slice buf 0 128) := by
  have hlen : fm.hdr.fileLength = 128 := F.length
  rw [freeMap_bytes, OpenFile.readAt]
  simp only [hlen]
  rfl

lemma MapFile.writeAt_eq (F : MapFile fm) (src : List Byte) : fm.writeAt src ((numWords 1024 : ℕ) * 4) 0 = (do
    let buf ← malloc 128
    let bytes ← lift (slice src 0 128)
    let buf ← lift (copyInto buf 0 bytes)
    OpenFile.writeSectors fm.hdr 0 1 buf
    pure 128) := by
  have hlen : fm.hdr.fileLength = 128 := F.length
  rw [freeMap_bytes, OpenFile.writeAt]
  simp only [hlen]
  rfl

lemma safe_map_byteToSector (F : MapFile fm) : Safe (extensionTerms F kind) (fun g' x => g' = g ∧ x = F.sector)
    (fm.hdr.byteToSector (0 * SectorSize)) g := by
  have hT := Extending.of_keepsDisk F kind
  rw [FileHeader.byteToSector]
  refine (safe_lift hT (Q := fun g' b => g' = g ∧ b = F.block) fun b hb => ⟨rfl, ?_⟩).bind ?_
  · have hi := (index_eq_ok.mp hb).2
    change fm.hdr.dataSectors[0]? = some b at hi
    rw [F.blocks] at hi
    exact (Option.some.inj hi).symm
  rintro b g₁ ⟨rfl, rfl⟩
  rw [IndirectBlock.fetchFrom, bind_assoc]
  refine (safe_readSector hT (Q := fun g' data => g' = g₁ ∧ data = F.contents)
      fun g₂ hg data ha => ⟨hg, ?_⟩).bind ?_
  · exact ha.2.1 rfl
  rintro data g₂ ⟨rfl, rfl⟩
  rw [pure_bind]
  refine (safe_lift hT (Q := fun g' x => g' = g₂ ∧ x = F.sector) fun x hx => ⟨rfl, ?_⟩).bind ?_
  · rw [IndirectBlock.byteToSector] at hx
    obtain ⟨u, -, hx⟩ := Lib.Results.bind_eq_ok.mp hx
    have hi := (index_eq_ok.mp hx).2
    change (IndirectBlock.ofSector F.contents).dataSectors[0]? = some x at hi
    rw [F.sectors] at hi
    exact (Option.some.inj hi).symm
  rintro x g₃ ⟨rfl, rfl⟩
  exact (safe_assert hT (Q := fun g' _ => g' = g₃) fun _ => rfl).bind fun _ _ hg => .pure ⟨hg, rfl⟩

lemma safe_fetchFrom (F : MapFile fm) (b : FreeMap) :
    Safe (extensionTerms F kind) (fun g' m => g' = g ∧ m = mapOf g.map) (b.fetchFrom fm) g := by
  have hT := Extending.of_keepsDisk F kind
  rw [Bitmap.fetchFrom, F.readAt_eq, OpenFile.readSectors, OpenFile.readSectors]
  simp only [bind_assoc, pure_bind]
  refine (safe_map_byteToSector F).bind ?_
  rintro x g₁ ⟨rfl, rfl⟩
  refine (safe_readSector hT (Q := fun g' data => g' = g₁ ∧ data = g₁.map) fun g₂ hg data ha => ⟨hg, ?_⟩).bind ?_
  · rw [ha.2.2.1 rfl, hg]
  rintro data g₂ ⟨rfl, rfl⟩
  have hlen : g₂.map.toList.length = 128 := by simp
  have hslice : slice (g₂.map.toList ++ []) 0 128 = .ok g₂.map.toList := by
    rw [List.append_nil, slice, if_pos (by rw [hlen]; decide)]
    simp [hlen]
  have hcopy : copyInto b.toBytes 0 g₂.map.toList = .ok g₂.map.toList := by
    have hbytes : b.toBytes.length = 128 := Bitmap.toBytes_length b
    rw [copyInto, if_pos (by rw [hlen, hbytes]; decide), Int.toNat_zero, overlay_full _ _ (by rw [hlen, hbytes])]
  rw [hslice]
  change Safe (extensionTerms F kind) _
      (lift (copyInto b.toBytes 0 g₂.map.toList >>= fun map => .ok (Bitmap.ofBytes map))) g₂
  rw [hcopy]
  exact .pure ⟨rfl, rfl⟩

lemma safe_writeBack (F : MapFile fm) (m : FreeMap) :
    Safe (extensionTerms F kind) (fun g' _ => g'.role = g.role ∧ mapOf g'.map = m) (m.writeBack fm) g := by
  have hT := Extending.of_keepsDisk F kind
  have hbytes : m.toBytes.length = 128 := Bitmap.toBytes_length m
  rw [Bitmap.writeBack, F.writeAt_eq]
  simp only [bind_assoc]
  refine Safe.bind (Q := fun g' _ => g' = g) (.request fun g₁ hg => ⟨g₁, hT _ _ trivial, fun _ _ => .pure hg⟩) ?_
  rintro buf g₁ rfl
  have hslice : slice m.toBytes 0 128 = .ok m.toBytes := by
    rw [slice, if_pos (by rw [hbytes]; decide)]
    simp [hbytes]
  rw [hslice]
  change Safe (extensionTerms F kind) _ (lift (copyInto buf 0 m.toBytes) >>= fun buf => _) g₁
  refine (safe_lift hT (Q := fun g' buf' => g' = g₁ ∧ ∀ i < 128, buf'.getD i 0 = m.toBytes.getD i 0) fun buf' hb =>
    ⟨rfl, fun i hi => ?_⟩).bind ?_
  · rw [copyInto] at hb
    split at hb
    · cases hb
      have hle : 0 + m.toBytes.length ≤ buf.length := by omega
      rw [Int.toNat_zero, List.getD_eq_getElem?_getD, List.getD_eq_getElem?_getD, getElem?_overlay _ _ _ hle,
        if_pos (by omega), Nat.sub_zero]
    · cases hb
  rintro buf' g₂ ⟨rfl, hbuf⟩
  have hmap : mapOf (Sector.ofList buf') = m := by
    rw [mapOf]
    conv_rhs => rw [← Bitmap.ofBytes_toBytes m]
    refine Bitmap.ofBytes_congr fun i hi => ?_
    have hi : i < 128 := hi
    rw [← hbuf i hi, List.getD_eq_getElem _ _ (by simpa using hi)]
    simp [Sector.ofList]
  rw [OpenFile.writeSectors, OpenFile.writeSectors, bind_assoc]
  refine (safe_map_byteToSector F).bind ?_
  rintro x g₃ ⟨rfl, rfl⟩
  refine .request fun g₄ hg₄ => ?_
  have hg₄ : g₄ = g₃ := hg₄
  subst hg₄
  exact ⟨{ g₄ with map := Sector.ofList buf' }, .map _, fun _ _ => Safe.pure (a := ()) ⟨rfl, hmap⟩⟩

lemma Bitmap.findAndSet_marks {m m' : FreeMap} {x : ℤ} (h : m.findAndSet = .ok (x, m')) (hx : x ≠ EmptyBlock) :
    ¬Marked m x ∧ Marked m' x ∧ ∀ y, Marked m y → Marked m' y := by
  cases hf : m.free with
  | nil =>
    rw [Bitmap.findAndSet_full m hf] at h
    cases h
    exact absurd rfl hx
  | cons i rest =>
    obtain ⟨m₁, hm₁, hrest, hbit⟩ := Bitmap.findAndSet_cons m hf
    rw [hm₁] at h
    cases h
    have hmem : (i : ℤ) ∈ NachosFileSys.sectors m.free := by
      rw [hf]
      exact List.mem_cons_self
    have hin := inDisk_of_free hmem
    have hi : i < 1024 := (Bitmap.mem_free.mp (hf ▸ List.mem_cons_self)).1
    refine ⟨fun hm => (marked_iff.mp hm).2 hmem, ⟨hin, ?_⟩, fun y hy => ⟨hy.1, ?_⟩⟩
    · rw [Int.toNat_natCast, hbit i hi]
      simp
    · have hlt : y.toNat < 1024 := by
        have := hy.1.1
        have := hy.1.2
        simp only [NumSectors] at this
        omega
      rw [hbit _ hlt, hy.2, Bool.true_or]

structure Filled (m m' : FreeMap) (ds ds' : List ℤ) : Prop where
  length : ds'.length = ds.length
  marked : ∀ x, Marked m x → Marked m' x
  fresh : ∀ x ∈ ds', x ≠ EmptyBlock → x ∈ ds ∨ ¬Marked m x ∧ Marked m' x

lemma Filled.refl (m : FreeMap) (ds : List ℤ) : Filled m m ds ds := ⟨rfl, fun _ h => h, fun _ h _ => .inl h⟩

lemma Filled.cons {m m' : FreeMap} {ds ds' : List ℤ} (h : Filled m m' ds ds') (d : ℤ) :
    Filled m m' (d :: ds) (d :: ds') := by
  refine ⟨by simp [h.length], h.marked, fun x hx hne => ?_⟩
  rcases List.mem_cons.mp hx with rfl | hx
  · exact .inl List.mem_cons_self
  · exact (h.fresh x hx hne).imp_left (List.mem_cons_of_mem d)

lemma IndirectBlock.allocateLoop_filled {n : ℤ} {ds : List ℤ} : ∀ {ds' : List ℤ} {a a' : ℤ} {m m' : FreeMap},
    IndirectBlock.allocateLoop n ds a m = .ok (a', ds', m') → Filled m m' ds ds' := by
  induction ds with
  | nil =>
    intro ds' a a' m m' h
    cases h
    exact .refl m []
  | cons d ds ih =>
    intro ds' a a' m m' h
    rw [IndirectBlock.allocateLoop] at h
    split at h
    · split at h
      · obtain ⟨⟨a₁, ds₁, m₁⟩, hloop, h⟩ := Lib.Results.bind_eq_ok.mp h
        cases h
        exact (ih hloop).cons d
      · obtain ⟨⟨x, m₁⟩, hfind, h⟩ := Lib.Results.bind_eq_ok.mp h
        obtain ⟨u, hcheck, h⟩ := Lib.Results.bind_eq_ok.mp h
        obtain ⟨⟨a₁, ds₁, m₂⟩, hloop, h⟩ := Lib.Results.bind_eq_ok.mp h
        cases h
        have hx : x ≠ EmptyBlock := by
          rw [check] at hcheck
          split at hcheck
          · exact of_decide_eq_true ‹_›
          · cases hcheck
        obtain ⟨hfree, hmarked, hmono⟩ := Bitmap.findAndSet_marks hfind hx
        have hrest := ih hloop
        refine ⟨by simp [hrest.length], fun y hy => hrest.marked y (hmono y hy), fun y hy hne => ?_⟩
        rcases List.mem_cons.mp hy with rfl | hy
        · exact .inr ⟨hfree, hrest.marked _ hmarked⟩
        · refine (hrest.fresh y hy hne).imp (List.mem_cons_of_mem d) fun hnew =>
            ⟨fun hm => hnew.1 (hmono y hm), hnew.2⟩
    · cases h
      exact .refl m (d :: ds)

lemma IndirectBlock.allocate_filled {b b' : IndirectBlock} {m m' : FreeMap} {n t : ℤ}
    (h : b.allocate m n = .ok (t, b', m')) : Filled m m' b.dataSectors b'.dataSectors := by
  rw [IndirectBlock.allocate] at h
  obtain ⟨count, -, h⟩ := Lib.Results.bind_eq_ok.mp h
  split at h
  · cases h
    exact .refl m _
  · obtain ⟨⟨a, ds, m₁⟩, hloop, h⟩ := Lib.Results.bind_eq_ok.mp h
    cases h
    exact allocateLoop_filled hloop

/-- The ledger after the block at sector `x` of the file at sector `s` has been written with the table `ds`. -/
def Ledger.record (g : Ledger) (s x : ℤ) (ds : List ℤ) : Ledger :=
  { g with role := fun y => if y = x then some (.block s) else
      if y ∈ ds ∧ y ≠ EmptyBlock then some (.data s) else g.role y }

structure Slot (m : FreeMap) (g : Ledger) (s x : ℤ) (ds : List ℤ) : Prop where
  covers : Covers m g
  role : g.role x = some (.block s) ∨ g.role x = none
  marked : Marked m x
  data : ∀ y ∈ ds, y ≠ EmptyBlock → g.role y = some (.data s)
  length : ds.length = MaxSector

namespace Slot

variable {m m' : FreeMap} {x : ℤ} {ds ds' : List ℤ}

lemma ne (h : Slot m g s x ds) (hf : Filled m m' ds ds') : ∀ y ∈ ds', y ≠ EmptyBlock → y ≠ x := by
  rintro y hy hne rfl
  rcases hf.fresh y hy hne with hold | hnew
  · have hdata := h.data y hold hne
    rcases h.role with hr | hr <;> rw [hdata] at hr <;> cases hr
  · exact hnew.1 h.marked

lemma grows (h : Slot m g s x ds) (hf : Filled m m' ds ds') : g.Grows (g.record s x ds') := by
  intro y r hr
  rw [Ledger.record]
  dsimp only
  rcases eq_or_ne y x with rfl | hyx
  · rw [if_pos rfl]
    rcases h.role with hx | hx <;> rw [hr] at hx <;> cases hx
    rfl
  · rw [if_neg hyx]
    split
    · rename_i hy
      rcases hf.fresh y hy.1 hy.2 with hold | hnew
      · rw [← h.data y hold hy.2, hr]
      · exact absurd (h.covers y r hr) hnew.1
    · exact hr

lemma covers_record (h : Slot m g s x ds) (hf : Filled m m' ds ds') : Covers m' (g.record s x ds') := by
  intro y r hr
  rw [Ledger.record] at hr
  dsimp only at hr
  split at hr
  · rename_i hy
    rw [hy]
    exact hf.marked x h.marked
  · split at hr
    · rename_i hy
      rcases hf.fresh y hy.1 hy.2 with hold | hnew
      · exact hf.marked y (h.covers y _ (h.data y hold hy.2))
      · exact hnew.2
    · exact hf.marked y (h.covers y r hr)

lemma writes (h : Slot m g s x ds) (hf : Filled m m' ds ds') (F : MapFile fm) (hs : kind s = some .plain) :
    Extending F kind g (.writeSector x (IndirectBlock.toSector ⟨ds'⟩)) (g.record s x ds') := by
  have hrange : ∀ y ∈ ds', y = EmptyBlock ∨ InDisk y := by
    intro y hy
    rcases eq_or_ne y EmptyBlock with he | hne
    · exact .inl he
    · rcases hf.fresh y hy hne with hold | hnew
      · exact .inr (h.covers y _ (h.data y hold hne)).1
      · exact .inr hnew.2.1
  have hback := IndirectBlock.ofSector_toSector ⟨ds'⟩ (hf.length.trans h.length) hrange
  refine .block hs (if_pos rfl) (fun y hy => ?_) (h.grows hf) rfl fun y r hr => ?_
  · rw [entries, hback, List.mem_filter] at hy
    have hne : y ≠ EmptyBlock := by simpa using hy.2
    rw [Ledger.record]
    dsimp only
    rw [if_neg (h.ne hf y hy.1 hne), if_pos ⟨hy.1, hne⟩]
  · rw [Ledger.record] at hr
    dsimp only at hr
    split at hr
    · exact .inr (.inl ‹_›)
    · split at hr
      · exact .inr (.inr (Option.some.inj hr).symm)
      · exact .inl hr

end Slot

lemma safe_blockAt (F : MapFile fm) {m : FreeMap} {d : ℤ} (hcov : Covers m g)
    (hd : d ≠ EmptyBlock → g.role d = some (.block s)) :
    Safe (extensionTerms F kind) (fun g' r => g' = g ∧ (r.1 ≠ EmptyBlock → Slot r.2.2 g s r.1 r.2.1.dataSectors))
      (FileHeader.blockAt d m) g := by
  have hT := Extending.of_keepsDisk F kind
  rw [FileHeader.blockAt]
  split
  · refine (safe_lift hT (Q := fun g' r => g' = g ∧ m.findAndSet = .ok r) fun r hr => ⟨rfl, hr⟩).bind ?_
    rintro ⟨x, m₁⟩ g₁ ⟨rfl, hr⟩
    refine .pure ⟨rfl, fun hx => ?_⟩
    obtain ⟨hfree, hmarked, hmono⟩ := Bitmap.findAndSet_marks hr hx
    have hnone : g₁.role x = none := by
      cases hrole : g₁.role x with
      | none => rfl
      | some r => exact absurd (hcov x r hrole) hfree
    exact ⟨fun y r hy => hmono y (hcov y r hy), .inr hnone, hmarked,
      fun y hy hne => absurd (List.eq_of_mem_replicate hy) hne,
      List.length_replicate⟩
  · rename_i hne
    rw [IndirectBlock.fetchFrom, bind_assoc]
    refine (safe_readSector hT (Q := fun g' data => g' = g ∧ ∀ y ∈ entries data, g.role y = some (.data s))
      fun g₁ hg data ha => ⟨hg, ?_⟩).bind ?_
    · have hg : g₁ = g := hg
      subst hg
      exact ha.2.2.2 s (hd hne)
    rintro data g₁ ⟨rfl, hdata⟩
    refine .pure
        ⟨rfl, fun _ => ⟨hcov, .inl (hd hne), hcov d _ (hd hne), fun y hy hy' => hdata y ?_, List.length_ofFn⟩⟩
    rw [entries, List.mem_filter]
    exact ⟨hy, by simpa using hy'⟩

lemma safe_allocateLoop (F : MapFile fm) (hs : kind s = some .plain) (need : ℤ) (slots : List ℤ) :
    ∀ {g : Ledger} (allocated : ℤ) {m : FreeMap}, Covers m g →
    (∀ b ∈ slots, b ≠ EmptyBlock → g.role b = some (.block s)) →
    Safe (extensionTerms F kind) (fun g' r => g.Grows g' ∧ Covers r.2.2 g' ∧
      ∀ b ∈ r.2.1, b ≠ EmptyBlock →
      g'.role b = some (.block s)) (FileHeader.allocateLoop need slots allocated m) g := by
  have hT := Extending.of_keepsDisk F kind
  induction slots with
  | nil => exact fun {g} _ {m} hcov hslots => .pure ⟨.refl g, hcov, hslots⟩
  | cons d slots ih =>
    intro g allocated m hcov hslots
    rw [FileHeader.allocateLoop]
    split
    case isFalse => exact .pure ⟨.refl g, hcov, hslots⟩
    refine (safe_blockAt F hcov (hslots d List.mem_cons_self)).bind ?_
    rintro ⟨x, block, m₁⟩ g₁ ⟨hg₁, hslot⟩
    subst hg₁
    refine (safe_assert hT (Q := fun g' _ => g' = g₁ ∧ x ≠ EmptyBlock)
        fun hb => ⟨rfl, of_decide_eq_true hb⟩).bind ?_
    rintro u g₂ ⟨hg₂, hx⟩
    subst hg₂
    have hslot := hslot hx
    refine (safe_lift hT (Q := fun g' r => g' = g₂ ∧ Filled m₁ r.2.2 block.dataSectors r.2.1.dataSectors)
      fun r hr =>
        ⟨rfl, IndirectBlock.allocate_filled hr⟩).bind ?_
    rintro ⟨t, ⟨ds⟩, m₂⟩ g₃ ⟨hg₃, hfilled⟩
    subst hg₃
    refine (safe_assert hT (Q := fun g' _ => g' = g₃) fun _ => rfl).bind ?_
    rintro u g₄ hg₄
    subst hg₄
    -- the write of the block is what gives the new sectors their roles
    refine .request fun g₅ hg₅ => ?_
    have hg₅ : g₅ = g₄ := hg₅
    subst hg₅
    have hgrows := hslot.grows hfilled
    refine ⟨g₅.record s x ds, hslot.writes hfilled F hs, fun _ _ => ?_⟩
    change Safe (extensionTerms F kind) _ (FileHeader.allocateLoop need slots (allocated + t) m₂ >>= fun r => _) _
    refine Safe.bind (ih (allocated + t) (hslot.covers_record hfilled) fun b hb hne =>
      hgrows _ _ (hslots b (List.mem_cons_of_mem d hb) hne)) ?_
    rintro ⟨a, ds', m₃⟩ g₆ ⟨hg₆, hcov₆, hslots₆⟩
    refine .pure ⟨hgrows.trans hg₆, hcov₆, fun b hb hne => ?_⟩
    rcases List.mem_cons.mp hb with rfl | hb
    · exact hg₆ _ _ (if_pos rfl)
    · exact hslots₆ b hb hne

lemma FileHeader.blocks_ofSector_toSector {h : FileHeader} (hr : ∀ b ∈ h.dataSectors, b = EmptyBlock ∨ InDisk b) :
    ∀ b ∈ (FileHeader.ofSector h.toSector).blocks, b ∈ h.blocks := by
  intro b hb
  rw [FileHeader.blocks, List.mem_filter] at hb
  obtain ⟨hb, hne⟩ := hb
  have hne : b ≠ EmptyBlock := by simpa using hne
  simp only [FileHeader.ofSector, FileHeader.toSector, Sector.word_ofWords] at hb
  obtain ⟨i, hi⟩ := List.mem_ofFn.mp hb
  change int32 (h.dataSectors.getD i EmptyBlock) = b at hi
  have hempty : int32 EmptyBlock = EmptyBlock := by decide
  by_cases hlt : i.val < h.dataSectors.length
  · rw [List.getD_eq_getElem _ _ hlt] at hi
    have hmem := List.getElem_mem hlt
    rcases hr _ hmem with he | hin
    · rw [he, hempty] at hi
      exact absurd hi.symm hne
    · have hbounds : -2147483648 ≤ h.dataSectors[i.val] ∧ h.dataSectors[i.val] < 2147483648 := by
        have h0 := hin.1
        have h1 := hin.2
        simp only [NumSectors] at h1
        omega
      rw [int32_of_bounds hbounds.1 hbounds.2] at hi
      subst hi
      rw [FileHeader.blocks, List.mem_filter]
      exact ⟨hmem, by simpa using hne⟩
  · rw [List.getD_eq_default _ _ (by omega), hempty] at hi
    exact absurd hi.symm hne

lemma safe_extend (F : MapFile fm) {f : OpenFile} (hs : kind f.hdrSector = some .plain)
    (hk : Known g f.hdrSector f.hdr)
    (hcov : Covers (mapOf g.map) g) (n : ℤ) :
    Safe (extensionTerms F kind) (fun g' f' => g.Grows g' ∧ Covers (mapOf g'.map) g' ∧ f'.hdrSector = f.hdrSector ∧
      Known g' f.hdrSector f'.hdr) (OpenFile.extend fm f n) g := by
  have hT := Extending.of_keepsDisk F kind
  have hslots : ∀ b ∈ f.hdr.dataSectors, b ≠ EmptyBlock → g.role b = some (.block f.hdrSector) := by
    intro b hb hne
    refine hk b ?_
    rw [FileHeader.blocks, List.mem_filter]
    exact ⟨hb, by simpa using hne⟩
  rw [OpenFile.extend]
  refine (safe_lift hT (Q := fun g' _ => g' = g) fun _ _ => rfl).bind ?_
  rintro b g₁ hg₁
  subst hg₁
  refine (safe_fetchFrom F b).bind ?_
  rintro m g₂ ⟨hg₂, hm⟩
  subst hg₂ hm
  -- `Allocate` on the copy of the map
  have halloc : Safe (extensionTerms F kind) (fun g' r => r.1 = true → g₂.Grows g' ∧ Covers r.2.2 g' ∧
      Known g' f.hdrSector r.2.1) (f.hdr.allocate (mapOf g₂.map) n) g₂ := by
    rw [FileHeader.allocate]
    refine (safe_lift hT (Q := fun g' _ => g' = g₂) fun _ _ => rfl).bind ?_
    rintro count g₃ hg₃
    subst hg₃
    split
    · exact .pure fun he => by cases he
    refine (safe_allocateLoop F hs _ _ 0 hcov hslots).bind ?_
    rintro ⟨allocated, ds, m'⟩ g₄ ⟨hgrows, hcov₄, hds⟩
    refine (safe_assert hT (Q := fun g' _ => g' = g₄) fun _ => rfl).bind ?_
    rintro u g₅ hg₅
    subst hg₅
    refine .pure fun _ => ⟨hgrows, hcov₄, fun b hb => ?_⟩
    rw [FileHeader.blocks, List.mem_filter] at hb
    exact hds b hb.1 (by simpa using hb.2)
  refine halloc.bind ?_
  rintro ⟨success, hdr, m'⟩ g₃ hdone
  refine (safe_assert hT (Q := fun g' _ => g' = g₃ ∧ success = true) fun he => ⟨rfl, he⟩).bind ?_
  rintro u g₄ ⟨hg₄, he⟩
  subst hg₄
  obtain ⟨hgrows, hcov', hknown⟩ := hdone he
  have hrange : ∀ b ∈ hdr.dataSectors, b = EmptyBlock ∨ InDisk b := by
    intro b hb
    rcases eq_or_ne b EmptyBlock with he | hne
    · exact .inl he
    · have hblock : b ∈ hdr.blocks := by
        rw [FileHeader.blocks, List.mem_filter]
        exact ⟨hb, by simpa using hne⟩
      exact .inr (hcov' b _ (hknown b hblock)).1
  refine Safe.bind (Q := fun g' _ => g' = g₄) (.request fun g₅ hg₅ => ?_) ?_
  · have hg₅ : g₅ = g₄ := hg₅
    subst hg₅
    exact ⟨g₅, .header hs fun b hb => hknown b (FileHeader.blocks_ofSector_toSector hrange b hb),
        fun _ _ => .pure rfl⟩
  rintro u g₅ hg₅
  subst hg₅
  refine (safe_writeBack F m').bind ?_
  rintro u g₆ ⟨hrole, hmap⟩
  have hsame : g₅.Grows g₆ := fun x r hx => by rw [hrole]; exact hx
  refine .pure ⟨hgrows.trans hsame, fun x r hx => ?_, rfl, hknown.mono hsame⟩
  rw [hmap]
  rw [hrole] at hx
  exact hcov' x r hx

end Extend

end NachosFileSys
