import NachosFileSys.Opening

namespace NachosFileSys

open Lib.Programs Lib.Bytes

def formatted (s : ℤ) : Option Kind :=
  if s = FreeMapSector then some .map else if s = DirectorySector then some .dir else none

lemma formatted_cases {s : ℤ} {c : Kind} (h : formatted s = some c) :
    (s = FreeMapSector ∧ c = .map) ∨ s = DirectorySector ∧ c = .dir := by
  rw [formatted] at h
  split at h
  · exact Or.inl ⟨‹_›, (Option.some.inj h).symm⟩
  · split at h
    · exact Or.inr ⟨‹_›, (Option.some.inj h).symm⟩
    · cases h

lemma mark_headers : ∃ m₀ m₁ : FreeMap, (Bitmap.empty 1024).mark FreeMapSector = .ok m₀ ∧
    m₀.mark DirectorySector = .ok m₁ ∧ m₁.free.length = 1022 ∧
    Marked m₁ FreeMapSector ∧ Marked m₁ DirectorySector := by
  obtain ⟨m₀, h₀, hb₀⟩ := Bitmap.mark_spec (Bitmap.empty 1024) 0 (by decide)
  obtain ⟨m₁, h₁, hb₁⟩ := Bitmap.mark_spec m₀ 1 (by decide)
  have hbit : ∀ j < 1024, m₁.bit j = (decide (j = 0) || decide (j = 1)) := by
    intro j hj
    rw [hb₁ j hj, hb₀ j hj, Bitmap.bit_empty j hj, Bool.false_or]
  refine ⟨m₀, m₁, h₀, h₁, ?_, ⟨⟨by decide, by decide⟩, by rw [hbit _ (by decide)]; rfl⟩,
    ⟨⟨by decide, by decide⟩, by rw [hbit _ (by decide)]; rfl⟩⟩
  have hfree : m₁.free = (List.range 1024).filter fun j => !(decide (j = 0) || decide (j = 1)) := by
    rw [Bitmap.free]
    exact List.filter_congr fun j hj => by rw [hbit j (List.mem_range.mp hj)]
  rw [hfree, List.range_eq_range', show 1024 = 1022 + 1 + 1 from rfl, List.range'_succ, List.range'_succ,
    List.filter_cons_of_neg (by decide), List.filter_cons_of_neg (by decide), List.filter_eq_self.mpr,
    List.length_range']
  intro j hj
  have := (List.mem_range'_1.mp hj).1
  simp
  omega

lemma storage_formatted {d : Disk} {m₁ m₂ m₃ : FreeMap} {mapHdr dirHdr : FileHeader} {bs secs bs' secs' : List ℤ}
    (h0 : Marked m₁ FreeMapSector) (h1 : Marked m₁ DirectorySector) (ht : Taken m₁ m₂ (bs ++ secs))
    (ht' : Taken m₂ m₃ (bs' ++ secs')) (hon : mapHdr.On d bs secs) (hon' : dirHdr.On d bs' secs')
    (hfits : mapHdr.Fits) (hfits' : dirHdr.Fits) (hlen : mapHdr.numBytes = FreeMapFileSize)
    (hback : 1 ≤ secs.length) :
    ∀ d', d' = Function.update (Function.update d FreeMapSector mapHdr.toSector) DirectorySector dirHdr.toSector →
      Storage d' m₃ formatted ∧ hdrAt d' DirectorySector = dirHdr ∧ dataAt d' DirectorySector = secs' := by
  rintro d' rfl
  have hne : FreeMapSector ≠ DirectorySector := by decide
  have hall := ht.trans ht'
  have hnd := List.nodup_append.mp hall.nodup
  -- the sectors of the two files are not the header sectors
  have hout : ∀ x ∈ bs ++ secs ++ (bs' ++ secs'), x ≠ FreeMapSector ∧ x ≠ DirectorySector := fun x hx =>
    ⟨fun h => (marked_iff.mp h0).2 (h ▸ hall.mem_free hx), fun h => (marked_iff.mp h1).2 (h ▸ hall.mem_free hx)⟩
  have hframe : ∀ x ∈ bs ++ secs ++ (bs' ++ secs'),
      Function.update (Function.update d FreeMapSector mapHdr.toSector)
      DirectorySector dirHdr.toSector x = d x := fun x hx => by
    rw [Function.update_of_ne (hout x hx).2, Function.update_of_ne (hout x hx).1]
  set d' :=
    Function.update (Function.update d FreeMapSector mapHdr.toSector) DirectorySector dirHdr.toSector with hd'
  have hh0 : hdrAt d' FreeMapSector = mapHdr := by
    rw [hdrAt, hd', Function.update_of_ne hne, Function.update_self, FileHeader.ofSector_toSector _ hfits]
  have hh1 : hdrAt d' DirectorySector = dirHdr := by
    rw [hdrAt, hd', Function.update_self, FileHeader.ofSector_toSector _ hfits']
  obtain ⟨hf0, hb0, hs0⟩ := FileAt.of_on (d := d') h0.1 (by
    rw [hh0]
    exact hon.congr fun b hb => hframe b (List.mem_append_left _ (List.mem_append_left _ hb)))
  obtain ⟨hf1, hb1, hs1⟩ := FileAt.of_on (d := d') h1.1 (by
    rw [hh1]
    exact hon'.congr fun b hb => hframe b (List.mem_append_right _ (List.mem_append_left _ hb)))
  have ho0 : owned d' FreeMapSector = FreeMapSector :: (bs ++ secs) := by rw [owned, hb0, hs0]
  have ho1 : owned d' DirectorySector = DirectorySector :: (bs' ++ secs') := by rw [owned, hb1, hs1]
  have hn0 : (owned d' FreeMapSector).Nodup := by
    rw [ho0]
    exact List.nodup_cons.mpr ⟨fun h => (hout _ (List.mem_append_left _ h)).1 rfl, hnd.1⟩
  have hn1 : (owned d' DirectorySector).Nodup := by
    rw [ho1]
    exact List.nodup_cons.mpr ⟨fun h => (hout _ (List.mem_append_right _ h)).2 rfl, hnd.2.1⟩
  have hapart : ∀ x ∈ owned d' FreeMapSector, x ∉ owned d' DirectorySector := by
    intro x hx hx'
    rw [ho0] at hx
    rw [ho1] at hx'
    rcases List.mem_cons.mp hx with rfl | hx <;> rcases List.mem_cons.mp hx' with hx' | hx'
    · exact hne hx'
    · exact (hout _ (List.mem_append_right _ hx')).1 rfl
    · exact (hout _ (List.mem_append_left _ hx)).2 hx'
    · exact hnd.2.2 x hx x hx' rfl
  have hmark : ∀ x ∈ bs ++ secs ++ (bs' ++ secs'), Marked m₃ x := fun x hx => hall.marked hx
  refine ⟨⟨fun {s c} hk => ?_, fun {s c} hk => ?_, fun {s s' c c'} hk hk' hss => ?_,
    fun {s c} hk x hx => ?_, rfl, ?_, ?_⟩,
    hh1, hs1⟩
  · rcases formatted_cases hk with ⟨rfl, -⟩ | ⟨rfl, -⟩
    · exact hf0
    · exact hf1
  · rcases formatted_cases hk with ⟨rfl, -⟩ | ⟨rfl, -⟩
    · exact hn0
    · exact hn1
  · rcases formatted_cases hk with ⟨rfl, -⟩ | ⟨rfl, -⟩ <;> rcases formatted_cases hk' with ⟨rfl, -⟩ | ⟨rfl, -⟩
    · exact absurd rfl hss
    · exact hapart
    · exact fun x hx hx' => hapart x hx' hx
    · exact absurd rfl hss
  · rcases formatted_cases hk with ⟨rfl, -⟩ | ⟨rfl, -⟩
    · rw [ho0] at hx
      rcases List.mem_cons.mp hx with rfl | hx
      · exact hall.marked_mono h0
      · exact hmark x (List.mem_append_left _ hx)
    · rw [ho1] at hx
      rcases List.mem_cons.mp hx with rfl | hx
      · exact hall.marked_mono h1
      · exact hmark x (List.mem_append_right _ hx)
  · rw [hh0]
    exact hlen
  · rw [hs0]
    exact hback

/-- What `FileSystem(TRUE)` leaves on the disk: a sound state with an empty root directory. -/
structure Formatted (fs : FileSystem) (d : Disk) : Prop where
  sound : Sound fs d formatted
  free : (freeMapAt d).free.length = 1017
  slots : (tableAt d DirectorySector).length = NumDirEntries
  unused : ∀ e ∈ tableAt d DirectorySector, e.inUse = 0
  uncut : ¬Cuts (hdrAt d DirectorySector).numBytes
  numSectors : (hdrAt d DirectorySector).numSectors = 2

lemma Formatted.nextWhole {fs : FileSystem} {d : Disk} (hf : Formatted fs d) : NextWhole d DirectorySector :=
  fun h => absurd h hf.uncut

lemma names_formatted {tables : ℤ → List DirectoryEntry} (h : ∀ e ∈ tables DirectorySector, e.inUse = 0) :
    Names tables formatted := by
  have hdir : ∀ {s}, formatted s = some .dir → s = DirectorySector := by
    intro s hk
    rcases formatted_cases hk with ⟨-, h⟩ | ⟨rfl, -⟩
    · cases h
    · rfl
  have hnot : ∀ {s e}, formatted s = some .dir → e ∈ tables s → e.inUse = 0 := by
    intro s e hk he
    rw [hdir hk] at he
    exact h e he
  exact ⟨rfl, fun hk he hu => absurd (hnot hk he) hu,
    fun hk _ he _ ho _ _ => absurd (hnot hk (List.mem_of_getElem? he)) ho.1,
    fun hk he ho => absurd (hnot hk he) ho.1,
    fun hk he _ hu _ _ => absurd (hnot hk (List.mem_of_getElem? he)) hu⟩

lemma exec_format (k : Kernel) :
    ∃ fs k', exec FileSystem.format k = .ok (fs, k') ∧ Formatted fs k'.disk ∧ (AtRest k.maps → AtRest k'.maps) ∧
      ((∀ s, k.maps .openFileCount s = none) → FirstCounts k'.maps) := by
  obtain ⟨dir, k₁, e₁, hd₁, hm₁, hlen, hnew⟩ := Directory.exec_new k
  obtain ⟨p, k₂, e₂, hp, hd₂, hm₂⟩ := FileHeader.exec_new k₁
  obtain ⟨q, k₃, e₃, hq, hd₃, hm₃⟩ := FileHeader.exec_new k₂
  obtain ⟨m₀, m₁, hmark₀, hmark₁, hfree, hmap, hroot⟩ := mark_headers
  -- the two allocations
  have hn : sectorsNeeded FreeMapFileSize = 1 := by decide
  have hn' : sectorsNeeded DirectoryFileSize = 2 := by decide
  obtain ⟨ds, bs, secs, m₂, d₄, e₄, hon, hsecs, ht, hframe⟩ :=
    FileHeader.allocate_ok (FileHeader.fresh_on p k₃.disk)
    List.nodup_nil (m := m₁) (by simp) FreeMapFileSize (by rw [hn]; decide) (by
      rw [hn, hfree]
      decide)
  simp only [List.nil_append] at hon
  have hbs : bs.length = 1 := by rw [hon.stored.blocks_length, hsecs, hn]
  have hfree₂ : m₂.free.length = 1020 := by
    have := ht.length
    rw [List.length_append, hbs, hsecs, hn] at this
    omega
  obtain ⟨ds', bs', secs', m₃, d₅, e₅, hon', hsecs', ht', hframe'⟩ := FileHeader.allocate_ok
    (k := { k₃ with disk := d₄ }) (FileHeader.fresh_on q d₄) List.nodup_nil (m := m₂) (by simp) DirectoryFileSize
    (by rw [hn']; decide) (by
      rw [hn', hfree₂]
      decide)
  simp only [List.nil_append] at hon'
  have hfits := FileHeader.grown_fits (h := .fresh p) hp hon
  have hfits' := FileHeader.grown_fits (h := .fresh q) hq hon'
  have hbs' : bs'.length = 1 := by rw [hon'.stored.blocks_length, hsecs', hn']
  have hon₅ : ((FileHeader.fresh p).grown FreeMapFileSize ds).On d₅ bs secs := hon.congr fun b hb =>
    hframe' b (by simp) fun hb' =>
      ht.not_mem_free (List.mem_append_left _ hb) (ht'.mem_free (List.mem_append_left _ hb'))
  -- the headers
  have hbytes : ((FileHeader.fresh p).grown FreeMapFileSize ds).numBytes = FreeMapFileSize :=
    FileHeader.fresh_grown_numBytes (by decide)
  have hbytes' : ((FileHeader.fresh q).grown DirectoryFileSize ds').numBytes = DirectoryFileSize :=
    FileHeader.fresh_grown_numBytes (by decide)
  obtain ⟨hst, hhdr, hdata⟩ := storage_formatted hmap hroot ht ht' hon₅ hon' hfits hfits' hbytes (by omega) _ rfl
  set d₇ := Function.update (Function.update d₅ FreeMapSector
    ((FileHeader.fresh p).grown FreeMapFileSize ds).toSector) DirectorySector
    ((FileHeader.fresh q).grown DirectoryFileSize ds').toSector with hd₇
  have hkr : formatted DirectorySector = some .dir := rfl
  have hclean₇ : ¬Cuts (hdrAt d₇ DirectorySector).numBytes := by
    rw [hhdr, hbytes']
    exact fun h => absurd h.2.1 (lt_irrefl _)
  have hdirAt : DirAt d₇ DirectorySector := ⟨hst.file hkr, by
    rw [hhdr, hdata, hsecs', hn', hbytes']
    decide, fun h => absurd h hclean₇⟩
  have e₆ :=
    exec_write_inDisk hmap.1 ((FileHeader.fresh p).grown FreeMapFileSize ds).toSector ⟨d₅, k₃.maps, k₃.heap⟩
  have e₇ := exec_write_inDisk hroot.1 ((FileHeader.fresh q).grown DirectoryFileSize ds').toSector
    ⟨Function.update d₅ FreeMapSector ((FileHeader.fresh p).grown FreeMapFileSize ds).toSector, k₃.maps, k₃.heap⟩
  rw [← FileHeader.writeBack] at e₆ e₇
  obtain ⟨k₈, e₈, hd₈, -, hr₈, -, hc₈⟩ := OpenFile.exec_new hmap.1 ⟨d₇, k₃.maps, k₃.heap⟩
  obtain ⟨k₉, e₉, hd₉, -, hr₉, -, hc₉⟩ := OpenFile.exec_new hroot.1 k₈
  dsimp only at hd₈ hr₈ hc₈
  have hdisk₉ : k₉.disk = d₇ := hd₉.trans hd₈
  -- the free map and the directory
  have hst₉ : Storage k₉.disk m₃ formatted := by rw [hdisk₉]; exact hst
  have hcur₉ : (OpenFile.mk (hdrAt d₇ FreeMapSector) 0 FreeMapSector).Current k₉.disk := by rw [hdisk₉]; rfl
  obtain ⟨k₁₀, e₁₀, hm₁₀, hout₁₀, hfm₁₀⟩ := exec_writeBack_map hst₉ hcur₉ rfl m₃
  have hst₁₀ := hst₉.write hst₉.map hout₁₀
  have hstr₁₀ := hst₉.structure_of_write hst₉.map hout₁₀ hkr
  have hdir₁₀ : DirAt k₁₀.disk DirectorySector := (hdisk₉ ▸ hdirAt).congr
    (hst₉.owned_of_write hst₉.map hout₁₀ (by decide) hkr)
  have hcur₁₀ : (OpenFile.mk (hdrAt k₈.disk DirectorySector) 0 DirectorySector).Current k₁₀.disk := by
    rw [OpenFile.Current, hdrAt_congr hstr₁₀.1, hd₉]
  have hhdr₁₀ : (hdrAt k₁₀.disk DirectorySector).numBytes = DirectoryFileSize := by
    rw [hdrAt_congr hstr₁₀.1, hdisk₉, hhdr, hbytes']
  obtain ⟨k', e', hm', hout', htab'⟩ :=
    exec_writeBack_directory hdir₁₀.file hdir₁₀.backed (hst₁₀.nodup hkr) hcur₁₀ rfl
    dir hlen.ge (by rw [hlen]; decide)
  have htable : tableAt k'.disk DirectorySector = dir.table := by
    rw [htab'.1, hhdr₁₀]
    exact List.take_of_length_le (by rw [hlen]; decide)
  have hmap' : freeMapAt k'.disk = m₃ := by rw [hst₁₀.freeMapAt_of_write hkr (by decide) hout', hfm₁₀]
  have hst' := hst₁₀.write hkr hout'
  have hstr' := hst₁₀.structure_of_write hkr hout' hst₁₀.map
  have huncut : ¬Cuts (hdrAt k'.disk DirectorySector).numBytes := by
    rw [hdrAt_congr (hst₁₀.structure_of_write hkr hout' hkr).1, hhdr₁₀]
    exact fun h => absurd h.2.1 (lt_irrefl _)
  refine ⟨⟨⟨hdrAt d₇ FreeMapSector, 0, FreeMapSector⟩, ⟨hdrAt k₈.disk DirectorySector, 0, DirectorySector⟩⟩,
    k', ?_,
    ⟨⟨⟨?_, ?_, fun {s} hk => ?_, ?_, rfl⟩, fun {s} hk => ?_⟩, ?_, ?_, ?_, huncut, ?_⟩, ?_, ?_⟩
  · rw [FileSystem.format, Bitmap.new_eq (by decide), exec_bind_of_ok (exec_lift_ok _ _), exec_bind_of_ok e₁,
      exec_bind_of_ok e₂, exec_bind_of_ok e₃, hmark₀, exec_bind_of_ok (exec_lift_ok _ _), hmark₁,
      exec_bind_of_ok (exec_lift_ok _ _), exec_bind_of_ok e₄]
    dsimp only
    rw [exec_bind_of_ok (exec_assert _ _), exec_bind_of_ok e₅]
    dsimp only
    rw [exec_bind_of_ok (exec_assert _ _), exec_bind_of_ok e₆,
      exec_bind_of_ok e₇, exec_bind_of_ok e₈, exec_bind_of_ok e₉, exec_bind_of_ok e₁₀,
      exec_bind_of_ok e', exec_pure]
  · rw [hmap']
    exact hst'
  · exact names_formatted (by rw [htable]; exact hnew)
  · rcases formatted_cases hk with ⟨-, h⟩ | ⟨rfl, -⟩
    · cases h
    · have hstr := hst₁₀.structure_of_write hkr hout' hkr
      rw [hdrAt_congr hstr.1, dataAt_congr hstr.1 hstr.2]
      exact hdir₁₀.backed
  · have hstr := hst₉.structure_of_write hst₉.map hout₁₀ hst₉.map
    rw [OpenFile.Current, hdrAt_congr hstr'.1, hdrAt_congr hstr.1, hdisk₉]
  · rcases formatted_cases hk with ⟨-, h⟩ | ⟨rfl, -⟩
    · cases h
    · exact fun hcut => absurd hcut huncut
  · have := ht'.length
    rw [List.length_append, hbs', hsecs', hn'] at this
    rw [hmap']
    omega
  · rw [htable]
    exact hlen
  · rw [htable]
    exact hnew
  · rw [hdrAt_congr (hst₁₀.structure_of_write hkr hout' hkr).1, hdrAt_congr hstr₁₀.1, hdisk₉, hhdr]
    change int32 (0 + divRoundUp DirectoryFileSize SectorSize) = 2
    decide
  · rw [hm', hm₁₀, ← hm₁, ← hm₂, ← hm₃]
    exact fun hr => hr₉ (hr₈ hr)
  · intro hnone
    rw [hm', hm₁₀]
    rw [← hm₁, ← hm₂, ← hm₃] at hnone
    exact firstCounts_of_mount hnone hc₈ hc₉

end NachosFileSys
