import NachosFileSys.Interleavings
import NachosFileSys.FullPath

namespace NachosFileSys

open Lib.Programs Lib.Bytes Lib.Results Lib.Runs Lib.Threads

lemma set_getElem?_self {α : Type} {l : List α} {i : ℕ} {a : α} (h : l[i]? = some a) : l.set i a = l := by
  obtain ⟨hlt, rfl⟩ := List.getElem?_eq_some_iff.mp h
  exact List.set_getElem_self hlt

lemma exec_request_inv {α : Type} {e : Request} {c : e.Reply → Nachos α} {k k' : Kernel} {a : α}
    (h : exec (.request e c) k = .ok (a, k')) :
    ∃ r k₁, Kernel.handle e k = .ok (r, k₁) ∧ exec (c r) k₁ = .ok (a, k') := by
  rw [exec, Prog.run_request] at h
  cases hh : Kernel.handle e k with
  | error fault =>
    rw [hh] at h
    cases h
  | ok x =>
    rw [hh] at h
    exact ⟨x.1, x.2, rfl, h⟩

namespace Point

variable {fm f : OpenFile} {k k' : Kernel} {ts : List Point}
  {i : ℕ} {p : Point} {ok : Machine → ℕ × Command → Prop}
  {src : List Byte} {n : ℤ}

lemma move_of_ask {e : Request} {c : e.Reply → Point} {r : e.Reply} (hask : p.ask fm = some ⟨e, c⟩)
    (hh : Kernel.handle e k = .ok (r, k')) : p.move fm .step k = some (k', c r) := by
  rw [move.eq_def]
  simp only [hask, hh]

lemma move_write (fm f : OpenFile) (k : Kernel) (src : List Byte) (n : ℤ) :
    (idle f).move fm (.write src n) k = some (k, startWrite f src n) := rfl

lemma ask_eq_none (h : p.ask fm = none) : p = .absent ∨ (∃ f, p = .idle f) ∨ (∃ f, p = .opening (.pure f)) ∨
    p = .closing (.pure ()) := by
  cases p with
  | absent => exact .inl rfl
  | idle f => exact .inr (.inl ⟨f, rfl⟩)
  | opening rest =>
    cases rest with
    | pure f => exact .inr (.inr (.inl ⟨f, rfl⟩))
    | request => cases h
  | closing rest =>
    cases rest with
    | pure u => exact .inr (.inr (.inr rfl))
    | request => cases h
  | reading f rest | writing f rest => cases rest <;> cases h
  | arriving | enter | leave | beyond | extending | locking => cases h

lemma run_alone {P : Nachos (Option OpenFile)} : ∀ {p : Point} {k : Kernel} {ts : List Point}, p.program fm = P →
    exec P k = .ok (some f, k') → ts[i]? = some p → (∀ t z, ok ⟨t, ts.set i z⟩ (i, .step)) →
    Reaches (Pool.Moves (move fm)) ok ⟨k, ts⟩ ⟨k', ts.set i (.idle f)⟩ := by
  induction P with
  | pure o =>
    intro p k ts hp he hi hok
    cases he
    cases hask : p.ask fm with
    | some a =>
      rw [ask_program hask] at hp
      cases hp
    | none =>
      rcases ask_eq_none hask with rfl | ⟨f', rfl⟩ | ⟨f', rfl⟩ | rfl
      · cases hp
      · cases hp
        rw [set_getElem?_self hi]
        exact .refl
      · cases hp
        have hstay := hok k' (.opening (.pure f))
        rw [set_getElem?_self hi] at hstay
        exact .step (i, .step) .refl hstay (.mk hi rfl)
      · cases hp
  | request e c ih =>
    intro p k ts hp he hi hok
    have hstay := hok k p
    rw [set_getElem?_self hi] at hstay
    cases hask : p.ask fm with
    | none => rcases ask_eq_none hask with rfl | ⟨f', rfl⟩ | ⟨f', rfl⟩ | rfl <;> cases hp
    | some a =>
      obtain ⟨e', c'⟩ := a
      have hprog := ask_program hask
      rw [hp] at hprog
      cases hprog
      obtain ⟨r, k₁, hh, hrest⟩ := exec_request_inv he
      have hlt := (List.getElem?_eq_some_iff.mp hi).1
      have hrun := ih r rfl hrest (List.getElem?_set_self hlt) fun t z => by
        rw [List.set_set]
        exact hok t z
      rw [List.set_set] at hrun
      exact Reaches.trans (.step (i, .step) .refl hstay (.mk hi (move_of_ask hask hh))) hrun

lemma run_write {f' : OpenFile} {r : ℤ} (he : exec (OpenFile.write fm f src n) k = .ok ((r, f'), k'))
    (hi : ts[i]? = some (.idle f)) (hcall : ok ⟨k, ts⟩ (i, .write src n))
    (hok : ∀ t z, ok ⟨t, ts.set i z⟩ (i, .step)) :
    Reaches (Pool.Moves (move fm)) ok ⟨k, ts⟩ ⟨k', ts.set i (.idle f')⟩ := by
  have hlt := (List.getElem?_eq_some_iff.mp hi).1
  have hset : (ts.set i (startWrite f src n))[i]? = some (startWrite f src n) := List.getElem?_set_self hlt
  have hrun : Reaches _ ok _ _ := run_alone (startWrite_program f src n) (exec_bind_of_ok he _) hset fun t z => by
    rw [List.set_set]
    exact hok t z
  rw [List.set_set] at hrun
  exact Reaches.trans (.step (i, .write src n) .refl hcall (.mk hi (move_write ..))) hrun

lemma run_part {α : Type} {q : Nachos α} {g : α → Nachos OpenFile} {a : α} :
    ∀ {p : Point} {k : Kernel} {ts : List Point},
    p.ask fm = some (extendAsk f src n (q >>= g)) → exec q k = .ok (a, k') → ts[i]? = some p →
    (∀ t z, ok ⟨t, ts.set i z⟩ (i, .step)) → ∃ z, z.ask fm = some (extendAsk f src n (g a)) ∧
      Reaches (Pool.Moves (move fm)) ok ⟨k, ts⟩ ⟨k', ts.set i z⟩ := by
  induction q with
  | pure a' =>
    intro p k ts hask he hi hok
    cases he
    refine ⟨p, hask, ?_⟩
    rw [set_getElem?_self hi]
    exact .refl
  | request e c ih =>
    intro p k ts hask he hi hok
    have hstay := hok k p
    rw [set_getElem?_self hi] at hstay
    obtain ⟨r, k₁, hh, hrest⟩ := exec_request_inv he
    have hlt := (List.getElem?_eq_some_iff.mp hi).1
    obtain ⟨z, hz, hrun⟩ := ih r (p := .extending f src n (c r >>= g)) rfl hrest (List.getElem?_set_self hlt)
      fun t z => by
        rw [List.set_set]
        exact hok t z
    rw [List.set_set] at hrun
    exact ⟨z, hz, Reaches.trans (.step (i, .step) .refl hstay (.mk hi (move_of_ask hask hh))) hrun⟩

lemma program_of_extendAsk {rest : Nachos OpenFile} (h : p.ask fm = some (extendAsk f src n rest)) :
    p.program fm = (extending f src n rest).program fm := by
  cases hask : extendAsk f src n rest with
  | mk e c =>
    rw [hask] at h
    rw [ask_program h, extendAsk_program f src n hask]

end Point

lemma Taken.perm_of_length {m m₁ m₂ : FreeMap} {l₁ l₂ : List ℤ} (h₁ : Taken m m₁ l₁) (h₂ : Taken m m₂ l₂)
    (hl : l₁.length = l₂.length) : l₁.Perm l₂ := by
  obtain ⟨used₁, hf₁, hp₁⟩ := h₁
  obtain ⟨used₂, hf₂, hp₂⟩ := h₂
  have hused : used₁.length = used₂.length := by
    rw [← sectors_length used₁, ← sectors_length used₂, hp₁.length_eq, hp₂.length_eq, hl]
  rw [hf₁] at hf₂
  obtain ⟨rfl, -⟩ := List.append_inj hf₂ hused
  exact hp₁.symm.trans hp₂

section Extend

variable {fm f : OpenFile} {k : Kernel} {m : FreeMap} {kind : ℤ → Option Kind}
  {src : List Byte} {n : ℕ} {d d' : Disk}
  {s : ℤ} {new : List ℤ}

def Beyond (d : Disk) (s : ℤ) (new : List ℤ) (d' : Disk) : Prop :=
  ∀ x, x ∉ new → x ≠ s → x ∉ dataAt d FreeMapSector → d' x = d x

lemma Storage.beyond (hs : Storage d m kind) (hk : kind s = some .plain) (hnew : ∀ x ∈ new, x ∈ sectors m.free)
    (hd : Beyond d s new d') {t : ℤ} {c : Kind} (ht : kind t = some c) (hne : t ≠ s) :
    (t ≠ FreeMapSector → ∀ y ∈ owned d t, d' y = d y) ∧ d' t = d t ∧ ∀ b ∈ blocksAt d t, d' b = d b := by
  have hkeep : ∀ y ∈ owned d t, y ∉ dataAt d FreeMapSector → d' y = d y := by
    intro y hy hmap
    refine hd y (fun hn => hs.not_owned_of_free ht (hnew y hn) hy) ?_ hmap
    rintro rfl
    exact hs.apart ht hk hne _ hy (mem_owned_self _ _)
  by_cases h0 : t = FreeMapSector
  · subst h0
    exact ⟨fun h => absurd rfl h, hkeep _ (mem_owned_self _ _) (hs.header_not_data ht), fun b hb =>
      hkeep b (mem_owned_block hb) (hs.block_not_data ht hb)⟩
  · have hall : ∀ y ∈ owned d t, d' y = d y := fun y hy =>
      hkeep y hy fun hy' => hs.apart ht hs.map h0 y hy (mem_owned_data hy')
    exact ⟨fun _ => hall, hall _ (mem_owned_self _ _), fun b hb => hall b (mem_owned_block hb)⟩

lemma Storage.forget (hs : Storage d m kind) (hk : kind s = some .plain) (hnew : ∀ x ∈ new, x ∈ sectors m.free)
    (hd : Beyond d s new d') : Storage d' m (Function.update kind s none) := by
  have hold : ∀ {t c}, Function.update kind s none t = some c → kind t = some c ∧ t ≠ s := by
    intro t c ht
    by_cases hts : t = s
    · subst hts
      rw [Function.update_self] at ht
      cases ht
    · rw [Function.update_of_ne hts] at ht
      exact ⟨ht, hts⟩
  have hc : ∀ {t c}, Function.update kind s none t = some c → FileAt d' t ∧ owned d' t = owned d t := fun ht =>
    (hs.file (hold ht).1).congr (hs.beyond hk hnew hd (hold ht).1 (hold ht).2).2.1
      (hs.beyond hk hnew hd (hold ht).1 (hold ht).2).2.2
  have hs0 : FreeMapSector ≠ s := by
    rintro rfl
    rw [hs.map] at hk
    cases hk
  have hmap := hs.beyond hk hnew hd hs.map hs0
  refine ⟨fun ht => (hc ht).1, fun ht => ?_, fun ht ht' hne => ?_, fun ht => ?_, ?_, ?_, ?_⟩
  · rw [(hc ht).2]
    exact hs.nodup (hold ht).1
  · rw [(hc ht).2, (hc ht').2]
    exact hs.apart (hold ht).1 (hold ht').1 hne
  · rw [(hc ht).2]
    exact hs.marked (hold ht).1
  · rw [Function.update_of_ne hs0]
    exact hs.map
  · rw [hdrAt_congr hmap.2.1]
    exact hs.mapLength
  · rw [dataAt_congr hmap.2.1 hmap.2.2]
    exact hs.mapBacked

structure OpenFile.Fresh (f : OpenFile) (k : Kernel) (kind : ℤ → Option Kind) : Prop where
  plain : kind f.hdrSector = some .plain
  empty : f.Follows k.disk [] []
  length : f.hdr.numBytes = 0
  start : f.seekPosition = 0
  semaphore : k.maps .semaphoreWrite f.hdrSector = some 1

structure Grown (k : Kernel) (kind : ℤ → Option Kind) (m : FreeMap)
    (f : OpenFile) (n : ℕ) (nbs nsecs : List ℤ) (k' : Kernel) :
    Prop where
  maps : k'.maps = k.maps
  data : nsecs.length = sectorsNeeded n
  count : nbs.length = (nsecs.length + 31) / 32
  taken : Taken m (freeMapAt k'.disk) (nbs ++ nsecs)
  blocks : blocksAt k'.disk f.hdrSector = nbs
  owned : owned k'.disk f.hdrSector = f.hdrSector :: (nbs ++ nsecs)
  storage : Storage k'.disk (freeMapAt k'.disk) kind
  frame : Beyond k.disk f.hdrSector (nbs ++ nsecs) k'.disk

lemma exec_extendFrom_write (hs : Storage k.disk m kind) (hfm : fm.Current k.disk)
    (h0 : fm.hdrSector = FreeMapSector)
    (hf : f.Fresh k kind) (hfit : Fits 0 n m.free.length) (hn : n < 2147483648) (hsrc : n ≤ src.length) :
    ∃ f' r k' nbs nsecs, exec (OpenFile.extendFrom fm f n m >>= fun f => f.writeLocked src n) k =
    .ok ((r, f'), k') ∧
      Grown k kind m f n nbs nsecs k' := by
  obtain ⟨hk, hempty, hlen, hseek, hsem⟩ := hf
  obtain ⟨ds, nbs, nsecs, k₁, he, hm, hcount, ht, hx, hout⟩ :=
    OpenFile.exec_extendFrom hs hfm h0 hk hempty (n := n) hfit
  rw [List.nil_append, List.nil_append] at hx
  have hcap := hfit.1
  obtain ⟨hnum, hlast⟩ := FileHeader.grown_fileLength_le ds hlen.le
    (show -2147483648 ≤ f.hdr.numBytes + (n : ℤ) by omega) (by omega)
  have hcur : (OpenFile.mk (f.hdr.grown n ds) f.seekPosition f.hdrSector).Current k₁.disk := hx.hdr.symm
  have hback := hcur.backed (hx.storage.file hk) (by
    dsimp only
    rw [hx.hdr, hx.data, hcount]
    omega)
  have htrans : transferred (f.hdr.grown n ds).fileLength 0 n = n := by
    rw [transferred, FileHeader.fileLength, hnum, hlen]
    omega
  obtain ⟨k', hw, hm', hframe, -⟩ :=
    OpenFile.exec_writeLocked (by rw [hm]; exact hsem) hback (hx.storage.data_nodup hk) src n 0
    hseek (by omega) (by rw [htrans]; exact hsrc)
  have hframe' : ∀ x, x ∉ nsecs → k'.disk x = k₁.disk x := fun x hxn => hframe x fun q _ _ hq => by
    dsimp only at hq
    rw [hx.data] at hq
    exact hxn (List.mem_of_getElem? hq)
  have hstr := hx.storage.structure_of_write hk (fun x hxn => hframe' x (by rwa [hx.data] at hxn)) hk
  obtain ⟨hfile, hown⟩ := (hx.storage.file hk).congr hstr.1 hstr.2
  have hcounts := (hx.storage.file hk).on.stored.blocks_length
  have hout' : ∀ x, x ∉ dataAt k₁.disk f.hdrSector → k'.disk x = k₁.disk x :=
    fun x hxn => hframe' x (by rwa [hx.data] at hxn)
  have hne : f.hdrSector ≠ FreeMapSector := by
    intro h
    rw [h, hs.map] at hk
    cases hk
  have hmap : freeMapAt k'.disk = freeMapAt k₁.disk := hx.storage.freeMapAt_of_write hk hne hout'
  refine ⟨_, _, k', nbs, nsecs, (exec_bind_of_ok he _).trans hw,
    hm'.trans hm, hcount, ?_, by rw [hmap]; exact ht, ?_, ?_,
    by rw [hmap]; exact hx.storage.write hk hout', fun x hxn hxs hx0 => ?_⟩
  · rwa [hx.blocks, hx.data] at hcounts
  · rw [blocksAt_congr hstr.1, hx.blocks]
  · rw [hown, owned, hx.blocks, hx.data]
  · rw [List.mem_append, not_or] at hxn
    rw [hframe' x hxn.2, hout x List.not_mem_nil hxn.1 hxs hx0]

namespace Grown

variable {k' : Kernel} {nbs nsecs : List ℤ}

lemma mem_free (hg : Grown k kind m f n nbs nsecs k') : ∀ x ∈ nbs ++ nsecs, x ∈ sectors m.free := fun _ hx =>
  hg.taken.mem_free hx

lemma map_same (hg : Grown k kind m f n nbs nsecs k') (hs : Storage k.disk m kind) (hf : f.Fresh k kind) :
    k'.disk FreeMapSector = k.disk FreeMapSector ∧ ∀ b ∈ blocksAt k.disk FreeMapSector, k'.disk b = k.disk b := by
  refine (hs.beyond hf.plain hg.mem_free hg.frame hs.map ?_).2
  intro h
  have hk := hf.plain
  rw [← h, hs.map] at hk
  cases hk

lemma current (hg : Grown k kind m f n nbs nsecs k') (hs : Storage k.disk m kind) (hf : f.Fresh k kind)
    (hfm : fm.Current k.disk) (h0 : fm.hdrSector = FreeMapSector) : fm.Current k'.disk := by
  rw [OpenFile.Current, h0] at hfm ⊢
  rw [hdrAt_congr (hg.map_same hs hf).1, hfm]

lemma fresh (hg : Grown k kind m f n nbs nsecs k') {f' : OpenFile} (hf : f'.Fresh k kind) : f'.Fresh k' kind := by
  refine ⟨hf.plain, ⟨hf.empty.on.congr fun b hb => absurd hb List.not_mem_nil, List.nil_prefix, List.nil_prefix,
    hf.empty.permisstion⟩, hf.length, hf.start, ?_⟩
  rw [hg.maps]
  exact hf.semaphore

end Grown

lemma OpenFile.Fresh.beyond (hf : f.Fresh k kind) (hpos : 0 < n) (hn : n < 2147483648) :
    int32 (f.seekPosition + (n : ℤ)) > f.hdr.fileLength := by
  rw [hf.start, FileHeader.fileLength, hf.length, int32_of_bounds (by omega) (by omega)]
  omega

lemma exec_write_fresh (hs : Storage k.disk (freeMapAt k.disk) kind)
    (hfm : fm.Current k.disk) (h0 : fm.hdrSector = FreeMapSector)
    (hf : f.Fresh k kind) (hpos : 0 < n) (hfit : Fits 0 n (freeMapAt k.disk).free.length) (hn : n < 2147483648)
    (hsrc : n ≤ src.length) :
    ∃ f' r k' nbs nsecs, exec (OpenFile.write fm f src n) k = .ok ((r, f'), k') ∧
      Grown k kind (freeMapAt k.disk) f n nbs nsecs k' := by
  obtain ⟨f', r, k', nbs, nsecs, he, hg⟩ := exec_extendFrom_write hs hfm h0 hf hfit hn hsrc
  refine ⟨f', r, k', nbs, nsecs, ?_, hg⟩
  obtain ⟨g, t, hext, hlocked⟩ := exec_bind_ok.mp he
  rw [← OpenFile.exec_extend_start hs hfm h0] at hext
  rw [OpenFile.exec_write_beyond _ (hf.beyond hpos hn), exec_bind_of_ok hext]
  exact hlocked

end Extend

section Stale

variable {fs : FileSystem} {kind : ℤ → Option Kind} {k : Kernel} {f₁ f₂ : OpenFile} {src : List Byte} {n : ℕ}

/-- One thread has fetched the free map and another extends a second file before the first goes on:
the two files get the same sectors. -/
lemma Sound.stale_map (src : List Byte) (n : ℕ) (hs : Sound fs k.disk kind)
    (h₁ : f₁.Fresh k kind) (h₂ : f₂.Fresh k kind)
    (hne : f₁.hdrSector ≠ f₂.hdrSector) (hpos : 0 < n) (hfit : Fits 0 n (freeMapAt k.disk).free.length)
    (hn : n < 2147483648) (hsrc : n ≤ src.length) :
    ∃ f₁' f₂' r₁ r₂ k₁ k₂, exec (OpenFile.write fs.freeMapFile f₂ src n) k = .ok ((r₂, f₂'), k₁) ∧
      exec (OpenFile.extendFrom fs.freeMapFile f₁ n (freeMapAt k.disk) >>= fun f => f.writeLocked src n) k₁ =
        .ok ((r₁, f₁'), k₂) ∧
      SameDirs kind k.disk k₂.disk ∧
      ∃ b, b ∈ owned k₂.disk f₁.hdrSector ∧ b ∈ owned k₂.disk f₂.hdrSector := by
  have hst := hs.storage
  -- the second thread
  obtain ⟨f₂', r₂, k₁, nbs₂, nsecs₂, hwrite, hg₂⟩ :=
    exec_write_fresh hst hs.mapFile hs.mapSector h₂ hpos hfit hn hsrc
  -- the first one goes on
  have hst₁ := hst.forget h₂.plain hg₂.mem_free hg₂.frame
  have hfresh₁ : f₁.Fresh k₁ (Function.update kind f₂.hdrSector none) := by
    refine { hg₂.fresh h₁ with plain := ?_ }
    rw [Function.update_of_ne hne]
    exact h₁.plain
  obtain ⟨f₁', r₁, k₂, nbs₁, nsecs₁, he₁, hg₁⟩ :=
    exec_extendFrom_write hst₁ (hg₂.current hst h₂ hs.mapFile hs.mapSector) hs.mapSector hfresh₁ hfit hn hsrc
  have hperm := hg₁.taken.perm_of_length hg₂.taken
    (by rw [List.length_append, List.length_append, hg₁.count, hg₂.count, hg₁.data, hg₂.data])
  have hsame : ∀ {x}, kind x = some .dir → ∀ y ∈ owned k.disk x, k₂.disk y = k.disk y := by
    intro x hx y hy
    have hx₁ : x ≠ f₁.hdrSector := by
      rintro rfl
      rw [h₁.plain] at hx
      cases hx
    have hx₂ : x ≠ f₂.hdrSector := by
      rintro rfl
      rw [h₂.plain] at hx
      cases hx
    have hsame₁ := (hst.beyond h₂.plain hg₂.mem_free hg₂.frame hx hx₂).1 (hs.dir_ne_map hx)
    have hk' : Function.update kind f₂.hdrSector none x = some .dir := by rw [Function.update_of_ne hx₂, hx]
    have hsame₂ := (hst₁.beyond hfresh₁.plain hg₁.mem_free hg₁.frame hk' hx₁).1 (hs.dir_ne_map hx)
    have hown := (owned_congr (hst.file hx) hsame₁).2
    rw [hsame₂ y (by rw [hown]; exact hy), hsame₁ y hy]
  refine ⟨f₁', f₂', r₁, r₂, k₁, k₂, hwrite, he₁, ⟨fun hx => tableAt_congr (hs.backed hx) (hsame hx),
    fun hx => hdrAt_congr (hsame hx _ (mem_owned_self _ _))⟩, ?_⟩
  · -- a block of the second file
    obtain ⟨b, hb⟩ : ∃ b, b ∈ nbs₂ := by
      refine List.exists_mem_of_length_pos ?_
      have hneed := le_sectorsNeeded n
      have hdata := hg₂.data
      have hcount := hg₂.count
      omega
    have hself₂ : k₂.disk f₂.hdrSector = k₁.disk f₂.hdrSector := by
      refine hg₁.frame _ (fun hx => ?_) (Ne.symm hne) fun hx => ?_
      · exact hst.not_owned_of_free h₂.plain (hg₁.mem_free _ hx) (mem_owned_self _ _)
      · rw [dataAt_congr (hg₂.map_same hst h₂).1 (hg₂.map_same hst h₂).2] at hx
        exact hst.apart h₂.plain hst.map (hs.plain_ne_map h₂.plain) _ (mem_owned_self _ _) (mem_owned_data hx)
    refine ⟨b, ?_, mem_owned_block ?_⟩
    · rw [hg₁.owned]
      exact List.mem_cons_of_mem _ (hperm.mem_iff.mpr (List.mem_append_left _ hb))
    · rw [blocksAt_congr hself₂, hg₂.blocks]
      exact hb

end Stale

section Setup

variable {sys : System} {kind : ℤ → Option Kind} {d d' : Disk}
  {s n : ℤ} {i : ℕ} {name name' : CString} {isDir : Byte}
  {c : Kind}

lemma System.create_open (name : CString) (hr : sys.UserReachable) (hs : Sound sys.fs sys.kernel.disk kind)
    (hrest : AtRest sys.kernel.maps) (hwd : sys.wd 0 = DirectorySector)
    (hprint : Printable sys.kernel.disk DirectorySector)
    (hcomp : components name = [name]) (hnone : lookupIn sys.kernel.disk DirectorySector name = none)
    (hroom : freeSlot (tableAt sys.kernel.disk DirectorySector) ≠ none)
    (hfree : 0 < (freeMapAt sys.kernel.disk).free.length) :
    ∃ (i : ℕ) (k : Kernel), System.UserReachable { sys with
        kernel := k
        handles := sys.handles ++ [⟨hdrAt k.disk i, 0, i⟩] } ∧
      Installed sys.kernel.disk kind DirectorySector name i 0 .plain 0 k.disk ∧
      (i : ℤ) ∈ sectors (freeMapAt sys.kernel.disk).free ∧ Extends sys.kernel.maps k.maps ∧
      Sound sys.fs k.disk (Function.update kind (i : ℤ) (some .plain)) ∧ Printable k.disk DirectorySector ∧
      (OpenFile.mk (hdrAt k.disk i) 0 i).Fresh k (Function.update kind (i : ℤ) (some .plain)) ∧
      ∃ e, lookupIn k.disk DirectorySector name = some e ∧ e.sector.toInt = i ∧ e.isDir = 0 := by
  have hroot := hs.names.root
  have hres : ∀ d, resolve d (components name) DirectorySector = some (DirectorySector, name) := by
    intro d
    rw [hcomp]
    rfl
  obtain ⟨i, k₁, hi, hcreate, hx₁, -, hinst, hs₁⟩ := hs.exec_create_succeeds hroot rfl (hres _) hnone (n := 0)
    (by rw [sectorsNeeded_zero]; decide) (by rw [sectorsNeeded_zero, newBlocks_zero]; omega)
  have hs₁ := hs₁ fun _ => hroom
  have hmem := mem_sectors_of_head hi
  have hin := inDisk_of_free hmem
  obtain ⟨e, hlook, hsec, hplain⟩ := hinst.lookupIn_eq hin hnone hroom
  have hprint₁ := hinst.printable hs hroot hin (by decide) hprint
  obtain ⟨k₂, hopen, hd₂, hx₂, hkeys, -⟩ := hs₁.exec_open_found hs₁.names.root rfl (hres _) hprint₁ hlook
  rw [hsec] at hopen hkeys
  rw [← hwd] at hcreate hopen
  have hstep₁ : System.userStep (.call (.create 0 name 0)) sys = .ok { sys with kernel := k₁ } := by
    rw [System.userStep, System.step, hcreate]
    rfl
  have hstep₂ : System.userStep (.call (.openFile 0 name)) { sys with kernel := k₁ } = .ok { sys with
      kernel := k₂
      handles := sys.handles ++ [⟨hdrAt k₁.disk i, 0, i⟩] } := by
    rw [System.userStep, System.step]
    dsimp only
    rw [hopen]
    rfl
  obtain ⟨k₀, start, hb, hrun⟩ := hr
  have hki : Function.update kind (i : ℤ) (some Kind.plain) i = some .plain := Function.update_self ..
  have hdata : dataAt k₁.disk i = [] := List.length_eq_zero_iff.mp (hinst.data.trans sectorsNeeded_zero)
  have hblocks : blocksAt k₁.disk i = [] := (hs₁.storage.file hki).on.stored.blocks_eq_nil.mpr hdata
  have hok₁ : sys.UserPermitted (.call (.create 0 name 0)) := ⟨show int32 0 = 0 by decide, trivial⟩
  have hok₂ : ({ sys with kernel := k₁ } : System).UserPermitted (.call (.openFile 0 name)) := ⟨trivial, trivial⟩
  refine ⟨i, k₂,
      ⟨k₀, start, hb,
      .step (.call (.openFile 0 name)) (.step (.call (.create 0 name 0)) hrun hok₁ hstep₁) hok₂ ?_⟩, ?_,
    hmem, hx₁.trans hx₂, ?_, ?_, ⟨hki, ?_, ?_, rfl, ?_⟩, ?_⟩
  · rw [hd₂]
    exact hstep₂
  · rw [hd₂]
    exact hinst
  · rw [hd₂]
    exact hs₁
  · rw [hd₂]
    exact hprint₁
  · have hcur : (OpenFile.mk (hdrAt k₁.disk i) 0 i).Current k₁.disk := rfl
    have hfollows := hcur.follows (hs₁.storage.file hki)
    rw [hdata, hblocks] at hfollows
    rw [hd₂]
    exact hfollows
  · obtain ⟨p, ds, hh⟩ := hinst.hdr
    rw [hd₂]
    dsimp only
    rw [hh]
    rfl
  · exact (hx₂.rests (hx₁.rests hrest)).semaphoreWrite (hkeys _)
  · rw [hd₂]
    exact ⟨e, hlook, hsec, hplain⟩

lemma OpenFile.Fresh.update {f : OpenFile} {k k' : Kernel} (hf : f.Fresh k kind) {x : ℤ} (hi : kind x = none)
    (hx : Extends k.maps k'.maps) (hrest : AtRest k.maps) : f.Fresh k' (Function.update kind x (some c)) := by
  refine ⟨?_, ⟨hf.empty.on.congr fun b hb => absurd hb List.not_mem_nil, List.nil_prefix, List.nil_prefix,
    hf.empty.permisstion⟩, hf.length, hf.start, ?_⟩
  · rw [Function.update_of_ne]
    · exact hf.plain
    · intro he
      rw [← he, hf.plain] at hi
      cases hi
  · refine (hx.rests hrest).semaphoreWrite (hx.keeps ?_)
    rw [hf.semaphore]
    simp

lemma System.boot_two_files : ∃ (sys : System) (kind : ℤ → Option Kind) (f₁ f₂ : OpenFile) (o₁ o₂ : Owner),
    sys.UserReachable ∧ sys.handles = [f₁, f₂] ∧ Sound sys.fs sys.kernel.disk kind ∧ f₁.Fresh sys.kernel kind ∧
      f₂.Fresh sys.kernel kind ∧ f₁.hdrSector ≠ f₂.hdrSector ∧ Owns sys.kernel.disk o₁ f₁.hdrSector ∧
      Owns sys.kernel.disk o₂ f₂.hdrSector ∧ (freeMapAt sys.kernel.disk).free.length = 1015 := by
  obtain ⟨sys₀, hb, hf, hst, hwd, -⟩ := System.boot_spec Kernel.blank
  have hh : sys₀.handles = [] := by
    rw [System.boot] at hb
    obtain ⟨⟨fs, k'⟩, -, he⟩ := bind_eq_ok.mp hb
    cases he
    rfl
  have hslots := hf.clearSlots_eq
  obtain ⟨i₁, k₁, hr₁, hinst₁, hi₁, hx₁, hs₁, hprint₁, hfresh₁, e₁, hl₁, hsec₁, hplain₁⟩ :=
    System.create_open pathF
    ⟨Kernel.blank, sys₀, hb, .refl⟩ hst.sound hst.rest (hwd 0)
    (fun e he hu => absurd (hf.unused e he) hu) (by decide)
    (hf.lookupIn_root _) (freeSlot_ne_none (by rw [hslots]; decide)) (by rw [hf.free]; decide)
  have hfree₁ := hinst₁.free
  rw [hf.free, sectorsNeeded_zero, newBlocks_zero] at hfree₁
  have hne : key pathF ≠ key [0x67] := by decide
  obtain ⟨i₂, k₂, hr₂, hinst₂, hi₂, hx₂, hs₂, -, hfresh₂, e₂, hl₂, hsec₂, hplain₂⟩ :=
    System.create_open [0x67] hr₁ hs₁
    (hx₁.rests hst.rest) (hwd 0) hprint₁ (by decide) (hinst₁.lookupIn_other (hf.lookupIn_root _) hne)
    (freeSlot_ne_none (by rw [hinst₁.clearSlots_eq, hslots]; decide)) (by dsimp only; omega)
  dsimp only at hi₂ hinst₂ hx₂
  have hnew := hs₁.storage.kind_of_free hi₂
  have hkept := (hinst₂.keeps (fun _ _ => False) hnew (hinst₁.lookupIn_other (hf.lookupIn_root _) hne)).lookups
    hs₁.names.root hl₁ (.inr id)
  obtain ⟨j₁, -, ho₁⟩ := Owns.of_lookup hkept (.inl hplain₁)
  obtain ⟨j₂, -, ho₂⟩ := Owns.of_lookup hl₂ (.inl hplain₂)
  rw [hsec₁] at ho₁
  rw [hsec₂] at ho₂
  refine ⟨_, _, ⟨hdrAt k₁.disk i₁, 0, i₁⟩, ⟨hdrAt k₂.disk i₂, 0, i₂⟩, _, _, hr₂, ?_, hs₂,
    hfresh₁.update hnew hx₂ (hx₁.rests hst.rest), hfresh₂, ?_, ho₁, ho₂, ?_⟩
  · dsimp only
    rw [hh]
    rfl
  · intro he
    have hk := hfresh₁.plain
    dsimp only at he hk
    rw [← he, hk] at hnew
    cases hnew
  · have hfree₂ := hinst₂.free
    rw [sectorsNeeded_zero, newBlocks_zero] at hfree₂
    dsimp only
    omega

lemma fits_byte {free : ℕ} (h : 2 ≤ free) : Fits 0 (1 : ℕ) free := by
  have hneed : sectorsNeeded (1 : ℕ) = 1 := by decide
  have hnew : newBlocks 0 1 = 1 := rfl
  rw [Fits, hneed, hnew]
  omega

lemma OpenFile.Fresh.not_directories {f : OpenFile} (hs : Sound sys.fs sys.kernel.disk kind)
    (hf : f.Fresh sys.kernel kind) :
    ¬Directories sys.kernel.disk f.hdrSector := by
  intro hd
  have hk := hd.kind_eq hs
  rw [hf.plain] at hk
  cases hk

end Setup

lemma Apart.alone {t : Kernel} {p q z : Point} {i : ℕ} (hp : p.inExtension = false) (hq : q.inExtension = false) :
    Apart ⟨t, [p, q].set i z⟩ (i, .step) := by
  refine ⟨fun sector => Command.noConfusion, fun f src n hi r hr => ?_⟩
  dsimp only at hi hr
  rcases List.mem_or_eq_of_mem_set hr with hr | rfl
  · have hr : r = p ∨ r = q := by simpa using hr
    rcases hr with rfl | rfl
    · exact hp
    · exact hq
  · have hlt : i < [p, q].length := by
      have h := (List.getElem?_eq_some_iff.mp hi).1
      rwa [List.length_set] at h
    rw [List.getElem?_set_self hlt] at hi
    cases hi
    rfl

theorem extensions_in_turn_stay_apart : ∃ (sys : System) (f₁ f₂ : OpenFile) (a : Machine), sys.handles = [f₁, f₂] ∧
    f₁.hdrSector ≠ f₂.hdrSector ∧
    Reaches (Pool.Moves (Point.move sys.fs.freeMapFile)) Apart ⟨sys.kernel, [.idle f₁, .idle f₂]⟩ a ∧
    (freeMapAt a.shared.disk).free.length = (freeMapAt sys.kernel.disk).free.length - 4 ∧
    SectorsApart a.shared.disk := by
  obtain ⟨sys, kind, f₁, f₂, o₁, o₂, hreach, hhandles, hs, hfresh₁, hfresh₂, hne, -, -, hfree⟩ :=
    System.boot_two_files
  have hsrc : 1 ≤ ([0x61] : List Byte).length := le_rfl
  have hneed : sectorsNeeded (1 : ℕ) = 1 := by decide
  obtain ⟨f₂', r₂, k₁, nbs₂, nsecs₂, he₂, hg₂⟩ :=
    exec_write_fresh hs.storage hs.mapFile hs.mapSector hfresh₂ one_pos
    (fits_byte (by omega)) (by decide) hsrc
  have hfree₁ := hg₂.taken.length
  rw [List.length_append, hg₂.count, hg₂.data, hneed] at hfree₁
  obtain ⟨f₁', r₁, k₂, nbs₁, nsecs₁, he₁, hg₁⟩ := exec_write_fresh hg₂.storage
    (hg₂.current hs.storage hfresh₂ hs.mapFile hs.mapSector) hs.mapSector
    (hg₂.fresh hfresh₁) one_pos (fits_byte (by omega))
    (by decide) hsrc
  have hfree₂ := hg₁.taken.length
  rw [List.length_append, hg₁.count, hg₁.data, hneed] at hfree₂
  have hcall : ∀ {t : Kernel} {ts : List Point} {i : ℕ} {src : List Byte} {n : ℤ} {f : OpenFile},
      ts[i]? = some (.idle f) →
      Apart ⟨t, ts⟩ (i, .write src n) := by
    intro t ts i src n f hi
    refine ⟨fun sector => Command.noConfusion, fun f' src' n' hi' => ?_⟩
    dsimp only at hi'
    rw [hi] at hi'
    cases hi'
  have hrun₂ := Point.run_write he₂ (show [Point.idle f₁, .idle f₂][1]? = _ from rfl) (hcall rfl) fun t z =>
    Apart.alone rfl rfl
  have hrun₁ := Point.run_write he₁ (show [Point.idle f₁, .idle f₂'][0]? = _ from rfl) (hcall rfl) fun t z =>
    Apart.alone rfl rfl
  have hrun := hrun₂.trans hrun₁
  refine ⟨sys, f₁, f₂, _, hhandles, hne, hrun, by dsimp only; omega,
    extensions_stay_apart sys hreach _ (fun p hp => ?_) _ hrun
    fun p hp => ?_⟩
  · have hp : p = .idle f₁ ∨ p = .idle f₂ := by simpa using hp
    rcases hp with rfl | rfl
    · exact ⟨f₁, rfl, by rw [hhandles]; simp, hfresh₁.not_directories hs⟩
    · exact ⟨f₂, rfl, by rw [hhandles]; simp, hfresh₂.not_directories hs⟩
  · have hp : p = .idle f₁' ∨ p = .idle f₂' := by simpa using hp
    rcases hp with rfl | rfl <;> rfl

def OnlyWrites (_ : Machine) (o : ℕ × Command) : Prop := o.2 = .step ∨ ∃ src n, o.2 = .write src n

/-- Two threads write a byte to two empty files; the first has fetched the free map when the second
begins, and goes on when the second is done. -/
theorem extensions_share_sectors : ¬∀ (sys : System) (ts : List Point) (a : Machine), sys.UserReachable →
    (∀ p ∈ ts, ∃ f, p = .idle f ∧ f ∈ sys.handles ∧ ¬Directories sys.kernel.disk f.hdrSector) →
    Reaches (Pool.Moves (Point.move sys.fs.freeMapFile)) OnlyWrites ⟨sys.kernel, ts⟩ a →
    (∀ p ∈ a.threads, ∃ f, p = .idle f) → SectorsApart a.shared.disk := by
  intro hall
  obtain ⟨sys, kind, f₁, f₂, o₁, o₂, hreach, hhandles, hs, hfresh₁, hfresh₂, hne, ho₁, ho₂, hfree⟩ :=
    System.boot_two_files
  let src : List Byte := [0x61]
  obtain ⟨f₁', f₂', r₁, r₂, k₁, k₂, he₂, he₁, htab, b, hb₁, hb₂⟩ := hs.stale_map src 1 hfresh₁ hfresh₂ hne
    one_pos (fits_byte (by omega)) (by decide) (by decide)
  rw [Nat.cast_one] at he₁ he₂
  have hbeyond : Point.startWrite f₁ src 1 = .beyond f₁ src 1 :=
    if_pos (hfresh₁.beyond (n := 1) one_pos (by decide))
  have hok : ∀ (t : Kernel) (ts : List Point) (i : ℕ), OnlyWrites ⟨t, ts⟩ (i, .step) := fun _ _ _ => .inl rfl
  -- the first thread fetches the free map
  have hcall₁ : Reaches (Pool.Moves (Point.move sys.fs.freeMapFile)) OnlyWrites ⟨sys.kernel, [.idle f₁, .idle f₂]⟩
      ⟨sys.kernel, [.beyond f₁ src 1, .idle f₂]⟩ := by
    rw [← hbeyond]
    exact .step (0, .write src 1) .refl (.inr ⟨_, _, rfl⟩) (.mk rfl (Point.move_write ..))
  have hask : (Point.beyond f₁ src 1).ask sys.fs.freeMapFile = some (Point.extendAsk f₁ src 1
      ((lift (Bitmap.new 1024) >>= fun m => m.fetchFrom sys.fs.freeMapFile) >>=
        OpenFile.extendFrom sys.fs.freeMapFile f₁ 1)) := by
    rw [Point.ask, OpenFile.extend_eq]
  obtain ⟨z, hz, hfetch⟩ := Point.run_part hask (OpenFile.exec_fetch hs.storage hs.mapFile hs.mapSector)
    (show [Point.beyond f₁ src 1, .idle f₂][0]? = _ from rfl) fun t z => hok t _ 0
  -- the second one extends its file
  have hrun₂ : Reaches _ OnlyWrites _ _ :=
    Point.run_write he₂ (show [z, Point.idle f₂][1]? = _ from rfl) (.inr ⟨_, _, rfl⟩)
    fun t z => hok t _ 1
  -- the first one goes on with the free map that it has
  have hrest : exec (Point.program sys.fs.freeMapFile z) k₁ = .ok (some f₁', k₂) := by
    rw [Point.program_of_extendAsk hz, Point.program, ← bind_assoc]
    exact exec_bind_of_ok he₁ _
  have hrun₁ : Reaches _ OnlyWrites _ _ := Point.run_alone rfl hrest (show [z, Point.idle f₂'][0]? = _ from rfl)
    fun t z => hok t _ 0
  have hrun := hcall₁.trans (hfetch.trans (hrun₂.trans hrun₁))
  have hidle : ∀ {p q r : Point}, r ∈ [p, q] → r = p ∨ r = q := fun hr => by simpa using hr
  have hapart := hall sys _ _ hreach (fun p hp => ?_) hrun fun p hp => ?_
  · have hown := fun {o s} => hs.owns_congr (o := o) (s := s) htab.table
    refine hapart.1 o₁ o₂ _ _ (hown.mpr ho₁) (hown.mpr ho₂) ?_ b hb₁ hb₂
    rintro rfl
    exact hne (ho₁.sector_unique ho₂)
  · rcases hidle hp with rfl | rfl
    · exact ⟨f₁, rfl, by rw [hhandles]; simp, hfresh₁.not_directories hs⟩
    · exact ⟨f₂, rfl, by rw [hhandles]; simp, hfresh₂.not_directories hs⟩
  · rcases hidle hp with rfl | rfl
    · exact ⟨f₁', rfl⟩
    · exact ⟨f₂', rfl⟩

end NachosFileSys
