import NachosFileSys.Space

/-! Several handles on one file, used one call at a time, against one file of bytes that they share. Every
handle has its own copy of the header, as it was when the handle was opened or last extended the file. -/

namespace NachosFileSys

open Lib.Programs Lib.Bytes Lib.Results Lib.Runs

/-- The calls on the handles of one file, which are numbered in the order in which they were opened. -/
inductive HandleCall
  | openFile
  | close (handle : ℕ)
  | seek (handle : ℕ) (position : Word)
  | read (handle numBytes : ℕ)
  | write (handle : ℕ) (src : List Byte)

inductive Answer
  | done
  | bytes (result : List Byte)
  | count (result : ℤ)
  deriving DecidableEq

structure Sharing where
  kernel : Kernel
  handles : List OpenFile

namespace Sharing

def step (freeMapFile : OpenFile) (s : ℤ) : HandleCall → Sharing → Except Fault (Answer × Sharing)
  | .openFile, σ => do
    let (f, k) ← exec (OpenFile.new s) σ.kernel
    pure (.done, ⟨k, σ.handles ++ [f]⟩)
  | .close i, σ =>
    match σ.handles[i]? with
    | none => pure (.done, σ)
    | some f => do
      let (_, k) ← exec f.close σ.kernel
      pure (.done, ⟨k, σ.handles.eraseIdx i⟩)
  | .seek i position, σ =>
    match σ.handles[i]? with
    | none => pure (.done, σ)
    | some f => pure (.done, { σ with handles := σ.handles.set i (f.seek position.toInt) })
  | .read i numBytes, σ =>
    match σ.handles[i]? with
    | none => pure (.done, σ)
    | some f => do
      let ((result, f), k) ← exec (f.read numBytes) σ.kernel
      pure (.bytes result, ⟨k, σ.handles.set i f⟩)
  | .write i src, σ =>
    match σ.handles[i]? with
    | none => pure (.done, σ)
    | some f => do
      let ((result, f), k) ← exec (OpenFile.write freeMapFile f src src.length) σ.kernel
      pure (.count result, ⟨k, σ.handles.set i f⟩)

def execute (freeMapFile : OpenFile) (s : ℤ) : List HandleCall → Sharing → Except Fault (List Answer × Sharing)
  | [], σ => pure ([], σ)
  | call :: calls, σ => do
    let (answer, σ) ← step freeMapFile s call σ
    let (answers, σ) ← execute freeMapFile s calls σ
    pure (answer :: answers, σ)

end Sharing

structure SharedFile where
  bytes : List Byte
  positions : List ℤ

namespace SharedFile

def put (bytes : List Byte) (p : ℕ) (src : List Byte) : List Byte :=
  if src = [] then bytes
  else (bytes ++ List.replicate (p - bytes.length) 0).take p ++ (src ++ bytes.drop (p + src.length))

/-- There is nothing before the first byte: a request there transfers nothing. -/
def step : HandleCall → SharedFile → Answer × SharedFile
  | .openFile, φ => (.done, { φ with positions := φ.positions ++ [0] })
  | .close i, φ => (.done, { φ with positions := φ.positions.eraseIdx i })
  | .seek i position, φ => (.done, { φ with positions := φ.positions.set i position.toInt })
  | .read i numBytes, φ =>
    match φ.positions[i]? with
    | none => (.done, φ)
    | some p =>
      let result := if p < 0 then [] else (φ.bytes.drop p.toNat).take numBytes
      (.bytes result, { φ with positions := φ.positions.set i (p + result.length) })
  | .write i src, φ =>
    match φ.positions[i]? with
    | none => (.done, φ)
    | some p =>
      if p < 0 then (.count 0, φ)
      else (.count src.length, ⟨put φ.bytes p.toNat src, φ.positions.set i (p + src.length)⟩)

def execute : List HandleCall → SharedFile → List Answer × SharedFile
  | [], φ => ([], φ)
  | call :: calls, φ =>
    let (answer, φ) := step call φ
    let (answers, φ) := execute calls φ
    (answer :: answers, φ)

section

variable (bytes src : List Byte) {p : ℕ}

lemma put_of_le (hp : p ≤ bytes.length) (hsrc : src ≠ []) :
    put bytes p src = bytes.take p ++ (src ++ bytes.drop (p + src.length)) := by
  rw [put, if_neg hsrc, Nat.sub_eq_zero_of_le hp, List.replicate_zero, List.append_nil]

lemma take_put (hp : p ≤ bytes.length) (hsrc : src ≠ []) :
    (put bytes p src).take (p + src.length) = bytes.take p ++ src := by
  have hlen : (bytes.take p ++ src).length = p + src.length := by
    rw [List.length_append, List.length_take, min_eq_left hp]
  rw [put_of_le _ _ hp hsrc, ← List.append_assoc, ← hlen, List.take_left]

lemma length_put (hp : p ≤ bytes.length) (hsrc : src ≠ []) :
    (put bytes p src).length = max bytes.length (p + src.length) := by
  rw [put_of_le _ _ hp hsrc, List.length_append, List.length_append,
      List.length_take, List.length_drop, min_eq_left hp]
  omega

end

end SharedFile

def contentsAt (d : Disk) (s : ℤ) : List Byte := bytesIn d (dataAt d s) 0 (hdrAt d s).fileLength.toNat

namespace OpenFile

/-- The copy of the length cuts the request where the length on disk does. -/
def ReadsAll (f : OpenFile) (d : Disk) (numBytes : ℕ) : Prop :=
  numBytes = 0 ∨ 0 ≤ f.seekPosition ∧
    (f.seekPosition < f.hdr.fileLength → f.seekPosition + numBytes < 2147483648) ∧
    transferred f.hdr.fileLength f.seekPosition.toNat numBytes =
      transferred (hdrAt d f.hdrSector).fileLength f.seekPosition.toNat numBytes

def sectorEnd (p : ℤ) (n : ℕ) : ℤ := 128 * ((p + n + 127) / 128)

/-- A request inside the file as the handle knows it writes no sector that reaches beyond it, unless the
copy of the header is the one on disk; a request that extends the file starts at its end, goes through such
a copy, and finds the sectors that it needs. -/
def WritesAll (f : OpenFile) (d : Disk) (src : List Byte) : Prop :=
  src = [] ∧ f.seekPosition ≤ f.hdr.fileLength ∨ 0 ≤ f.seekPosition ∧ f.seekPosition + src.length < 2147483648 ∧
    if f.seekPosition + src.length ≤ f.hdr.fileLength then
      f.Current d ∨ src = [] ∨ sectorEnd f.seekPosition src.length ≤ f.hdr.fileLength
    else f.Current d ∧ (src = [] ∨ f.seekPosition = f.hdr.fileLength) ∧
      Fits (dataAt d f.hdrSector).length src.length (freeMapAt d).free.length

end OpenFile

namespace Sharing

def Permitted (σ : Sharing) : HandleCall → Prop
  | .read i numBytes => ∀ f, σ.handles[i]? = some f → f.ReadsAll σ.kernel.disk numBytes
  | .write i src => ∀ f, σ.handles[i]? = some f → f.WritesAll σ.kernel.disk src
  | _ => True

def Permits (σ : Sharing) (freeMapFile : OpenFile) (s : ℤ) : List HandleCall → Prop
  | [] => True
  | call :: calls => σ.Permitted call ∧
    ∀ answer σ', step freeMapFile s call σ = .ok (answer, σ') → Permits σ' freeMapFile s calls

end Sharing

lemma Stored.of_prefix {d : Disk} {slots bs secs : List ℤ} (h : Stored d slots bs secs) (n : ℕ) :
    ∀ {bs' : List ℤ}, bs' <+: bs →
    Stored d (bs' ++ List.replicate n EmptyBlock) bs' (secs.take (32 * bs'.length)) := by
  induction h with
  | nil m =>
    intro bs' hp
    obtain rfl := List.prefix_nil.mp hp
    exact .nil n
  | @cons b part slots bs secs hb hpart hpos hle hfull hd rest ih =>
    intro bs' hp
    cases bs' with
    | nil => simpa using Stored.nil (d := d) n
    | cons b' bs' =>
      obtain ⟨rfl, hp'⟩ := List.cons_prefix_cons.mp hp
      have htake : (part ++ secs).take (32 * (b' :: bs').length) = part ++ secs.take (32 * bs'.length) := by
        by_cases hbs : bs = []
        · obtain rfl : bs' = [] := by simpa [hbs] using hp'
          obtain rfl := rest.blocks_eq_nil.mp hbs
          simpa using hle
        · have hlen := hfull hbs
          rw [List.length_cons, List.take_append, hlen, List.take_of_length_le (by omega)]
          congr 2
      rw [htake, List.cons_append]
      refine .cons hb hpart hpos hle (fun hne => hfull ?_) hd (ih hp')
      rintro rfl
      exact hne (List.prefix_nil.mp hp')

lemma byteIn_of_prefix {d : Disk} {secs secs' : List ℤ} (h : secs <+: secs') {q : ℕ} (hq : q / 128 < secs.length) :
    byteIn d secs q = byteIn d secs' q := by
  obtain ⟨rest, rfl⟩ := h
  rw [byteIn, byteIn, List.getD_append _ _ _ _ hq]

lemma contentsAt_length (d : Disk) (s : ℤ) : (contentsAt d s).length = (hdrAt d s).fileLength.toNat :=
  bytesIn_length ..

lemma getElem?_contentsAt (d : Disk) (s : ℤ) (q : ℕ) :
    (contentsAt d s)[q]? = if q < (hdrAt d s).fileLength.toNat then some (byteIn d (dataAt d s) q) else none := by
  rw [contentsAt, getElem?_bytesIn, zero_add]

lemma contentsAt_read (d : Disk) (s : ℤ) (p n : ℕ) :
    ((contentsAt d s).drop p).take n = bytesIn d (dataAt d s) p (transferred (hdrAt d s).fileLength p n) := by
  apply List.ext_getElem?
  intro i
  rw [List.getElem?_take, List.getElem?_drop, getElem?_contentsAt, getElem?_bytesIn, transferred]
  by_cases hi : i < n
  · rw [if_pos hi]
    split <;> split <;> first | rfl | omega
  · rw [if_neg hi, if_neg (by omega)]

namespace SharedFile

lemma getElem?_put {bytes src : List Byte} {p : ℕ} (hp : p ≤ bytes.length) (hsrc : src ≠ []) (q : ℕ) :
    (put bytes p src)[q]? = if p ≤ q ∧ q < p + src.length then src[q - p]? else bytes[q]? := by
  have htake : (bytes.take p).length = p := by simpa using hp
  rw [put, if_neg hsrc, Nat.sub_eq_zero_of_le hp, List.replicate_zero, List.append_nil]
  by_cases h1 : p ≤ q
  · rw [List.getElem?_append_right (by omega), htake]
    by_cases h2 : q < p + src.length
    · rw [if_pos ⟨h1, h2⟩, List.getElem?_append_left (by omega)]
    · rw [if_neg (by omega), List.getElem?_append_right (by omega), List.getElem?_drop]
      congr 1
      omega
  · rw [if_neg (by omega), List.getElem?_append_left (by omega), List.getElem?_take_of_lt (by omega)]

end SharedFile

lemma contentsAt_write {d' : Disk} {s : ℤ} {bytes src : List Byte} {p : ℕ} (hp : p ≤ bytes.length)
    (hlen : (hdrAt d' s).fileLength.toNat = max bytes.length (p + src.length))
    (hbytes : ∀ q < (hdrAt d' s).fileLength.toNat, some (byteIn d' (dataAt d' s) q) =
      if p ≤ q ∧ q < p + src.length then src[q - p]? else bytes[q]?) :
    contentsAt d' s = SharedFile.put bytes p src := by
  apply List.ext_getElem?
  intro q
  rw [getElem?_contentsAt]
  by_cases hsrc : src = []
  · subst hsrc
    rw [SharedFile.put, if_pos rfl]
    split
    · rw [hbytes q ‹_›, if_neg (by simp)]
    · rw [List.getElem?_eq_none]
      omega
  · rw [SharedFile.getElem?_put hp hsrc]
    split
    · exact hbytes q ‹_›
    · rw [if_neg (by omega), List.getElem?_eq_none]
      omega

namespace OpenFile

/-- The copy of the header in the handle is the one on disk, or one that was there before the file was
extended. -/
structure Trails (f : OpenFile) (d : Disk) (s : ℤ) : Prop where
  sector : f.hdrSector = s
  follows : ∃ bs secs, f.Follows d bs secs ∧ f.hdr.numBytes ≤ 128 * secs.length
  length_le : f.hdr.numBytes ≤ (hdrAt d s).numBytes

variable {f g : OpenFile} {d d' : Disk} {s : ℤ}

lemma Current.trails (hf : f.Current d) (hs : f.hdrSector = s) (hfile : FileAt d s)
    (hb : (hdrAt d s).numBytes ≤ 128 * (dataAt d s).length) : f.Trails d s := by
  subst hs
  refine ⟨rfl, ⟨_, _, hf.follows hfile, ?_⟩, ?_⟩
  · rw [hf]
    exact hb
  · rw [hf]

lemma Trails.seek (hf : f.Trails d s) (position : ℤ) :
    OpenFile.Trails { f with seekPosition := position } d s := by
  obtain ⟨bs, secs, h, hle⟩ := hf.follows
  exact ⟨hf.sector, ⟨bs, secs, ⟨h.on, h.blocks, h.data, h.permisstion⟩, hle⟩, hf.length_le⟩

lemma Trails.of_structure (hf : f.Trails d s) (hself : d' s = d s) (hb : ∀ b ∈ blocksAt d s, d' b = d b) :
    f.Trails d' s := by
  obtain ⟨rfl, ⟨bs, secs, h, hle⟩, hlen⟩ := hf
  refine ⟨rfl, ⟨bs, secs, ⟨h.on.congr fun b hbs => hb b (h.blocks.subset hbs), ?_, ?_, h.permisstion⟩, hle⟩, ?_⟩
  · rw [blocksAt_congr hself]
    exact h.blocks
  · rw [dataAt_congr hself hb]
    exact h.data
  · rw [hdrAt_congr hself]
    exact hlen

/-- An extension of the file leaves every handle with what it knew, and perhaps with more sectors in the
last block that it knows. -/
lemma Trails.of_extension (hf : f.Trails d s) (hfile : FileAt d' s) (hb : blocksAt d s <+: blocksAt d' s)
    (hd : dataAt d s <+: dataAt d' s) (hlen : (hdrAt d s).numBytes ≤ (hdrAt d' s).numBytes) : f.Trails d' s := by
  obtain ⟨rfl, ⟨bs, secs, h, hle⟩, hflen⟩ := hf
  have hbs := h.blocks.trans hb
  have hst := hfile.on.stored.of_prefix (f.hdr.dataSectors.length - bs.length) hbs
  rw [← h.on.stored.slots_eq] at hst
  have hcap : secs.length ≤ 32 * bs.length := by
    have := h.on.stored.blocks_length
    omega
  have hmore := (h.data.trans hd).length_le
  refine ⟨rfl, ⟨bs, _, ⟨⟨hst, h.on.length⟩, hbs, List.take_prefix _ _, h.permisstion⟩, ?_⟩, hflen.trans hlen⟩
  rw [List.length_take]
  omega

end OpenFile

structure Shared (fs : FileSystem) (kind : ℤ → Option Kind) (s : ℤ) (d : Disk) (handles : List OpenFile) :
    Prop where
  sound : Sound fs d kind
  plain : kind s = some .plain
  backed : (hdrAt d s).numBytes ≤ 128 * (dataAt d s).length
  handles : ∀ f ∈ handles, f.Trails d s

namespace Shared

variable {fs : FileSystem} {kind : ℤ → Option Kind} {s : ℤ} {k : Kernel}
  {handles : List OpenFile} {f : OpenFile} {src : List Byte}
  {p : ℕ}

lemma exec_readAt (hf : f.Trails k.disk s) (p n : ℕ) (hpn : p < f.hdr.fileLength → (p + n : ℤ) < 2147483648)
    (hcut : transferred f.hdr.fileLength p n = transferred (hdrAt k.disk s).fileLength p n) :
    exec (f.readAt n p) k = .ok (((contentsAt k.disk s).drop p).take n, k) := by
  obtain ⟨rfl, ⟨bs, secs, hfol, hle⟩, -⟩ := hf
  rw [contentsAt_read, ← hcut]
  rcases lt_or_ge (p : ℤ) f.hdr.fileLength with hp | hp
  swap
  · -- the handle stands at the end of the file as it knows it, or beyond
    have hnone : transferred f.hdr.fileLength p n = 0 := by rw [transferred]; omega
    rw [OpenFile.readAt]
    dsimp only
    rw [if_pos (.inr hp), hnone]
    rfl
  have hlt := hpn hp
  rw [OpenFile.exec_readAt ⟨hfol.on, hle⟩ n p (by omega)]
  congr 2
  apply List.map_congr_left
  intro i hi
  apply byteIn_of_prefix hfol.data
  have hi := List.mem_range.mp hi
  rw [transferred, FileHeader.fileLength] at hi
  omega

lemma sector_lt_of_sectorEnd {len : ℤ} {n q q' : ℕ} (hend : OpenFile.sectorEnd p n ≤ len)
    (hq : len ≤ q) (hq' : q' < p + n) :
    q' / 128 < q / 128 := by
  rw [OpenFile.sectorEnd] at hend
  omega

lemma exec_writeLocked (h : Shared fs kind s k.disk handles) (hf : f.Trails k.disk s)
    (hsem : k.maps .semaphoreWrite s = some 1) (hp : f.seekPosition = p) (hpn : p + src.length < 2147483648)
    (hin : src = [] ∨ (p + src.length : ℤ) ≤ f.hdr.fileLength ∧
      (f.Current k.disk ∨ OpenFile.sectorEnd p src.length ≤ f.hdr.fileLength)) :
    ∃ k', exec (f.writeLocked src src.length) k =
        .ok (((src.length : ℕ), { f with seekPosition := ((p + src.length : ℕ) : ℤ) }), k') ∧ k'.maps = k.maps ∧
      Shared fs kind s k'.disk handles ∧
      OpenFile.Trails { f with seekPosition := ((p + src.length : ℕ) : ℤ) } k'.disk s ∧
      contentsAt k'.disk s = SharedFile.put (contentsAt k.disk s) p src := by
  obtain ⟨bs, secs, hfol, hle⟩ := hf.follows
  have hlen := hf.length_le
  have hsector := hf.sector
  have ht : transferred f.hdr.fileLength p src.length = src.length := by
    rw [transferred]
    rcases hin with rfl | ⟨hin, -⟩
    · simp
    · omega
  have hdata : secs <+: dataAt k.disk s := hsector ▸ hfol.data
  have hnd := h.sound.storage.data_nodup h.plain
  have hnd' : (bs ++ secs).Nodup :=
    hnd.sublist ((hsector ▸ hfol.blocks : bs <+: blocksAt k.disk s).sublist.append hdata.sublist)
  obtain ⟨k', he, hm, hframe, hbytes⟩ :=
    OpenFile.exec_writeLocked (by rw [hsector]; exact hsem) ⟨hfol.on, hle⟩ hnd' src
    src.length p hp hpn (by rw [ht])
  rw [ht] at he hframe hbytes
  have hout : ∀ x, x ∉ dataAt k.disk s → k'.disk x = k.disk x := fun x hx =>
    hframe x fun q _ _ hq => hx (hdata.subset (List.mem_of_getElem? hq))
  obtain ⟨hself, hblocks⟩ := h.sound.storage.structure_of_write h.plain hout h.plain
  have hd : dataAt k'.disk s = dataAt k.disk s := dataAt_congr hself hblocks
  have htrails : ∀ {g : OpenFile}, g.Trails k.disk s → g.Trails k'.disk s :=
    fun hg => hg.of_structure hself hblocks
  refine ⟨k', he, hm, ⟨(h.sound.of_write h.plain hout).1, h.plain, ?_, fun g hg => htrails (h.handles g hg)⟩,
    htrails (hf.seek _), ?_⟩
  · rw [hdrAt_congr hself, hd]
    exact h.backed
  · rcases hin with rfl | ⟨hin, hcover⟩
    · -- nothing is written
      have hsame : k'.disk = k.disk := funext fun x => hframe x fun q h1 h2 => by
        rw [List.length_nil] at h2
        omega
      rw [hsame, SharedFile.put, if_pos rfl]
    · have hl : f.hdr.fileLength = f.hdr.numBytes := rfl
      have hl' : (hdrAt k.disk s).fileLength = (hdrAt k.disk s).numBytes := rfl
      refine contentsAt_write (by rw [contentsAt_length]; omega)
        (by rw [contentsAt_length, hdrAt_congr hself]; omega)
        fun q hq => ?_
      rw [hdrAt_congr hself] at hq
      rw [hd, getElem?_contentsAt, if_pos hq]
      by_cases hqf : (q : ℤ) < f.hdr.fileLength
      · have hql : q / 128 < secs.length := by omega
        rw [← byteIn_of_prefix hdata hql, hbytes q hqf, ← byteIn_of_prefix hdata hql]
        split
        · rw [List.getD_eq_getElem _ _ (by omega), List.getElem?_eq_getElem (by omega)]
        · rfl
      · -- a byte that the handle does not know is in another sector than the bytes written
        have hend : OpenFile.sectorEnd p src.length ≤ f.hdr.fileLength := hcover.resolve_left fun hcur => hqf (by
          rw [OpenFile.Current, hsector] at hcur
          rw [hcur]
          omega)
        have hql : q / 128 < (dataAt k.disk s).length := by
          have := h.backed
          omega
        rw [if_neg (by omega), byteIn, byteIn, List.getD_eq_getElem _ _ hql]
        congr 3
        refine hframe _ fun q' h1 h2 hq' => ?_
        have hlt := sector_lt_of_sectorEnd hend (not_lt.mp hqf) h2
        obtain ⟨hq'l, hq'e⟩ := List.getElem?_eq_some_iff.mp hq'
        rw [hdata.getElem hq'l] at hq'e
        have := (List.Nodup.getElem_inj_iff (List.nodup_append.mp hnd).2.1).mp hq'e
        omega

lemma exec_extend (h : Shared fs kind s k.disk handles) (hf : f.Current k.disk) (hsector : f.hdrSector = s) (n : ℕ)
    (hfit : Fits (dataAt k.disk s).length n (freeMapAt k.disk).free.length) :
    ∃ hdr k₁, exec (OpenFile.extend fs.freeMapFile f n) k = .ok ({ f with hdr := hdr }, k₁) ∧ k₁.maps = k.maps ∧
      Shared fs kind s k₁.disk handles ∧ hdrAt k₁.disk s = hdr ∧ hdr.fileLength = f.hdr.fileLength + n ∧
      ∀ q : ℕ, (q : ℤ) < f.hdr.fileLength →
      byteIn k₁.disk (dataAt k₁.disk s) q = byteIn k.disk (dataAt k.disk s) q := by
  subst hsector
  have hfile := h.sound.storage.file h.plain
  have hback := h.backed
  have hnum : (hdrAt k.disk f.hdrSector).numBytes = f.hdr.fileLength := by
    rw [OpenFile.Current] at hf
    rw [hf]
    rfl
  have hlo : -2147483648 ≤ f.hdr.fileLength := hnum ▸ (toInt_bounds _).1
  obtain ⟨ds, nbs, nsecs, k₁, he, hm, hlen, hx⟩ :=
    OpenFile.exec_extend h.sound.storage h.sound.mapFile h.sound.mapSector
    h.plain (hf.follows hfile) hfit
  have hcap := hfit.1
  have hgrows : (f.hdr.grown n ds).numBytes = f.hdr.numBytes + n ∧ (f.hdr.grown n ds).numBytes ≤
      128 * (dataAt k.disk f.hdrSector).length + 128 * sectorsNeeded n :=
    FileHeader.grown_fileLength_le ds (hnum.symm.le.trans hback)
        (by rw [FileHeader.fileLength] at hlo; omega) (by omega)
  obtain ⟨hgrown, hle⟩ := hgrows
  have hs₁ := (h.sound.of_extended h.plain hx).1
  have hpre : dataAt k.disk f.hdrSector <+: dataAt k₁.disk f.hdrSector := by
    rw [hx.data]
    exact List.prefix_append _ _
  refine ⟨_, k₁, he, hm, ⟨hs₁, h.plain, ?_, fun g hg => ?_⟩, hx.hdr, hgrown, fun q hq => ?_⟩
  · rw [hx.hdr, hx.data, List.length_append, hlen]
    push_cast
    omega
  · refine (h.handles g hg).of_extension (hs₁.storage.file h.plain) ?_ hpre ?_
    · rw [hx.blocks]
      exact List.prefix_append _ _
    · rw [hx.hdr, hgrown, hnum, FileHeader.fileLength]
      omega
  · have hql : q / 128 < (dataAt k.disk f.hdrSector).length := by omega
    rw [← byteIn_of_prefix hpre hql]
    exact byteIn_congr hql hx.old

lemma contentsAt_extend {d d₁ : Disk} {n : ℕ} (hlen : (hdrAt d₁ s).fileLength = (hdrAt d s).fileLength + n)
    (hbytes : ∀ q : ℕ, (q : ℤ) < (hdrAt d s).fileLength → byteIn d₁ (dataAt d₁ s) q = byteIn d (dataAt d s) q)
    {q : ℕ}
    (hq : q < (contentsAt d s).length) : (contentsAt d₁ s)[q]? = (contentsAt d s)[q]? := by
  rw [contentsAt_length] at hq
  rw [getElem?_contentsAt, getElem?_contentsAt, if_pos hq, if_pos (by omega), hbytes q (by omega)]

lemma exec_write_nothing (fm : OpenFile) (hsem : k.maps .semaphoreWrite f.hdrSector = some 1)
    (hint : int32 f.seekPosition = f.seekPosition) (hle : f.seekPosition ≤ f.hdr.fileLength) :
    ∃ k', exec (OpenFile.write fm f [] 0) k = .ok ((0, f), k') ∧ k'.maps = k.maps ∧ k'.disk = k.disk := by
  rw [OpenFile.exec_write_within _ (by rw [add_zero, hint]; omega)]
  obtain ⟨k₁, hd₁, hm₁, hstart⟩ := OpenFile.exec_writeLocked_start hsem [] 0
  have hw : exec (f.writeAt [] 0 f.seekPosition) k₁ = .ok (0, k₁) := by
    rw [OpenFile.writeAt]
    dsimp only
    rw [if_pos (.inl le_rfl)]
    rfl
  obtain ⟨k', hv, hd', hm'⟩ := OpenFile.exec_writeLocked_end hsem hm₁ (Eq.refl k₁.maps)
  refine ⟨k', ?_, hm', hd'.trans hd₁⟩
  rw [hstart, exec_bind_of_ok hw, exec_bind_of_ok hv, exec_pure, add_zero, hint]

lemma exec_write (h : Shared fs kind s k.disk handles) (hf : f.Trails k.disk s)
    (hsem : k.maps .semaphoreWrite s = some 1)
    (hp : f.seekPosition = p) (hw : f.WritesAll k.disk src) :
    ∃ f' k', exec (OpenFile.write fs.freeMapFile f src src.length) k = .ok (((src.length : ℕ), f'), k') ∧
      f'.seekPosition = (p + src.length : ℕ) ∧ k'.maps = k.maps ∧
      Shared fs kind s k'.disk handles ∧ f'.Trails k'.disk s ∧
      contentsAt k'.disk s = SharedFile.put (contentsAt k.disk s) p src := by
  obtain ⟨rfl, hle⟩ | ⟨-, hpn, hcases⟩ := hw
  · have hlen := hf.length_le
    have hhi : (hdrAt k.disk s).numBytes < 2147483648 := (toInt_bounds _).2
    have hint : int32 f.seekPosition = f.seekPosition :=
      int32_of_bounds (by omega) (by rw [FileHeader.fileLength] at hle; omega)
    obtain ⟨k', he, hm, hd⟩ := exec_write_nothing fs.freeMapFile (by rw [hf.sector]; exact hsem) hint hle
    refine ⟨f, k', he, by rw [hp, List.length_nil, add_zero], hm, ?_, ?_, ?_⟩
    · rw [hd]
      exact h
    · rw [hd]
      exact hf
    · rw [hd, SharedFile.put, if_pos rfl]
  rw [hp] at hpn hcases
  have hpn : p + src.length < 2147483648 := by omega
  have hsum : int32 (f.seekPosition + src.length) = p + src.length :=
    by rw [hp, int32_of_bounds (by omega) (by omega)]
  split at hcases
  case isTrue hin =>
    rw [OpenFile.exec_write_within _ (by rw [hsum]; omega)]
    obtain ⟨k', he, hm, h', hf', hc⟩ := h.exec_writeLocked hf hsem hp hpn (by
      rcases hcases with hcur | hsrc | hend
      · exact .inr ⟨hin, .inl hcur⟩
      · exact .inl hsrc
      · exact .inr ⟨hin, .inr hend⟩)
    exact ⟨_, k', he, rfl, hm, h', hf', hc⟩
  case isFalse hout =>
    obtain ⟨hcur, hend, hfit⟩ := hcases
    rw [OpenFile.exec_write_beyond _ (by rw [hsum]; omega)]
    rw [hf.sector] at hfit
    obtain ⟨hdr, k₁, he₁, hm₁, h₁, hh₁, hlen₁, hbytes₁⟩ := h.exec_extend hcur hf.sector _ hfit
    have hlen : (hdrAt k.disk s).fileLength = f.hdr.fileLength := by
      rw [show f.hdr = hdrAt k.disk f.hdrSector from hcur, hf.sector]
    rw [← hh₁, ← hlen] at hlen₁
    rw [← hlen] at hbytes₁
    have hcur₁ : OpenFile.Current { f with hdr := hdr } k₁.disk := by
      rw [OpenFile.Current, ← hh₁, hf.sector]
    have hf₁ : OpenFile.Trails { f with hdr := hdr } k₁.disk s :=
      hcur₁.trails hf.sector (h₁.sound.storage.file h₁.plain) h₁.backed
    have hbytes₁ : ∀ {q}, q < (contentsAt k.disk s).length →
        (contentsAt k₁.disk s)[q]? = (contentsAt k.disk s)[q]? :=
      contentsAt_extend hlen₁ hbytes₁
    obtain ⟨k', he, hm, h', hf', hc⟩ := h₁.exec_writeLocked hf₁ (by rw [hm₁]; exact hsem) hp hpn (by
      refine hend.imp id fun hend => ⟨?_, .inl hcur₁⟩
      dsimp only
      rw [← hh₁, hlen₁, hlen]
      omega)
    refine ⟨_, k', (exec_bind_of_ok he₁ _).trans he, rfl, hm.trans hm₁, h', hf', hc.trans ?_⟩
    have hl := contentsAt_length k.disk s
    have hl₁ := contentsAt_length k₁.disk s
    by_cases hsrc : src = []
    · rw [SharedFile.put, SharedFile.put, if_pos hsrc, if_pos hsrc]
      apply List.ext_getElem?
      intro q
      rw [hsrc, List.length_nil, Nat.cast_zero, add_zero] at hlen₁
      rw [hlen₁, ← hl] at hl₁
      rcases lt_or_ge q (contentsAt k.disk s).length with hq | hq
      · exact hbytes₁ hq
      · rw [List.getElem?_eq_none hq, List.getElem?_eq_none (by omega)]
    · have hend := hend.resolve_left hsrc
      apply List.ext_getElem?
      intro q
      rw [SharedFile.getElem?_put (by omega) hsrc, SharedFile.getElem?_put (by omega) hsrc]
      split
      · rfl
      · rcases lt_or_ge q (contentsAt k.disk s).length with hq | hq
        · exact hbytes₁ hq
        · rw [List.getElem?_eq_none hq, List.getElem?_eq_none (by omega)]

end Shared

namespace AtRest

variable {maps : KernelMap → ℤ → Option ℤ} {s : ℤ}

lemma semaphoreRead (h : AtRest maps) (hs : maps .semaphoreRead s ≠ none) : maps .semaphoreRead s = some 1 := by
  obtain ⟨v, hv⟩ := Option.ne_none_iff_exists'.mp hs
  have h1 : v = 1 := h _ _ _ hv
  rw [hv, h1]

lemma readerCount (h : AtRest maps) (hs : maps .readerCount s ≠ none) : maps .readerCount s = some 0 := by
  obtain ⟨v, hv⟩ := Option.ne_none_iff_exists'.mp hs
  have h0 : v = 0 := h _ _ _ hv
  rw [hv, h0]

end AtRest

namespace Sharing

lemma execute_cons {freeMapFile : OpenFile} {s : ℤ} {call : HandleCall}
    {calls : List HandleCall} {a : Answer} {as : List Answer}
    {σ σ₁ σ₂ : Sharing} (h : step freeMapFile s call σ = .ok (a, σ₁))
    (h' : execute freeMapFile s calls σ₁ = .ok (as, σ₂)) :
    execute freeMapFile s (call :: calls) σ = .ok (a :: as, σ₂) := by
  rw [execute, h]
  change (execute freeMapFile s calls σ₁ >>= fun r => pure (a :: r.1, r.2)) = _
  rw [h']
  rfl

structure Coherent (fs : FileSystem) (kind : ℤ → Option Kind) (s : ℤ) (σ : Sharing) (φ : SharedFile) : Prop where
  shared : Shared fs kind s σ.kernel.disk σ.handles
  rest : AtRest σ.kernel.maps
  keys : σ.handles ≠ [] → ∀ m, σ.kernel.maps m s ≠ none
  positions : σ.handles.map (·.seekPosition) = φ.positions
  ints : ∀ f ∈ σ.handles, int32 f.seekPosition = f.seekPosition
  bytes : φ.bytes = contentsAt σ.kernel.disk s

variable {fs : FileSystem} {kind : ℤ → Option Kind} {s : ℤ} {σ : Sharing} {φ : SharedFile} {f : OpenFile} {i : ℕ}

namespace Coherent

lemma position_none (h : σ.Coherent fs kind s φ) (hi : σ.handles[i]? = none) : φ.positions[i]? = none := by
  rw [← h.positions, List.getElem?_map, hi, Option.map_none]

lemma position_some (h : σ.Coherent fs kind s φ) (hi : σ.handles[i]? = some f) :
    φ.positions[i]? = some f.seekPosition := by
  rw [← h.positions, List.getElem?_map, hi, Option.map_some]

lemma ne_nil (hi : σ.handles[i]? = some f) : σ.handles ≠ [] := List.ne_nil_of_mem (List.mem_of_getElem? hi)

lemma set {k : Kernel} {f' : OpenFile} {p : ℤ} {bytes : List Byte} (h : σ.Coherent fs kind s φ)
    (hshared : Shared fs kind s k.disk σ.handles) (hf' : f'.Trails k.disk s) (hmaps : k.maps = σ.kernel.maps)
    (hp : f'.seekPosition = p) (hint : int32 p = p) (hbytes : bytes = contentsAt k.disk s) :
    Coherent fs kind s ⟨k, σ.handles.set i f'⟩ ⟨bytes, φ.positions.set i p⟩ := by
  refine ⟨{ hshared with handles := fun g hg => ?_ }, by rw [hmaps]; exact h.rest,
      fun hne m => ?_, ?_, fun g hg => ?_, hbytes⟩
  · exact (List.mem_or_eq_of_mem_set hg).elim (hshared.handles g) fun he => he ▸ hf'
  · rw [hmaps]
    refine h.keys (fun hnil => hne ?_) m
    simp [hnil]
  · simp only [List.map_set, h.positions, hp]
  · rcases List.mem_or_eq_of_mem_set hg with hg | rfl
    · exact h.ints g hg
    · rw [hp, hint]

lemma readAt_of_readsAll (h : σ.Coherent fs kind s φ) (hi : σ.handles[i]? = some f)
    {n : ℕ} (hp : f.ReadsAll σ.kernel.disk n)
    {k : Kernel} (hd : k.disk = σ.kernel.disk) :
    exec (f.readAt n f.seekPosition) k =
      .ok (if f.seekPosition < 0 then [] else (φ.bytes.drop f.seekPosition.toNat).take n, k) := by
  obtain rfl | ⟨h0, hpn, hcut⟩ := hp
  · rw [OpenFile.readAt]
    dsimp only
    rw [if_pos (.inl le_rfl), List.take_zero, ite_self]
    rfl
  · have hf := h.shared.handles f (List.mem_of_getElem? hi)
    obtain ⟨p, hseek⟩ := Int.eq_ofNat_of_zero_le h0
    rw [hseek, Int.toNat_natCast, hf.sector] at hcut
    rw [hseek] at hpn
    rw [← hd] at hf hcut
    rw [hseek, if_neg (by omega), Int.toNat_natCast, Shared.exec_readAt hf p n hpn hcut, h.bytes, hd]

lemma int32_of_readsAll (h : σ.Coherent fs kind s φ) (hi : σ.handles[i]? = some f)
    {n : ℕ} (hp : f.ReadsAll σ.kernel.disk n)
    {result : List Byte}
    (hresult : result = if f.seekPosition < 0 then [] else (φ.bytes.drop f.seekPosition.toNat).take n) :
    int32 (f.seekPosition + result.length) = f.seekPosition + result.length := by
  have hf := h.shared.handles f (List.mem_of_getElem? hi)
  have hint := h.ints f (List.mem_of_getElem? hi)
  by_cases hnil : result = []
  · rw [hnil, List.length_nil, Nat.cast_zero, add_zero, hint]
  · have hpos := List.length_pos_iff.mpr hnil
    have h0 : ¬f.seekPosition < 0 := fun hneg => hnil (by rw [hresult, if_pos hneg])
    rw [if_neg h0, h.bytes, contentsAt_read] at hresult
    have hlen : result.length = transferred (hdrAt σ.kernel.disk s).fileLength f.seekPosition.toNat n := by
      rw [hresult, bytesIn_length]
    have hle : transferred (hdrAt σ.kernel.disk s).fileLength f.seekPosition.toNat n ≤ n := min_le_left _ _
    obtain rfl | ⟨-, hpn, hcut⟩ := hp
    · omega
    · rw [hf.sector] at hcut
      have hlt : f.seekPosition < f.hdr.fileLength := by
        rw [← hcut, transferred] at hlen
        omega
      have := hpn hlt
      exact int32_of_bounds (by omega) (by omega)

def Matches (fs : FileSystem) (kind : ℤ → Option Kind) (s : ℤ) (call : HandleCall) (σ : Sharing) (φ : SharedFile) :
    Prop :=
  ∃ σ', Sharing.step fs.freeMapFile s call σ = .ok ((SharedFile.step call φ).1, σ') ∧
    σ'.Coherent fs kind s (SharedFile.step call φ).2

lemma step_new (h : σ.Coherent fs kind s φ) : Matches fs kind s .openFile σ φ := by
  have hshared := h.shared
  have hne := hshared.sound.plain_ne_map hshared.plain
  obtain ⟨k', he, hd, hx, -, hkeys, -⟩ := OpenFile.exec_new (hshared.sound.inDisk hshared.plain) σ.kernel
  refine ⟨⟨k', σ.handles ++ [⟨hdrAt σ.kernel.disk s, 0, s⟩]⟩,
      ?_, ?_, (hx hne).rests h.rest, fun _ => hkeys, ?_, ?_, ?_⟩
  · rw [Sharing.step, he]
    rfl
  · dsimp only
    rw [hd]
    refine { hshared with handles := fun g hg => ?_ }
    rcases List.mem_append.mp hg with hg | hg
    · exact hshared.handles g hg
    · obtain rfl := List.mem_singleton.mp hg
      have hcur : OpenFile.Current ⟨hdrAt σ.kernel.disk s, 0, s⟩ σ.kernel.disk := rfl
      exact hcur.trails rfl (hshared.sound.storage.file hshared.plain) hshared.backed
  · simp [SharedFile.step, h.positions]
  · intro g hg
    rcases List.mem_append.mp hg with hg | hg
    · exact h.ints g hg
    · obtain rfl := List.mem_singleton.mp hg
      rfl
  · simp [SharedFile.step, h.bytes, hd]

lemma step_close (h : σ.Coherent fs kind s φ) (i : ℕ) : Matches fs kind s (.close i) σ φ := by
  have hshared := h.shared
  have hne := hshared.sound.plain_ne_map hshared.plain
  rw [Matches, Sharing.step]
  cases hi : σ.handles[i]? with
  | none =>
    have hpos := List.getElem?_eq_none_iff.mp (h.position_none hi)
    refine ⟨σ, rfl, { h with positions := ?_ }⟩
    simp only [SharedFile.step, List.eraseIdx_of_length_le hpos]
    exact h.positions
  | some f =>
    have hsector := (hshared.handles f (List.mem_of_getElem? hi)).sector
    obtain ⟨k', he, hd, hx, -⟩ := OpenFile.exec_close f (by rw [hsector]; exact hne) σ.kernel
    refine ⟨⟨k', σ.handles.eraseIdx i⟩, ?_, ?_, hx.rests h.rest, fun _ m => hx.keeps (h.keys (ne_nil hi) m), ?_,
      fun g hg => h.ints g (List.mem_of_mem_eraseIdx hg), ?_⟩
    · dsimp only
      rw [he]
      rfl
    · dsimp only
      rw [hd]
      exact { hshared with handles := fun g hg => hshared.handles g (List.mem_of_mem_eraseIdx hg) }
    · simp only [SharedFile.step, ← List.eraseIdx_map, h.positions]
    · simp [SharedFile.step, h.bytes, hd]

lemma step_seek (h : σ.Coherent fs kind s φ) (i : ℕ) (position : Word) :
    Matches fs kind s (.seek i position) σ φ := by
  have hshared := h.shared
  rw [Matches, Sharing.step]
  cases hi : σ.handles[i]? with
  | none =>
    have hpos := List.getElem?_eq_none_iff.mp (h.position_none hi)
    refine ⟨σ, rfl, { h with positions := ?_ }⟩
    simp only [SharedFile.step, List.set_eq_of_length_le hpos]
    exact h.positions
  | some f =>
    exact ⟨_, rfl, h.set hshared ((hshared.handles f (List.mem_of_getElem? hi)).seek position.toInt) rfl rfl
      (int32_of_bounds (toInt_bounds _).1 (toInt_bounds _).2) h.bytes⟩

lemma step_read (h : σ.Coherent fs kind s φ) {i n : ℕ} (hp : σ.Permitted (.read i n)) :
    Matches fs kind s (.read i n) σ φ := by
  have hshared := h.shared
  rw [Matches, Sharing.step, SharedFile.step]
  cases hi : σ.handles[i]? with
  | none =>
    rw [h.position_none hi]
    exact ⟨σ, rfl, h⟩
  | some f =>
    have hf := hshared.handles f (List.mem_of_getElem? hi)
    have hkeys := h.keys (ne_nil hi)
    rw [← hf.sector] at hkeys
    have hread := OpenFile.exec_read (h.rest.semaphoreRead (hkeys _)) (h.rest.semaphoreWrite (hkeys _))
      (h.rest.readerCount (hkeys _)) fun k₁ hd => h.readAt_of_readsAll hi (hp f hi) hd
    have hint := h.int32_of_readsAll hi (hp f hi) rfl
    rw [h.position_some hi]
    dsimp only
    refine ⟨_, ?_, h.set hshared (hf.seek (int32 (f.seekPosition + _))) rfl hint (by rw [hint]) h.bytes⟩
    rw [hread]
    rfl

lemma step_write (h : σ.Coherent fs kind s φ) {i : ℕ} {src : List Byte} (hp : σ.Permitted (.write i src)) :
    Matches fs kind s (.write i src) σ φ := by
  have hshared := h.shared
  rw [Matches, Sharing.step, SharedFile.step]
  cases hi : σ.handles[i]? with
  | none =>
    rw [h.position_none hi]
    exact ⟨σ, rfl, h⟩
  | some f =>
    have hf := hshared.handles f (List.mem_of_getElem? hi)
    have hint := h.ints f (List.mem_of_getElem? hi)
    have hsem := h.rest.semaphoreWrite (h.keys (ne_nil hi) .semaphoreWrite)
    rw [h.position_some hi]
    dsimp only
    rcases lt_or_ge f.seekPosition 0 with hneg | h0
    · -- only an empty request is permitted before the first byte
      obtain ⟨rfl, hle⟩ := (hp f hi).resolve_right fun hw => absurd hw.1 (by omega)
      obtain ⟨k', he, hm, hd⟩ :=
        Shared.exec_write_nothing fs.freeMapFile (by rw [hf.sector]; exact hsem) hint hle
      rw [if_pos hneg]
      refine ⟨⟨k', σ.handles.set i f⟩, ?_, ?_⟩
      · rw [List.length_nil, Nat.cast_zero, he]
        rfl
      · have hset : σ.handles.set i f = σ.handles := by
          obtain ⟨hlt, rfl⟩ := List.getElem?_eq_some_iff.mp hi
          exact List.set_getElem_self hlt
        rw [hset]
        exact ⟨by rw [hd]; exact hshared, by rw [hm]; exact h.rest, fun hne m => by rw [hm]; exact h.keys hne m,
          h.positions, h.ints, by rw [hd]; exact h.bytes⟩
    · obtain ⟨p, hseek⟩ := Int.eq_ofNat_of_zero_le h0
      obtain ⟨f', k', he, hp', hm, hs', hf', hc⟩ := hshared.exec_write hf hsem hseek (hp f hi)
      rw [if_neg (by omega)]
      refine ⟨⟨k', σ.handles.set i f'⟩, ?_, h.set hs' hf' hm ?_ ?_ ?_⟩
      · rw [he]
        rfl
      · rw [hp', hseek]
        push_cast
        rfl
      · obtain ⟨rfl, -⟩ | ⟨-, hpn, -⟩ := hp f hi
        · rw [List.length_nil, Nat.cast_zero, add_zero, hint]
        · exact int32_of_bounds (by omega) (by omega)
      · rw [hc, h.bytes, hseek]
        rfl

lemma step {call : HandleCall} (h : σ.Coherent fs kind s φ) (hp : σ.Permitted call) :
    ∃ σ', Sharing.step fs.freeMapFile s call σ = .ok ((SharedFile.step call φ).1, σ') ∧
      σ'.Coherent fs kind s (SharedFile.step call φ).2 := by
  cases call with
  | openFile => exact h.step_new
  | close i => exact h.step_close i
  | seek i position => exact h.step_seek i position
  | read i n => exact h.step_read hp
  | write i src => exact h.step_write hp

lemma execute (calls : List HandleCall) : ∀ {σ : Sharing} {φ : SharedFile}, σ.Coherent fs kind s φ →
    σ.Permits fs.freeMapFile s calls →
    ∃ σ', Sharing.execute fs.freeMapFile s calls σ = .ok ((SharedFile.execute calls φ).1, σ') ∧
      σ'.Coherent fs kind s (SharedFile.execute calls φ).2 := by
  induction calls with
  | nil => exact fun h _ => ⟨_, rfl, h⟩
  | cons call calls ih =>
    intro σ φ h hp
    obtain ⟨σ₁, he₁, h₁⟩ := h.step hp.1
    obtain ⟨σ₂, he₂, h₂⟩ := ih h₁ (hp.2 _ _ he₁)
    exact ⟨σ₂, execute_cons he₁ he₂, h₂⟩

end Coherent

lemma step_openFile (freeMapFile : OpenFile) (hs : InDisk s) (σ : Sharing) :
    ∃ k', step freeMapFile s .openFile σ = .ok (.done, ⟨k', σ.handles ++ [⟨hdrAt σ.kernel.disk s, 0, s⟩]⟩) ∧
      k'.disk = σ.kernel.disk := by
  obtain ⟨k', he, hd, -⟩ := OpenFile.exec_new hs σ.kernel
  refine ⟨k', ?_, hd⟩
  rw [step, he]
  rfl

lemma handles_of_write {freeMapFile : OpenFile} {src : List Byte}
    {a : Answer} {σ' : Sharing} (hi : σ.handles[i]? = some f)
    (h : step freeMapFile s (.write i src) σ = .ok (a, σ')) : ∃ f', σ'.handles = σ.handles.set i f' := by
  rw [step, hi] at h
  obtain ⟨⟨⟨r, f'⟩, k⟩, -, h⟩ := bind_eq_ok.mp h
  cases h
  exact ⟨f', rfl⟩

end Sharing

lemma System.Reachable.coherent {sys : System}
    (h : System.Reachable (fun sys op => sys.Regular op ∧ op.Counted) sys) {t : ℕ}
    {path name : CString} {dir : ℤ} {e : DirectoryEntry}
    (hr : resolve sys.kernel.disk (components path) (sys.wd t) = some (dir, name))
    (hl : lookupIn sys.kernel.disk dir name = some e) (hplain : e.isDir = 0) :
    ∃ kind, Sharing.Coherent sys.fs kind e.sector.toInt ⟨sys.kernel, []⟩
    ⟨contentsAt sys.kernel.disk e.sector.toInt, []⟩ := by
  obtain ⟨kind, hst, hb⟩ := h.backed
  have hs := hst.sound
  have hk : kind e.sector.toInt = some .plain := by
    rw [hs.kind_of_lookupIn (hs.kind_of_resolve _ (hst.wd t) hr) hl, DirectoryEntry.kind, if_pos hplain]
  exact ⟨kind, ⟨hs, hk, hb hk, fun f hf => absurd hf List.not_mem_nil⟩, hst.rest, fun hne => absurd rfl hne, rfl,
    fun f hf => absurd hf List.not_mem_nil, rfl⟩

/-- The handles on a plain file, opened at any time and used in any order, are as good as one shared file of
bytes as long as every call goes through a handle that knows enough of the file. -/
theorem handles_coherent (sys : System)
    (h : System.Reachable (fun sys op => sys.Regular op ∧ op.Counted) sys) (t : ℕ)
    (path name : CString) (dir : ℤ) (e : DirectoryEntry)
    (hr : resolve sys.kernel.disk (components path) (sys.wd t) = some (dir, name))
    (hl : lookupIn sys.kernel.disk dir name = some e) (hplain : e.isDir = 0) (calls : List HandleCall)
    (hp : Sharing.Permits ⟨sys.kernel, []⟩ sys.fs.freeMapFile e.sector.toInt calls) :
    ∃ σ, Sharing.execute sys.fs.freeMapFile e.sector.toInt calls ⟨sys.kernel, []⟩ =
      .ok ((SharedFile.execute calls ⟨contentsAt sys.kernel.disk e.sector.toInt, []⟩).1, σ) := by
  obtain ⟨kind, hc⟩ := h.coherent hr hl hplain
  obtain ⟨σ, he, -⟩ := hc.execute calls hp
  exact ⟨σ, he⟩

lemma System.boot_empty_file : ∃ (sys : System) (e : DirectoryEntry) (kind : ℤ → Option Kind),
    System.Reachable (fun sys op => sys.Regular op ∧ op.Counted) sys ∧
    resolve sys.kernel.disk (components pathF) (sys.wd 0) = some (DirectorySector, pathF) ∧
    lookupIn sys.kernel.disk DirectorySector pathF = some e ∧ e.isDir = 0 ∧
    Sharing.Coherent sys.fs kind e.sector.toInt ⟨sys.kernel, []⟩ ⟨[], []⟩ ∧
    contentsAt sys.kernel.disk e.sector.toInt = [] ∧ (hdrAt sys.kernel.disk e.sector.toInt).fileLength = 0 ∧
    Fits (dataAt sys.kernel.disk e.sector.toInt).length (1 : ℕ) (freeMapAt sys.kernel.disk).free.length := by
  obtain ⟨sys₀, k₁, i, hb, hf, hst, hwd, hcreate, -, hi, hinst, -⟩ := System.boot_create
  have hroom := freeSlot_of_unused (by rw [hf.slots]; decide) hf.unused
  obtain ⟨e, hlook, hsec, hplain⟩ :=
    hinst.lookupIn_eq (inDisk_of_free (mem_sectors_of_head hi)) (hf.lookupIn_root _) hroom
  let sys₁ : System := { sys₀ with kernel := k₁ }
  have h₁ : System.step (.create 0 pathF 0) sys₀ = .ok sys₁ := by
    rw [System.step, hcreate]
    rfl
  have hreach : System.Reachable (fun sys op => sys.Regular op ∧ op.Counted) sys₁ :=
    ⟨Kernel.blank, sys₀, hb, .step (.create 0 pathF 0) .refl ⟨show int32 0 = 0 by decide, trivial⟩ h₁⟩
  have hres : resolve sys₁.kernel.disk (components pathF) (sys₁.wd 0) = some (DirectorySector, pathF) := by
    change resolve k₁.disk _ (sys₀.wd 0) = _
    rw [hwd]
    rfl
  have hlen : (hdrAt k₁.disk i).fileLength = 0 := by
    obtain ⟨p, ds, hh⟩ := hinst.hdr
    rw [hh]
    rfl
  have hempty : contentsAt k₁.disk i = [] := by
    rw [contentsAt, hlen]
    rfl
  obtain ⟨kind, hc⟩ := hreach.coherent hres hlook hplain
  have hfree := hinst.free
  rw [hf.free, sectorsNeeded_zero, newBlocks_zero] at hfree
  refine ⟨sys₁, e, kind, hreach, hres, hlook, hplain, ?_, ?_, ?_, ?_⟩
  · rw [show contentsAt sys₁.kernel.disk e.sector.toInt = [] by rw [hsec]; exact hempty] at hc
    exact hc
  · rw [hsec]
    exact hempty
  · rw [hsec]
    exact hlen
  · have hneed : sectorsNeeded ((1 : ℕ) : ℤ) = 1 := by decide
    have hdata : (dataAt k₁.disk i).length = 0 := hinst.data.trans sectorsNeeded_zero
    have hnew : newBlocks 0 1 = 1 := rfl
    rw [hsec]
    change Fits (dataAt k₁.disk i).length _ (freeMapAt k₁.disk).free.length
    rw [hdata, Fits, hneed, hnew]
    omega

theorem handles_coherent_reopened : ∃ (sys : System) (e : DirectoryEntry) (σ : Sharing),
    lookupIn sys.kernel.disk DirectorySector pathF = some e ∧
    Sharing.execute sys.fs.freeMapFile e.sector.toInt
    [.openFile, .write 0 [0x61], .openFile, .read 1 1] ⟨sys.kernel, []⟩ =
      .ok ([.done, .count 1, .done, .bytes [0x61]], σ) := by
  obtain ⟨sys, e, kind, hreach, hres, hlook, hplain, hc, hempty, hlen, hfit⟩ := System.boot_empty_file
  have hin := hc.shared.sound.inDisk hc.shared.plain
  obtain ⟨k₁, he₁, hd₁⟩ := Sharing.step_openFile sys.fs.freeMapFile hin ⟨sys.kernel, []⟩
  obtain ⟨σ₁, he₁', hc₁⟩ := hc.step (show Sharing.Permitted _ .openFile from trivial)
  obtain rfl := (Prod.mk.inj (Except.ok.inj (he₁'.symm.trans he₁))).2
  have hw :
      Sharing.Permitted ⟨k₁, [⟨hdrAt sys.kernel.disk e.sector.toInt, 0, e.sector.toInt⟩]⟩ (.write 0 [0x61]) := by
    intro f hf
    cases hf
    refine .inr ⟨le_rfl, (by decide : (0 : ℤ) + ((1 : ℕ) : ℤ) < 2147483648), ?_⟩
    dsimp only
    rw [hlen, if_neg (by decide), hd₁]
    exact ⟨rfl, .inr rfl, hfit⟩
  have hp : Sharing.Permits ⟨sys.kernel, []⟩ sys.fs.freeMapFile e.sector.toInt
      [.openFile, .write 0 [0x61], .openFile, .read 1 1] := by
    refine ⟨trivial, fun a σ ha => ?_⟩
    obtain rfl := (Prod.mk.inj (Except.ok.inj (ha.symm.trans he₁))).2
    refine ⟨hw, fun a₂ σ₂ ha₂ => ⟨trivial, fun a₃ σ₃ ha₃ => ⟨fun f hf => ?_, fun _ _ _ => trivial⟩⟩⟩
    obtain ⟨f', hf'⟩ := Sharing.handles_of_write rfl ha₂
    obtain ⟨k₃, he₃, hd₃⟩ := Sharing.step_openFile sys.fs.freeMapFile hin σ₂
    obtain rfl := (Prod.mk.inj (Except.ok.inj (ha₃.symm.trans he₃))).2
    dsimp only at hf hd₃ ⊢
    rw [hf'] at hf
    cases hf
    rw [hd₃]
    exact .inr ⟨le_rfl, fun _ => (by decide : (0 : ℤ) + ((1 : ℕ) : ℤ) < 2147483648), rfl⟩
  obtain ⟨σ, he⟩ := handles_coherent sys hreach 0 pathF pathF DirectorySector e hres hlook hplain _ hp
  rw [hempty] at he
  exact ⟨sys, e, σ, hlook, he⟩

/-- A handle that was opened before another one extended the file does not see what was written. -/
theorem extension_not_visible : ∃ (sys : System) (e : DirectoryEntry) (σ : Sharing),
    System.Reachable (fun sys op => sys.Regular op ∧ op.Counted) sys ∧
    resolve sys.kernel.disk (components pathF) (sys.wd 0) = some (DirectorySector, pathF) ∧
    lookupIn sys.kernel.disk DirectorySector pathF = some e ∧ e.isDir = 0 ∧
    Sharing.execute sys.fs.freeMapFile e.sector.toInt
    [.openFile, .openFile, .write 0 [0x61], .read 1 1] ⟨sys.kernel, []⟩ =
      .ok ([.done, .done, .count 1, .bytes []], σ) ∧
    (SharedFile.execute [.openFile, .openFile, .write 0 [0x61], .read 1 1]
      ⟨contentsAt sys.kernel.disk e.sector.toInt, []⟩).1 = [.done, .done, .count 1, .bytes [0x61]] := by
  obtain ⟨sys, e, kind, hreach, hres, hlook, hplain, hc, hempty, hlen, hfit⟩ := System.boot_empty_file
  have hin := hc.shared.sound.inDisk hc.shared.plain
  let f : OpenFile := ⟨hdrAt sys.kernel.disk e.sector.toInt, 0, e.sector.toInt⟩
  obtain ⟨k₁, he₁, hd₁⟩ := Sharing.step_openFile sys.fs.freeMapFile hin ⟨sys.kernel, []⟩
  obtain ⟨σ₁, he₁', hc₁⟩ := hc.step (show Sharing.Permitted _ .openFile from trivial)
  obtain rfl := (Prod.mk.inj (Except.ok.inj (he₁'.symm.trans he₁))).2
  obtain ⟨k₂, he₂, hd₂⟩ := Sharing.step_openFile sys.fs.freeMapFile hin ⟨k₁, [f]⟩
  obtain ⟨σ₂, he₂', hc₂⟩ := hc₁.step (show Sharing.Permitted _ .openFile from trivial)
  obtain rfl := (Prod.mk.inj (Except.ok.inj (he₂'.symm.trans he₂))).2
  dsimp only at hd₁ hd₂
  have hw : Sharing.Permitted ⟨k₂, [f, ⟨hdrAt k₁.disk e.sector.toInt, 0, e.sector.toInt⟩]⟩ (.write 0 [0x61]) := by
    intro g hg
    cases hg
    refine .inr ⟨le_rfl, (by decide : (0 : ℤ) + ((1 : ℕ) : ℤ) < 2147483648), ?_⟩
    dsimp only [f]
    rw [hlen, if_neg (by decide), hd₂, hd₁]
    exact ⟨rfl, .inr rfl, hfit⟩
  obtain ⟨σ₃, he₃, hc₃⟩ := hc₂.step hw
  obtain ⟨f', hf'⟩ := Sharing.handles_of_write rfl he₃
  have hg : σ₃.handles[1]? = some f := by
    rw [hf', hd₁]
    rfl
  have hkeys := hc₃.keys (Sharing.Coherent.ne_nil hg)
  have hread := OpenFile.exec_read (f := f) (n := (1 : ℕ)) (hc₃.rest.semaphoreRead (hkeys _))
    (hc₃.rest.semaphoreWrite (hkeys _)) (hc₃.rest.readerCount (hkeys _)) fun k _ => by
      have hend : ((1 : ℕ) : ℤ) ≤ 0 ∨ f.seekPosition ≥ f.hdr.fileLength := .inr hlen.le
      rw [OpenFile.readAt]
      dsimp only
      rw [if_pos hend]
      exact exec_pure [] k
  have he₄ : Sharing.step sys.fs.freeMapFile e.sector.toInt (.read 1 1) σ₃ =
      .ok (.bytes [], ⟨σ₃.kernel, σ₃.handles.set 1 { f with seekPosition := 0 }⟩) := by
    rw [Sharing.step, hg]
    dsimp only
    rw [hread]
    rfl
  exact ⟨sys, e, _, hreach, hres, hlook, hplain, Sharing.execute_cons he₁ (Sharing.execute_cons he₂
    (Sharing.execute_cons he₃ (Sharing.execute_cons he₄ rfl))), by rw [hempty]; decide⟩

end NachosFileSys
