import NachosFileSys.VirtualMemory
import NachosFileSys.Findability

namespace NachosFileSys

open Lib.Programs Lib.Bytes

abbrev NOFFMAGIC : ℤ := 0xbadfad
abbrev UserStackSize : ℤ := 1024

structure Segment where
  virtualAddr : ℤ
  inFileAddr : ℤ
  size : ℤ
  deriving DecidableEq, Repr

def Segment.covers (s : Segment) (v : ℤ) : Prop := s.virtualAddr ≤ v ∧ v < s.virtualAddr + s.size

structure NoffHeader where
  noffMagic : ℤ
  code : Segment
  initData : Segment
  readonlyData : Segment
  uninitData : Segment
  deriving DecidableEq, Repr

namespace NoffHeader

def field (bytes : List Byte) (i : ℕ) : ℤ := (wordOf fun c => bytes.getD (4 * i + c) 0).toInt

def segment (bytes : List Byte) (i : ℕ) : Segment := ⟨field bytes i, field bytes (i + 1), field bytes (i + 2)⟩

def ofBytes (bytes : List Byte) : NoffHeader :=
  ⟨field bytes 0, segment bytes 1, segment bytes 4, segment bytes 7, segment bytes 10⟩

def numPages (noffH : NoffHeader) : ℕ :=
  let size :=
    (noffH.code.size + noffH.readonlyData.size + noffH.initData.size + noffH.uninitData.size + UserStackSize) %
    2 ^ 32
  (size / 128 + if size % 128 > 0 then 1 else 0).toNat

end NoffHeader

namespace AddrSpace

/-- The loop of `AddrSpace::Load` for `count` pages from page `i` on. A short read leaves the rest of the new
buffer as it is. -/
def loadLoop (executable : OpenFile) (inFileAddr : ℤ) (space : ℕ) : ℕ → ℕ → PagedMachine → Nachos PagedMachine
  | 0, _, m => pure m
  | count + 1, i, m => do
    let buffer ← malloc 128
    let bytes ← executable.readAt 128 (int32 (inFileAddr + int32 (i * 128)))
    let buffer ← lift (copyInto buffer 0 bytes)
    loadLoop executable inFileAddr space count (i + 1) (m.loadPage space i fun j => buffer.getD j 0)

/-- `AddrSpace::Load` after `Open`. `WordToHost` is the identity on this host, so `SwapHeader` is not called.
Without code there is no page table. -/
def loadExecutable (executable : OpenFile) (m : PagedMachine) : Nachos PagedMachine := do
  let buffer ← malloc 52
  let bytes ← executable.readAt 52 0
  let buffer ← lift (copyInto buffer 0 bytes)
  let noffH := NoffHeader.ofBytes buffer
  assert (noffH.noffMagic = NOFFMAGIC)
  let m' ← (if noffH.code.size > 0 then do
      let m' ← loadLoop executable noffH.code.inFileAddr m.numPages.length noffH.numPages 0 m
      pure { m' with numPages := m'.numPages ++ [noffH.numPages] }
    else pure m)
  executable.close
  pure m'

def load (fileName : CString) (m : PagedMachine) : Nachos (Bool × PagedMachine) := do
  match ← FileSystem.openFile fileName DirectorySector with
  | none => pure (false, m)
  | some executable =>
    let m ← loadExecutable executable m
    pure (true, m)

variable {f : OpenFile} {k k' : Kernel} {bs secs : List ℤ}

def contents (f : OpenFile) (d : Disk) (secs : List ℤ) : List Byte := bytesIn d secs 0 f.hdr.fileLength.toNat

lemma contents_length (f : OpenFile) (d : Disk) (secs : List ℤ) :
    (contents f d secs).length = f.hdr.fileLength.toNat :=
  bytesIn_length ..

lemma exec_readAt_page (hf : f.Backed k.disk bs secs) {n p : ℕ} (hn : n ≤ 128) (hp : p < 2147483648) :
    exec (f.readAt n p) k = .ok (bytesIn k.disk secs p (transferred f.hdr.fileLength p n), k) := by
  have hlen := hf.length_le
  have hsecs := hf.on.secs_le
  by_cases hpast : f.hdr.fileLength ≤ p
  · have hc : transferred f.hdr.fileLength p n = 0 := by
      rw [transferred]
      omega
    rw [OpenFile.readAt]
    dsimp only
    rw [if_pos (.inr hpast), hc]
    rfl
  · exact OpenFile.exec_readAt hf n p (by omega)

lemma byteToSector_negative {h : FileHeader} {i s : ℤ} (hi : i < 0)
    (he : exec (h.byteToSector (i * SectorSize)) k = .ok (s, k')) :
    False := by
  rw [FileHeader.byteToSector, Int.mul_tdiv_cancel _ (by decide)] at he
  obtain ⟨b, k₁, hb, he⟩ := exec_bind_ok.mp he
  obtain ⟨hslot, rfl⟩ := exec_lift_eq_ok.mp hb
  obtain ⟨block, k₂, hr, he⟩ := exec_bind_ok.mp he
  obtain ⟨p, k₃, hp, -⟩ := exec_bind_ok.mp he
  obtain ⟨hsec, -⟩ := exec_lift_eq_ok.mp hp
  rw [IndirectBlock.byteToSector, check, Int.mul_tdiv_cancel _ (by decide)] at hsec
  split at hsec
  case isFalse => cases hsec
  case isTrue =>
    -- the quotient and the remainder cannot both be indices
    have hq := (index_eq_ok.mp hslot).1
    have hm := (index_eq_ok.mp hsec).1
    have hdm := Int.mul_tdiv_add_tmod i MaxSector
    have hmax : (0 : ℤ) ≤ MaxSector := by decide
    have hprod := mul_nonneg hmax hq
    omega

lemma readAt_negative (hlen : 0 ≤ f.hdr.fileLength) {p : ℤ} {bytes : List Byte} (hp : p < 0)
    (hlow : -2147483648 ≤ p) (he : exec (f.readAt 128 p) k = .ok (bytes, k')) : False := by
  rw [OpenFile.readAt] at he
  dsimp only at he
  have hsum : int32 (p + 128) = p + 128 := int32_of_bounds (by omega) (by omega)
  rw [if_neg (by omega), hsum] at he
  generalize hc : (if p + 128 > f.hdr.fileLength then int32 (f.hdr.fileLength - p) else 128) = c at he
  have hbounds : 0 < c ∧ c ≤ 128 := by
    rw [← hc]
    split
    · rw [int32_of_bounds (by omega) (by omega)]
      omega
    · omega
  have hend : int32 (p + c) = p + c := int32_of_bounds (by omega) (by omega)
  have hlast : int32 (p + c - 1) = p + c - 1 := int32_of_bounds (by omega) (by omega)
  rw [hend, hlast] at he
  split at he
  · exact absurd he (by simp)
  · obtain ⟨buf, k₁, hread, he⟩ := exec_bind_ok.mp he
    obtain ⟨hslice, -⟩ := exec_lift_eq_ok.mp he
    rw [slice] at hslice
    split at hslice
    case isFalse => cases hslice
    case isTrue hoff =>
      have hdm : 128 * p.tdiv SectorSize + p.tmod SectorSize = p := Int.mul_tdiv_add_tmod p 128
      have hmod : 0 ≤ (-p).tmod SectorSize := Int.tmod_nonneg _ (by omega)
      rw [Int.neg_tmod] at hmod
      have hstart : 0 ≤ p - p.tdiv SectorSize * 128 := hoff.1
      rw [divRoundDown] at hread
      have hfirst : p.tdiv SectorSize < 0 := by omega
      have hle : p.tdiv SectorSize ≤ (p + c - 1).tdiv SectorSize := Int.tdiv_le_tdiv (by decide) (by omega)
      obtain ⟨n, hn⟩ : ∃ n, (1 + divRoundDown (p + c - 1) SectorSize - p.tdiv SectorSize).toNat = n + 1 :=
        ⟨_, (Nat.succ_pred_eq_of_pos (by rw [divRoundDown]; omega)).symm⟩
      rw [hn, OpenFile.readSectors] at hread
      obtain ⟨s, k₂, hs, -⟩ := exec_bind_ok.mp hread
      exact byteToSector_negative hfirst hs

structure ImageOf (bytes : List Byte) (a i : ℕ) (heap : ℕ → Byte) (pages : List Page) : Prop where
  inside : ∀ q (hq : q < pages.length) (j : Fin 128), a + 128 * (i + q) + j.val < bytes.length →
    pages[q] j = bytes.getD (a + 128 * (i + q) + j.val) 0
  beyond : ∀ b, (∀ n, heap n = b) → ∀ q (hq : q < pages.length) (j : Fin 128),
    bytes.length ≤ a + 128 * (i + q) + j.val → pages[q] j = b

lemma getD_page (d : Disk) (heap : ℕ → Byte) {p len n j : ℕ} (hn : n = min 128 (len - p)) (hj : j < 128) :
    (overlay ((List.range 128).map heap) 0 (bytesIn d secs p n)).getD j 0 =
      if p + j < len then (bytesIn d secs 0 len).getD (p + j) 0 else heap j := by
  rw [OpenFile.getD_overlay _ _ _ (by rw [bytesIn_length, List.length_map, List.length_range]; omega),
      bytesIn_length]
  by_cases h : p + j < len
  · rw [if_pos h, if_pos (by omega), Nat.sub_zero, getD_bytesIn _ _ _ _ _ (by omega),
        getD_bytesIn _ _ _ _ _ h, Nat.zero_add]
  · rw [if_neg h, if_neg (by omega), List.getD_eq_getElem?_getD, List.getElem?_map, List.getElem?_range hj]
    rfl

lemma exec_loadLoop (hf : f.Backed k.disk bs secs) (a space : ℕ) (count : ℕ) :
    ∀ (i : ℕ) (m : PagedMachine) (heap : ℕ → Byte),
    (∀ q < count, a + 128 * (i + q) < 2147483648) →
    ∃ pages heap', pages.length = count ∧ ImageOf (contents f k.disk secs) a i heap pages ∧
      exec (loadLoop f a space count i m) { k with heap := heap } =
        .ok (PagedMachine.loadPages space pages i m, { k with heap := heap' }) := by
  induction count with
  | zero =>
    intro i m heap _
    exact ⟨[], heap, rfl,
        ⟨fun q hq => absurd hq (Nat.not_lt_zero q), fun _ _ q hq => absurd hq (Nat.not_lt_zero q)⟩, rfl⟩
  | succ count ih =>
    intro i m heap hpos
    have hp : a + 128 * i < 2147483648 := hpos 0 (Nat.succ_pos count)
    have hadd : int32 ((a : ℤ) + int32 ((i : ℤ) * 128)) = ((a + 128 * i : ℕ) : ℤ) := by
      rw [int32_of_bounds (x := (i : ℤ) * 128) (by omega) (by omega), int32_of_bounds (by omega) (by omega)]
      push_cast
      ring
    set n := transferred f.hdr.fileLength (a + 128 * i) 128 with hn
    have hle : n ≤ 128 := by
      rw [hn, transferred]
      omega
    set page : Page :=
      fun j => (overlay ((List.range 128).map heap) 0 (bytesIn k.disk secs (a + 128 * i) n)).getD j 0 with hpage
    obtain ⟨pages, heap', hlen, himage, he⟩ := ih (i + 1) (m.loadPage space i page) (fun j => heap (j + 128))
      (fun q hq => by
        have := hpos (q + 1) (Nat.succ_lt_succ hq)
        omega)
    have hbyte : ∀ j : Fin 128, page j = if a + 128 * i + j.val < (contents f k.disk secs).length then
        (contents f k.disk secs).getD (a + 128 * i + j.val) 0 else heap j := by
      intro j
      rw [contents_length]
      exact getD_page k.disk heap hn j.isLt
    refine ⟨page :: pages, heap', by rw [List.length_cons, hlen], ⟨?_, ?_⟩, ?_⟩
    · intro q hq j hin
      cases q with
      | zero =>
        rw [Nat.add_zero] at hin ⊢
        rw [List.getElem_cons_zero, hbyte, if_pos hin]
      | succ q =>
        have hq' : q < pages.length := Nat.lt_of_succ_lt_succ hq
        rw [List.getElem_cons_succ,
          himage.inside q hq' j (by rw [show i + 1 + q = i + (q + 1) by ring]; exact hin),
          show i + 1 + q = i + (q + 1) by ring]
    · intro b hb q hq j hout
      cases q with
      | zero => rw [List.getElem_cons_zero, hbyte, if_neg (by rw [Nat.add_zero] at hout; omega), hb]
      | succ q =>
        have hq' : q < pages.length := Nat.lt_of_succ_lt_succ hq
        exact himage.beyond b (fun n => hb _) q hq' j (by rw [show i + 1 + q = i + (q + 1) by ring]; exact hout)
    · have hread : exec (f.readAt 128 ((a + 128 * i : ℕ) : ℤ)) { k with heap := fun j => heap (j + 128) } =
          .ok (bytesIn k.disk secs (a + 128 * i) n, { k with heap := fun j => heap (j + 128) }) :=
        exec_readAt_page (k := { k with heap := fun j => heap (j + 128) }) hf (n := 128) le_rfl hp
      rw [loadLoop, exec_bind_of_ok (exec_malloc 128 _), hadd]
      dsimp only
      rw [exec_bind_of_ok hread, ← Nat.cast_zero,
        OpenFile.copyInto_natCast _ _ _ (by rw [bytesIn_length, List.length_map, List.length_range]; omega),
        exec_bind_of_ok (exec_lift_ok _ _)]
      exact he

lemma loadLoop_bound (hlen : 0 ≤ f.hdr.fileLength) {a : ℕ} (ha : a < 2147483648) (space count : ℕ) :
    ∀ {i : ℕ} {m m' : PagedMachine} {k k' : Kernel}, a + 128 * i < 2147483648 + 128 →
      exec (loadLoop f a space count i m) k = .ok (m', k') → ∀ q < count, a + 128 * (i + q) < 2147483648 := by
  induction count with
  | zero =>
    intro i m m' k k' _ _ q hq
    exact absurd hq (Nat.not_lt_zero q)
  | succ count ih =>
    intro i m m' k k' hi he
    rw [loadLoop] at he
    obtain ⟨buffer, k₁, -, he⟩ := exec_bind_ok.mp he
    obtain ⟨bytes, k₂, hread, he⟩ := exec_bind_ok.mp he
    obtain ⟨buffer', k₃, -, he⟩ := exec_bind_ok.mp he
    have hfirst : a + 128 * i < 2147483648 := by
      by_contra hlarge
      have hpos : int32 ((a : ℤ) + int32 ((i : ℤ) * 128)) = a + 128 * i - 4294967296 := by
        by_cases hsmall : 128 * i < 2147483648
        · rw [int32_of_bounds (x := (i : ℤ) * 128) (by omega) (by omega), int32_wrap (by omega) (by omega)]
          ring
        · rw [int32_wrap (x := (i : ℤ) * 128) (by omega) (by omega), int32_of_bounds (by omega) (by omega)]
          ring
      rw [hpos] at hread
      exact readAt_negative hlen (by omega) (by omega) hread
    intro q hq
    cases q with
    | zero => exact hfirst
    | succ q =>
      have hrest := ih (by omega) he q (Nat.lt_of_succ_lt_succ hq)
      omega

end AddrSpace

namespace NoffHeader

def inFile (noffH : NoffHeader) : List Segment := [noffH.code, noffH.readonlyData, noffH.initData]

def segments (noffH : NoffHeader) : List Segment := noffH.inFile ++ [noffH.uninitData]

structure WellFormed (bytes : List Byte) : Prop where
  header : 52 ≤ bytes.length
  magic : (ofBytes bytes).noffMagic = NOFFMAGIC
  code : 0 < (ofBytes bytes).code.size
  inside : ∀ s ∈ (ofBytes bytes).inFile, 0 < s.size → 0 ≤ s.inFileAddr ∧ s.inFileAddr + s.size ≤ bytes.length
  mapped : ∀ s ∈ (ofBytes bytes).segments, 0 < s.size →
    0 ≤ s.virtualAddr ∧ s.virtualAddr + s.size ≤ 128 * ((ofBytes bytes).numPages : ℤ)
  apart : (ofBytes bytes).segments.Pairwise fun s t => ∀ v, ¬(s.covers v ∧ t.covers v)

end NoffHeader

def PagedMachine.virtualByte (m : PagedMachine) (space : ℕ) (v : ℤ) : Byte :=
  let entry := m.pageTable (space, pageOf v)
  (if entry.valid then m.frame entry.physicalPage else m.swapSpace entry.virtualPage) ⟨(v % 128).toNat, by omega⟩

lemma PagedMachine.virtualByte_load (m : PagedMachine) (image : List Page)
    {v : ℤ} (h0 : 0 ≤ v) (hv : v < 128 * (image.length : ℤ)) :
    (m.load image).virtualByte m.numPages.length v = imageByte image v := by
  have hl := loadPages_loaded m.numPages.length image 0 m
  have hpage : pageOf v < image.length := by
    rw [pageOf]
    omega
  have hentry := hl.entry (pageOf v) hpage
  rw [zero_add] at hentry
  have hslot := hl.slot (pageOf v) hpage
  rw [virtualByte, show (m.load image).pageTable = (loadPages m.numPages.length image 0 m).pageTable from
      rfl, hentry]
  dsimp only
  rw [if_neg Bool.false_ne_true, show (m.load image).swapSpace =
    (loadPages m.numPages.length image 0 m).swapSpace from rfl,
    hslot, imageByte, dif_pos (show (v / 128).toNat < image.length from hpage)]
  rfl

namespace NoffHeader

lemma ofBytes_congr {b b' : List Byte} (h : ∀ i < 52, b.getD i 0 = b'.getD i 0) : ofBytes b = ofBytes b' := by
  have hfield : ∀ i < 13, field b i = field b' i := by
    intro i hi
    rw [field, field, wordOf, wordOf, h (4 * i + 0) (by omega), h (4 * i + 1) (by omega), h (4 * i + 2) (by omega),
      h (4 * i + 3) (by omega)]
  have hsegment : ∀ i < 11, segment b i = segment b' i := by
    intro i hi
    rw [segment, segment, hfield i (by omega), hfield (i + 1) (by omega), hfield (i + 2) (by omega)]
  rw [ofBytes, ofBytes, hfield 0 (by decide), hsegment 1 (by decide),
    hsegment 4 (by decide), hsegment 7 (by decide),
    hsegment 10 (by decide)]

structure Loaded (m : PagedMachine) (space : ℕ) (bytes : List Byte) : Prop where
  inFile : ∀ s ∈ (ofBytes bytes).inFile, ∀ k : ℕ, k < s.size →
    m.virtualByte space (s.virtualAddr + k) = bytes.getD (s.inFileAddr + k).toNat 0
  uninitData : ∀ k : ℕ, k < (ofBytes bytes).uninitData.size →
    m.virtualByte space ((ofBytes bytes).uninitData.virtualAddr + k) = 0

/-- The file itself has, from the start of the code on, the bytes of the segments at their virtual addresses,
with zeros for the uninitialized data. -/
structure InPlace (bytes : List Byte) : Prop where
  inFile : ∀ s ∈ (ofBytes bytes).inFile, ∀ k : ℕ, k < s.size →
    (ofBytes bytes).code.inFileAddr + s.virtualAddr + k < bytes.length ∧
    bytes.getD ((ofBytes bytes).code.inFileAddr + s.virtualAddr + k).toNat 0 =
    bytes.getD (s.inFileAddr + k).toNat 0
  uninitData : ∀ k : ℕ, k < (ofBytes bytes).uninitData.size →
    (ofBytes bytes).code.inFileAddr + (ofBytes bytes).uninitData.virtualAddr + k < bytes.length ∧
    bytes.getD ((ofBytes bytes).code.inFileAddr + (ofBytes bytes).uninitData.virtualAddr + k).toNat 0 = 0

end NoffHeader

namespace AddrSpace

open NoffHeader

variable {f : OpenFile} {k k' : Kernel} {bs secs : List ℤ} {m m' : PagedMachine}

lemma exec_loadExecutable_start (hf : f.Backed k.disk bs secs)
    (hw : WellFormed (contents f k.disk secs)) (heap : ℕ → Byte) :
    exec (loadExecutable f m) { k with heap := heap } = exec (do
      let m' ← loadLoop f (ofBytes (contents f k.disk secs)).code.inFileAddr m.numPages.length
        (ofBytes (contents f k.disk secs)).numPages 0 m
      f.close
      pure { m' with numPages := m'.numPages ++ [(ofBytes (contents f k.disk secs)).numPages] })
      { k with heap := fun j => heap (j + 52) } := by
  have hlen := hw.header
  rw [contents_length] at hlen
  have hread : exec (f.readAt 52 0) { k with heap := fun j => heap (j + 52) } =
      .ok (bytesIn k.disk secs 0 52, { k with heap := fun j => heap (j + 52) }) := by
    have h :=
      exec_readAt_page (k := { k with heap := fun j => heap (j + 52) }) hf (n := 52) (p := 0) (by omega) (by omega)
    rw [transferred, show min 52 (f.hdr.fileLength.toNat - 0) = 52 by omega] at h
    exact h
  have hheader : ofBytes (overlay ((List.range 52).map heap) 0 (bytesIn k.disk secs 0 52)) =
      ofBytes (contents f k.disk secs) := by
    apply ofBytes_congr
    intro i hi
    rw [OpenFile.getD_overlay _ _ _ (by rw [bytesIn_length, List.length_map, List.length_range]), bytesIn_length,
      if_pos (by omega), Nat.sub_zero, contents, getD_bytesIn _ _ _ _ _ hi, getD_bytesIn _ _ _ _ _ (by omega)]
  have hcopy : copyInto ((List.range 52).map heap) 0 (bytesIn k.disk secs 0 52) =
      .ok (overlay ((List.range 52).map heap) 0 (bytesIn k.disk secs 0 52)) :=
    OpenFile.copyInto_natCast _ 0 _ (by rw [bytesIn_length, List.length_map, List.length_range])
  rw [loadExecutable, exec_bind_of_ok (exec_malloc 52 _)]
  dsimp only
  rw [exec_bind_of_ok hread, hcopy, exec_bind_of_ok (exec_lift_ok _ _),
      hheader, exec_bind, exec_assert, if_pos (by simpa using hw.magic), if_pos hw.code]
  dsimp only
  rw [exec_bind, exec_bind, exec_bind]
  generalize exec (loadLoop f _ _ _ 0 m) _ = loop
  cases loop with
  | ok result => rfl
  | error fault => rfl

lemma exec_close_ok (f : OpenFile) (k : Kernel) : ∃ k', exec f.close k = .ok ((), k') := by
  rw [OpenFile.close, lookup, exec_bind, exec_bind, exec_find]
  dsimp only
  cases h : k.maps .openFileCount f.hdrSector with
  | none => exact ⟨_, exec_assign _ _ _ _⟩
  | some c => exact ⟨_, exec_assign _ _ _ _⟩

lemma imageByte_split (image : List Page) {v : ℤ} (h0 : 0 ≤ v) (hv : v < 128 * (image.length : ℤ)) :
    ∃ (q : ℕ) (hq : q < image.length) (j : Fin 128), v = 128 * (q : ℤ) + j.val ∧
    imageByte image v = image[q] j := by
  have hq : (v / 128).toNat < image.length := by omega
  refine ⟨(v / 128).toNat, hq, ⟨(v % 128).toNat, by omega⟩, ?_, dif_pos hq⟩
  dsimp only
  omega

namespace ImageOf

variable {bytes : List Byte} {a : ℕ} {heap : ℕ → Byte} {image : List Page} {v : ℤ}

lemma byte_inside (h : ImageOf bytes a 0 heap image) (h0 : 0 ≤ v) (hv : v < 128 * (image.length : ℤ))
    (hin : a + v < bytes.length) : imageByte image v = bytes.getD (a + v).toNat 0 := by
  obtain ⟨q, hq, j, hqj, himage⟩ := imageByte_split image h0 hv
  rw [himage, h.inside q hq j (by omega)]
  congr 1
  omega

lemma byte_beyond (h : ImageOf bytes a 0 heap image) {b : Byte} (hb : ∀ n, heap n = b) (h0 : 0 ≤ v)
    (hv : v < 128 * (image.length : ℤ)) (hout : bytes.length ≤ a + v) : imageByte image v = b := by
  obtain ⟨q, hq, j, hqj, himage⟩ := imageByte_split image h0 hv
  rw [himage, h.beyond b hb q hq j (by omega)]

end ImageOf

lemma code_inFileAddr {bytes : List Byte} (hw : WellFormed bytes) :
    (ofBytes bytes).code.inFileAddr = ((ofBytes bytes).code.inFileAddr.toNat : ℤ) :=
  (Int.toNat_of_nonneg (hw.inside _ List.mem_cons_self hw.code).1).symm

lemma loadExecutable_ok (hf : f.Backed k.disk bs secs) (hw : WellFormed (contents f k.disk secs))
    (hpos : ∀ q < (ofBytes (contents f k.disk secs)).numPages,
      (ofBytes (contents f k.disk secs)).code.inFileAddr.toNat + 128 * (0 + q) < 2147483648) (heap : ℕ → Byte) :
    ∃ image k', image.length = (ofBytes (contents f k.disk secs)).numPages ∧
      ImageOf (contents f k.disk secs) (ofBytes (contents f k.disk secs)).code.inFileAddr.toNat 0
      (fun j => heap (j + 52)) image ∧
      exec (loadExecutable f m) { k with heap := heap } = .ok (m.load image, k') := by
  obtain ⟨image, heap', hlen, himage, he⟩ :=
    exec_loadLoop hf _ m.numPages.length _ 0 m (fun j => heap (j + 52)) hpos
  obtain ⟨k', hclose⟩ := exec_close_ok f { k with heap := heap' }
  refine ⟨image, k', hlen, himage, ?_⟩
  rw [exec_loadExecutable_start hf hw, code_inFileAddr hw, exec_bind_of_ok he, exec_bind_of_ok hclose, ← hlen]
  rfl

lemma loadExecutable_bound (hf : f.Backed k.disk bs secs) (hw : WellFormed (contents f k.disk secs))
    (he : exec (loadExecutable f m) k = .ok (m', k')) :
    ∀ q < (ofBytes (contents f k.disk secs)).numPages,
      (ofBytes (contents f k.disk secs)).code.inFileAddr.toNat + 128 * (0 + q) < 2147483648 := by
  have hlen := hw.header
  rw [contents_length] at hlen
  have hin := (hw.inside _ List.mem_cons_self hw.code).2
  have hcode := hw.code
  have hlt := hf.length_lt
  rw [contents_length] at hin
  rw [exec_loadExecutable_start (k := k) hf hw k.heap, code_inFileAddr hw] at he
  obtain ⟨m₁, k₁, hloop, -⟩ := exec_bind_ok.mp he
  exact loadLoop_bound (by omega) (by omega) _ _ (by omega) hloop

lemma loaded_iff (hf : f.Backed k.disk bs secs) (hw : WellFormed (contents f k.disk secs))
    (he : exec (loadExecutable f m) k = .ok (m', k')) :
    (∀ heap m' k', exec (loadExecutable f m) { k with heap := heap } = .ok (m', k') →
      NoffHeader.Loaded m' m.numPages.length (contents f k.disk secs)) ↔ InPlace (contents f k.disk secs) := by
  have hpos := loadExecutable_bound hf hw he
  set bytes := contents f k.disk secs with hbytes
  set noffH := ofBytes bytes with hnoffH
  have hload : ∀ heap, ∃ image k', image.length = noffH.numPages ∧
      ImageOf bytes noffH.code.inFileAddr.toNat 0 (fun j => heap (j + 52)) image ∧
      exec (loadExecutable f m) { k with heap := heap } = .ok (m.load image, k') := loadExecutable_ok hf hw hpos
  have hcode : noffH.code.inFileAddr = (noffH.code.inFileAddr.toNat : ℤ) := code_inFileAddr hw
  have hrange : ∀ s ∈ noffH.segments, ∀ i : ℕ, (i : ℤ) < s.size →
      0 ≤ s.virtualAddr + i ∧ s.virtualAddr + i < 128 * (noffH.numPages : ℤ) := by
    intro s hs i hi
    obtain ⟨h0, h1⟩ : 0 ≤ s.virtualAddr ∧ s.virtualAddr + s.size ≤ 128 * (noffH.numPages : ℤ) :=
      hw.mapped s hs (by omega)
    exact ⟨by omega, by omega⟩
  constructor
  · intro h
    -- fresh memory that holds `b` shows where the file ends
    have hbyte : ∀ s ∈ noffH.segments, ∀ i : ℕ, (i : ℤ) < s.size → ∀ c : Byte,
        (∀ heap m' k', exec (loadExecutable f m) { k with heap := heap } = .ok (m', k') →
          m'.virtualByte m.numPages.length (s.virtualAddr + i) = c) →
        noffH.code.inFileAddr + s.virtualAddr + i < bytes.length ∧
          bytes.getD (noffH.code.inFileAddr + s.virtualAddr + i).toNat 0 = c := by
      intro s hs i hi c hc
      obtain ⟨h0, h1⟩ := hrange s hs i hi
      have hin : noffH.code.inFileAddr + s.virtualAddr + i < bytes.length := by
        by_contra hout
        obtain ⟨image, k'', hlen, himage, hexec⟩ := hload fun _ => c + 1
        have hb := hc _ _ _ hexec
        rw [PagedMachine.virtualByte_load m image h0 (by omega),
          himage.byte_beyond (fun _ => rfl) h0 (by omega) (by omega)] at hb
        exact byte_succ_ne c hb
      refine ⟨hin, ?_⟩
      obtain ⟨image, k'', hlen, himage, hexec⟩ := hload k.heap
      have hb := hc _ _ _ hexec
      rw [PagedMachine.virtualByte_load m image h0 (by omega),
          himage.byte_inside h0 (by omega) (by omega), ← hcode, ← add_assoc] at hb
      exact hb
    exact ⟨fun s hs i hi => hbyte s (List.mem_append_left _ hs) i hi _
      fun heap m' k' hexec => (h heap m' k' hexec).inFile s hs i hi,
      fun i hi => hbyte _ (List.mem_append_right _ List.mem_cons_self) i hi _
        fun heap m' k' hexec => (h heap m' k' hexec).uninitData i hi⟩
  · intro h heap m'' k'' hexec
    obtain ⟨image, k₁, hlen, himage, hexec'⟩ := hload heap
    cases hexec.symm.trans hexec'
    have hbyte : ∀ s ∈ noffH.segments, ∀ i : ℕ, (i : ℤ) < s.size →
        noffH.code.inFileAddr + s.virtualAddr + i < bytes.length →
        (m.load image).virtualByte m.numPages.length (s.virtualAddr + i) =
          bytes.getD (noffH.code.inFileAddr + s.virtualAddr + i).toNat 0 := by
      intro s hs i hi hin
      obtain ⟨h0, h1⟩ := hrange s hs i hi
      rw [PagedMachine.virtualByte_load m image h0 (by omega),
          himage.byte_inside h0 (by omega) (by omega), ← hcode, ← add_assoc]
    refine ⟨fun s hs i hi => ?_, fun i hi => ?_⟩
    · obtain ⟨hin, hb⟩ := h.inFile s hs i hi
      rw [hbyte s (List.mem_append_left _ hs) i hi hin, hb]
    · obtain ⟨hin, hb⟩ := h.uninitData i hi
      rw [hbyte _ (List.mem_append_right _ List.mem_cons_self) i hi hin, hb]

/-- For a file in NOFF format that `Load` accepts, the address space shows its segments whatever fresh memory
holds exactly if they are in place in the file. -/
theorem load_noff_iff (fileName : CString) (m m' : PagedMachine)
    (k k₁ k' : Kernel) (f : OpenFile) (bs secs : List ℤ)
    (hopen : exec (FileSystem.openFile fileName DirectorySector) k = .ok (some f, k₁))
    (hf : f.Backed k₁.disk bs secs)
    (hw : WellFormed (contents f k₁.disk secs)) (hload : exec (load fileName m) k = .ok ((true, m'), k')) :
    (∀ heap m' k', exec (loadExecutable f m) { k₁ with heap := heap } = .ok (m', k') →
      NoffHeader.Loaded m' m.numPages.length (contents f k₁.disk secs)) ↔ InPlace (contents f k₁.disk secs) := by
  rw [load, exec_bind_of_ok hopen] at hload
  obtain ⟨m₁, k₂, he, -⟩ := exec_bind_ok.mp hload
  exact loaded_iff hf hw he

lemma exists_file (data : Sector) : ∃ (k k₁ : Kernel) (f : OpenFile) (bs secs : List ℤ),
    exec (FileSystem.openFile pathF DirectorySector) k = .ok (some f, k₁) ∧ f.Backed k₁.disk bs secs ∧
      contents f k₁.disk secs = data.toList := by
  obtain ⟨sys, -, hform, -⟩ := System.boot_spec Kernel.blank
  have hs := hform.sound
  have hneed : sectorsNeeded 128 = 1 := by decide
  have hnone := hform.lookupIn_root pathF
  have hres : resolve sys.kernel.disk (components pathF) DirectorySector = some (DirectorySector, pathF) := rfl
  have hprint : Printable sys.kernel.disk DirectorySector := fun e he hu => absurd (hform.unused e he) hu
  obtain ⟨i, k, hi, -, -, -, hinst, hs₁⟩ :=
    hs.exec_create_succeeds (k := sys.kernel) hs.names.root rfl hres hnone (n := 128)
    (by rw [hneed]; decide) (by rw [hneed, hform.free]; decide)
  have hs₁ := hs₁ hform.nextWhole
  have hin := inDisk_of_free (mem_sectors_of_head hi)
  have hkind : Function.update formatted (i : ℤ) (some Kind.plain) i = some .plain := Function.update_self ..
  have hroot : Function.update formatted (i : ℤ) (some Kind.plain) DirectorySector = some .dir := hs₁.names.root
  obtain ⟨e, hlook, hsec, -⟩ :=
    hinst.lookupIn_eq hin hnone (freeSlot_of_unused (by rw [hform.slots]; decide) hform.unused)
  obtain ⟨x, hx⟩ : ∃ x, dataAt k.disk i = [x] := List.length_eq_one_iff.mp (hinst.data.trans hneed)
  -- the sector of the file is written
  let d : Disk := Function.update k.disk x data
  have hout : ∀ y, y ∉ dataAt k.disk i → d y = k.disk y := by
    intro y hy
    rw [hx, List.mem_singleton] at hy
    exact Function.update_of_ne hy ..
  have hkeep : ∀ {s c}, Function.update formatted (i : ℤ) (some Kind.plain) s = some c → _ := fun hk =>
    hs₁.storage.structure_of_write hkind hout hk
  obtain ⟨hs₂, htables⟩ := hs₁.of_write hkind hout
  have hhdr : hdrAt d i = hdrAt k.disk i := hdrAt_congr (hkeep hkind).1
  have hprint₂ : Printable d DirectorySector := by
    intro e' he' hu
    have hpoint := hs₂.names.points hroot he' hu
    rw [htables.table hroot] at he'
    rw [hdrAt_congr (hkeep hpoint).1]
    exact hinst.printable hs hs.names.root hin (by decide) hprint e' he' hu
  have hres₂ : resolve d (components pathF) DirectorySector = some (DirectorySector, pathF) := rfl
  have hlook₂ : lookupIn d DirectorySector pathF = some e := by
    rw [lookupIn, htables.table hroot]
    exact hlook
  obtain ⟨k₁, hopen, hd₁, -⟩ :=
    hs₂.exec_open_found (k := ⟨d, fun _ _ => none, fun _ => 0⟩) hroot rfl hres₂ hprint₂ hlook₂
  rw [hsec] at hopen
  obtain ⟨p, ds, hgrown⟩ := hinst.hdr
  have hlen : (hdrAt d i).numBytes = 128 := by
    rw [hhdr, hgrown]
    exact FileHeader.fresh_grown_numBytes (by decide)
  have hdata : dataAt d i = [x] := (dataAt_congr (hkeep hkind).1 (hkeep hkind).2).trans hx
  have hfile := hs₂.storage.file hkind
  refine ⟨_, k₁, _, blocksAt d i, [x], hopen, ?_, ?_⟩
  · rw [hd₁, ← hdata]
    exact OpenFile.Current.backed (f := ⟨hdrAt d i, 0, i⟩) rfl hfile (by rw [hlen, hdata]; simp)
  · rw [contents, hd₁]
    change bytesIn d [x] 0 (hdrAt d i).numBytes.toNat = _
    rw [hlen]
    have hx₂ : d x = data := Function.update_self ..
    exact (toList_eq_bytesIn d [x] 0 (by simp)).symm.trans (congrArg Vector.toList hx₂)

def noffFile (words : List Word) : Sector := Sector.ofWords fun j => words.getD j 0

def packed : Sector := noffFile [0xbadfad, 0, 52, 8, 8, 60, 4, 0, 0, 0, 0, 0, 0, 1, 2, 5]

def aligned : Sector := noffFile [0xbadfad, 0, 52, 8, 16, 60, 4, 0, 0, 0, 20, 0, 4, 1, 2, 5]

lemma header_packed : ofBytes packed.toList = ⟨NOFFMAGIC, ⟨0, 52, 8⟩, ⟨8, 60, 4⟩, ⟨0, 0, 0⟩, ⟨0, 0, 0⟩⟩ :=
  by decide +kernel

lemma header_aligned : ofBytes aligned.toList = ⟨NOFFMAGIC, ⟨0, 52, 8⟩, ⟨16, 60, 4⟩, ⟨0, 0, 0⟩, ⟨20, 0, 4⟩⟩ :=
  by decide +kernel

lemma wellFormed_packed : WellFormed packed.toList := by
  refine ⟨by simp, ?_, ?_, ?_, ?_, ?_⟩ <;> rw [header_packed]
  · decide
  · rw [Vector.length_toList]
    intro s hs
    simp only [inFile, List.mem_cons, List.not_mem_nil, or_false] at hs
    rcases hs with rfl | rfl | rfl <;> decide
  · intro s hs
    simp only [segments, inFile, List.cons_append, List.nil_append,
        List.mem_cons, List.not_mem_nil, or_false] at hs
    rcases hs with rfl | rfl | rfl | rfl <;> decide
  · simp only [segments, inFile, List.cons_append, List.nil_append,
        List.pairwise_cons, List.forall_mem_cons, Segment.covers]
    refine ⟨⟨fun v => ?_, fun v => ?_, fun v => ?_, List.forall_mem_nil _⟩,
      ⟨fun v => ?_, fun v => ?_, List.forall_mem_nil _⟩,
      ⟨fun v => ?_, List.forall_mem_nil _⟩, List.forall_mem_nil _, .nil⟩ <;> omega

lemma wellFormed_aligned : WellFormed aligned.toList := by
  refine ⟨by simp, ?_, ?_, ?_, ?_, ?_⟩ <;> rw [header_aligned]
  · decide
  · rw [Vector.length_toList]
    intro s hs
    simp only [inFile, List.mem_cons, List.not_mem_nil, or_false] at hs
    rcases hs with rfl | rfl | rfl <;> decide
  · intro s hs
    simp only [segments, inFile, List.cons_append, List.nil_append,
        List.mem_cons, List.not_mem_nil, or_false] at hs
    rcases hs with rfl | rfl | rfl | rfl <;> decide
  · simp only [segments, inFile, List.cons_append, List.nil_append,
        List.pairwise_cons, List.forall_mem_cons, Segment.covers]
    refine ⟨⟨fun v => ?_, fun v => ?_, fun v => ?_, List.forall_mem_nil _⟩,
      ⟨fun v => ?_, fun v => ?_, List.forall_mem_nil _⟩,
      ⟨fun v => ?_, List.forall_mem_nil _⟩, List.forall_mem_nil _, .nil⟩ <;> omega

lemma inPlace_packed : InPlace packed.toList := by
  have hlen : packed.toList.length = 128 := by simp
  refine ⟨?_, ?_⟩ <;> rw [header_packed]
  · intro s hs i hi
    rw [hlen]
    simp only [inFile, List.mem_cons, List.not_mem_nil, or_false] at hs
    rcases hs with rfl | rfl | rfl <;> dsimp only at hi ⊢
    · exact ⟨by omega, by rw [add_zero]⟩
    · omega
    · exact ⟨by omega, by norm_num⟩
  · intro i hi
    dsimp only at hi
    omega

lemma exists_load {data : Sector} (hw : WellFormed data.toList)
    (hpages : (ofBytes data.toList).numPages ≤ 2 ^ 20) (m : PagedMachine) :
    ∃ (k k₁ k' : Kernel) (f : OpenFile) (bs secs : List ℤ) (image : List Page),
      exec (FileSystem.openFile pathF DirectorySector) k = .ok (some f, k₁) ∧ f.Backed k₁.disk bs secs ∧
      contents f k₁.disk secs = data.toList ∧ image.length = (ofBytes data.toList).numPages ∧
      ImageOf data.toList (ofBytes data.toList).code.inFileAddr.toNat 0 (fun j => k₁.heap (j + 52)) image ∧
      exec (load pathF m) k = .ok ((true, m.load image), k') := by
  obtain ⟨k, k₁, f, bs, secs, hopen, hf, hc⟩ := exists_file data
  have hin := (hw.inside _ List.mem_cons_self hw.code).2
  have hcode := hw.code
  rw [Vector.length_toList] at hin
  rw [← hc] at hw hpages
  obtain ⟨image, k', hlen, himage, he⟩ :=
    loadExecutable_ok (m := m) hf hw (fun q hq => by rw [hc] at hpages hq ⊢; omega) k₁.heap
  rw [hc] at hlen himage
  refine ⟨k, k₁, k', f, bs, secs, image, hopen, hf, hc, hlen, himage, ?_⟩
  rw [load, exec_bind_of_ok hopen]
  exact exec_bind_of_ok he _

theorem load_noff_packed : ∃ (k k' : Kernel) (m' : PagedMachine),
    exec (load pathF (.start fun _ _ => 0)) k = .ok ((true, m'), k') ∧ NoffHeader.Loaded m' 0 packed.toList := by
  obtain ⟨k, k₁, k', f, bs, secs, image, hopen, hf, hc, hlen, himage, he⟩ := exists_load wellFormed_packed
    (by rw [header_packed]; decide) (.start fun _ _ => 0)
  have hw := wellFormed_packed
  have hp := inPlace_packed
  rw [← hc] at hw hp
  have hload := (load_noff_iff pathF _ _ k k₁ k' f bs secs hopen hf hw he).mpr hp
  rw [hc] at hload
  refine ⟨k, k', _, he, ?_⟩
  rw [load, exec_bind_of_ok hopen] at he
  obtain ⟨m₁, k₂, hexec, hpure⟩ := exec_bind_ok.mp he
  cases hpure
  exact hload k₁.heap _ _ hexec

/-- The initialized data is not where the header says. -/
theorem load_misplaces_data : ∃ (k k₁ k' : Kernel) (m' : PagedMachine) (f : OpenFile) (bs secs : List ℤ),
    exec (FileSystem.openFile pathF DirectorySector) k = .ok (some f, k₁) ∧ f.Backed k₁.disk bs secs ∧
    contents f k₁.disk secs = aligned.toList ∧ WellFormed aligned.toList ∧
    exec (load pathF (.start fun _ _ => 0)) k = .ok ((true, m'), k') ∧ ¬NoffHeader.Loaded m' 0 aligned.toList := by
  obtain ⟨k, k₁, k', f, bs, secs, image, hopen, hf, hc, hlen, himage, he⟩ := exists_load wellFormed_aligned
    (by rw [header_aligned]; decide) (.start fun _ _ => 0)
  refine ⟨k, k₁, k', _, f, bs, secs, hopen, hf, hc, wellFormed_aligned, he, fun hload => ?_⟩
  have hexpected := hload.inFile ⟨16, 60, 4⟩ (by rw [header_aligned]; decide) 0 (by decide)
  rw [header_aligned] at hlen himage
  have hpages : image.length = 9 := hlen
  have hbyte : ((PagedMachine.start fun _ _ => 0).load image).virtualByte 0 16 = imageByte image 16 :=
    PagedMachine.virtualByte_load _ image (by decide) (by rw [hpages]; decide)
  have hfound : imageByte image 16 = aligned.toList.getD 68 0 :=
    himage.byte_inside (by decide) (by rw [hpages]; decide) (by rw [Vector.length_toList]; decide)
  exact absurd (hfound.symm.trans (hbyte.symm.trans hexpected)) (by decide +kernel)

end AddrSpace

end NachosFileSys
