import NachosFileSys.AddrSpace
import NachosFileSys.Lib.Intervals
import NachosFileSys.Lib.Results

/-! The converter `coff2noff/coff2noff.c` on a little-endian host with 32-bit `int` and `long`, built with
`RDATA`. -/

namespace NachosFileSys

open Lib.Bytes Lib.Results Lib.Intervals

namespace Coff2noff

def cstring (s : String) : CString := s.toList.map fun c => BitVec.ofNat 8 c.toNat

def text (s : CString) : String := String.ofList ((s.takeWhile (· ≠ 0)).map fun b => Char.ofNat b.toNat)

abbrev MIPSELMAGIC : ℕ := 0x0162
abbrev OMAGIC : ℕ := 0o407

structure Scnhdr where
  s_name : List Byte
  s_paddr : ℤ
  s_size : ℤ
  s_scnptr : ℤ
  deriving DecidableEq, Repr

namespace Scnhdr

def ofBytes (bytes : List Byte) : Scnhdr :=
  ⟨bytes.take 8, NoffHeader.field bytes 2, NoffHeader.field bytes 4, NoffHeader.field bytes 5⟩

/-- `strcmp` says that the names are equal. None of the names that are compared has more than seven characters. -/
def named (s : Scnhdr) (name : CString) : Bool := s.s_name.takeWhile (· ≠ 0) = name

def bytes (s : Scnhdr) : ℕ := (s.s_size % 2 ^ 32).toNat

end Scnhdr

inductive Loaded
  | text
  | data
  | rdata
  deriving DecidableEq, Repr

namespace Loaded

def name : Loaded → CString
  | text => cstring ".text"
  | data => cstring ".data"
  | rdata => cstring ".rdata"

def segment : Loaded → NoffHeader → Segment
  | text => NoffHeader.code
  | data => NoffHeader.initData
  | rdata => NoffHeader.readonlyData

def set (seg : Segment) (noffH : NoffHeader) : Loaded → NoffHeader
  | text => { noffH with code := seg }
  | data => { noffH with initData := seg }
  | rdata => { noffH with readonlyData := seg }

end Loaded

inductive Stop
  | exit (status : ℤ) (message : String)
  | overflow
  deriving DecidableEq, Repr

def addInt (a b : ℤ) : Except Stop ℤ :=
  if -2147483648 ≤ a + b ∧ a + b < 2147483648 then .ok (a + b) else .error .overflow

structure Fd where
  bytes : List Byte
  pos : ℕ
  deriving DecidableEq, Repr

namespace Fd

def lseek (fd : Fd) (offset : ℤ) : Fd := if 0 ≤ offset then { fd with pos := offset.toNat } else fd

/-- The system call `read`, which fails for a count that is negative as a `ssize_t`. -/
def sysRead (fd : Fd) (nBytes : ℤ) : ℤ × List Byte × Fd :=
  if nBytes < 0 then (-1, [], fd)
  else
    let buf := (fd.bytes.drop fd.pos).take nBytes.toNat
    (buf.length, buf, { fd with pos := fd.pos + buf.length })

/-- The system call `write` on a file system with room; it fills a hole before the position with zeros. -/
def sysWrite (fd : Fd) (buf : List Byte) (nBytes : ℤ) : ℤ × Fd :=
  if nBytes < 0 then (-1, fd)
  else
    let src := buf.take nBytes.toNat
    (src.length, ⟨overlay (fd.bytes ++ List.replicate (fd.pos + src.length - fd.bytes.length) 0) fd.pos src,
      fd.pos + src.length⟩)

def read (fd : Fd) (nBytes : ℤ) : Except Stop (List Byte × Fd) :=
  let r := fd.sysRead nBytes
  if r.1 ≠ nBytes then .error (.exit 1 "File is too short\n") else .ok r.2

def write (fd : Fd) (buf : List Byte) (nBytes : ℤ) : Except Stop Fd :=
  let r := fd.sysWrite buf nBytes
  if r.1 ≠ nBytes then .error (.exit 1 "Unable to write file\n") else .ok r.2

end Fd

structure Vars where
  fdIn : Fd
  fdOut : Fd
  noffH : NoffHeader
  inNoffFile : ℤ

namespace Vars

def copy (kind : Loaded) (s : Scnhdr) (c : Vars) : Except Stop Vars := do
  let noffH := kind.set ⟨s.s_paddr, c.inNoffFile, s.s_size⟩ c.noffH
  let fdIn := c.fdIn.lseek s.s_scnptr
  let (buffer, fdIn) ← fdIn.read s.s_size
  let fdOut ← c.fdOut.write buffer s.s_size
  let inNoffFile ← addInt c.inNoffFile s.s_size
  pure ⟨fdIn, fdOut, noffH, inNoffFile⟩

def merge (s : Scnhdr) (c : Vars) : Except Stop Vars := do
  let uninitData := c.noffH.uninitData
  if uninitData.size ≠ 0 then
    if s.s_paddr = (← addInt uninitData.virtualAddr uninitData.size) then
      throw (.exit 1 "Can't handle both bss and sbss\n")
    let size ← addInt uninitData.size s.s_size
    pure { c with noffH := { c.noffH with uninitData := { uninitData with size := size } } }
  else pure { c with noffH := { c.noffH with uninitData := ⟨s.s_paddr, uninitData.inFileAddr, s.s_size⟩ } }

def convert (c : Vars) (s : Scnhdr) : Except Stop Vars :=
  if s.s_size = 0 then pure c
  else if s.named (cstring ".text") then c.copy .text s
  else if s.named (cstring ".data") then c.copy .data s
  else if s.named (cstring ".rdata") then c.copy .rdata s
  else if s.named (cstring ".bss") then c.merge s
  else throw (.exit 1 ("Unknown segment type: " ++ text s.s_name ++ "\n"))

end Vars

/-- The 32-bit words of the header as it is written; `SwapHeader` changes nothing on this host. -/
def words (noffH : NoffHeader) : List ℤ :=
  noffH.noffMagic :: [noffH.code, noffH.initData, noffH.readonlyData, noffH.uninitData].flatMap fun seg =>
    [seg.virtualAddr, seg.inFileAddr, seg.size]

def wordBytes (x : ℤ) : List Byte := (List.range 4).map (byteOf (BitVec.ofInt 32 x))

def toBytes (noffH : NoffHeader) : List Byte := (words noffH).flatMap wordBytes

def short (bytes : List Byte) (i : ℕ) : ℕ := (bytes.getD i 0).toNat + 256 * (bytes.getD (i + 1) 0).toNat

def scnhdrs (bytes : List Byte) (numsections : ℕ) : List Scnhdr :=
  (List.range numsections).map fun i => Scnhdr.ofBytes (bytes.drop (40 * i))

def initial (junk : List Byte) : NoffHeader :=
  let noffH := NoffHeader.ofBytes junk
  ⟨NOFFMAGIC, { noffH.code with size := 0 }, { noffH.initData with size := 0 },
    { noffH.readonlyData with size := 0 },
    { noffH.uninitData with size := 0 }⟩

/-- `main` with the bytes of the COFF file, which `open` refuses where an `off_t` cannot hold its length; with exit
status 0 the result is the NOFF file. -/
def main (coff junk : List Byte) : Except Stop (List Byte) := do
  if 2147483648 ≤ coff.length then throw (.exit 1 "Value too large for defined data type\n")
  let (fileh, fdIn) ← Fd.read ⟨coff, 0⟩ 20
  if short fileh 0 ≠ MIPSELMAGIC then throw (.exit 1 "File is not a MIPSEL COFF file\n")
  let (systemh, fdIn) ← fdIn.read 56
  if short systemh 0 ≠ OMAGIC then throw (.exit 1 "File is not a OMAGIC file\n")
  let numsections := short fileh 2
  let (sections, fdIn) ← fdIn.read (40 * numsections)
  let fdOut := Fd.lseek ⟨[], 0⟩ 52
  let c ← (scnhdrs sections numsections).foldlM Vars.convert ⟨fdIn, fdOut, initial junk, 52⟩
  let fdOut ← (c.fdOut.lseek 0).write (toBytes c.noffH) 52
  pure fdOut.bytes

def sections (coff : List Byte) : List Scnhdr :=
  scnhdrs ((coff.drop 76).take (40 * short coff 2)) (short coff 2)

def byteAt (bytes : List Byte) (i : ℤ) : Option Byte := if 0 ≤ i then bytes[i.toNat]? else none

def fileRange (seg : Segment) (i : ℤ) : Prop := seg.inFileAddr ≤ i ∧ i < seg.inFileAddr + seg.size

structure Preserved (coff noff : List Byte) : Prop where
  loaded : ∀ kind : Loaded, ∀ s ∈ sections coff, s.s_size ≠ 0 → s.named kind.name →
    (kind.segment (NoffHeader.ofBytes noff)).virtualAddr = s.s_paddr ∧
    (kind.segment (NoffHeader.ofBytes noff)).size = s.s_size ∧
    ∀ k < s.bytes, ∃ b, byteAt coff (s.s_scnptr + k) = some b ∧
      byteAt noff ((kind.segment (NoffHeader.ofBytes noff)).inFileAddr + k) = some b
  apart : (NoffHeader.ofBytes noff).inFile.Pairwise fun s t => ∀ i, ¬(fileRange s i ∧ fileRange t i)
  after : ∀ seg ∈ (NoffHeader.ofBytes noff).inFile, ∀ i, fileRange seg i → 52 ≤ i
  uninit : ∀ v, (NoffHeader.ofBytes noff).uninitData.covers v ↔
    ∃ s ∈ sections coff, s.s_size ≠ 0 ∧ s.named (cstring ".bss") ∧ s.s_paddr ≤ v ∧ v < s.s_paddr + s.bytes

def ofName (name : CString) (l : List Scnhdr) : List Scnhdr := l.filter fun s => s.s_size ≠ 0 ∧ s.named name

/-- What a COFF file must be like for its image to be kept: sizes are not negative as `long`s and
offsets neither, sections that go to the same segment are the same, and the `.bss` sections, in some
order, follow each other without a gap from the address of the one that comes first in the file. -/
structure Convertible (coff : List Byte) : Prop where
  size : ∀ s ∈ sections coff, 0 ≤ s.s_size
  start : ∀ kind : Loaded, ∀ s ∈ ofName kind.name (sections coff), 0 ≤ s.s_scnptr
  same : ∀ kind : Loaded, ∀ s ∈ ofName kind.name (sections coff), ∀ t ∈ ofName kind.name (sections coff),
    s.s_paddr = t.s_paddr ∧ s.s_size = t.s_size ∧
      ∀ k : ℕ, k < s.s_size → byteAt coff (s.s_scnptr + k) = byteAt coff (t.s_scnptr + k)
  bss : ∀ first ∈ (ofName (cstring ".bss") (sections coff)).head?,
    ∃ order, order.Perm ((ofName (cstring ".bss") (sections coff)).map fun s => (s.s_paddr, s.s_size)) ∧
      Tiles first.s_paddr order

section Files

variable {fd fd' : Fd} {buf : List Byte} {n : ℤ}

lemma read_ok (hn : 0 ≤ n) (h : fd.read n = .ok (buf, fd')) :
    buf = (fd.bytes.drop fd.pos).take n.toNat ∧ buf.length = n.toNat ∧ fd' = ⟨fd.bytes, fd.pos + n.toNat⟩ := by
  simp only [Fd.read, Fd.sysRead, if_neg (not_lt.mpr hn), ne_eq, ite_not] at h
  split at h
  · rename_i hcount
    cases h
    have hlen : ((fd.bytes.drop fd.pos).take n.toNat).length = n.toNat := by omega
    exact ⟨rfl, hlen, by rw [hlen]⟩
  · cases h

lemma write_ok (hn : 0 ≤ n) (hbuf : buf.length = n.toNat) (h : fd.write buf n = .ok fd') :
    fd' = ⟨overlay (fd.bytes ++ List.replicate (fd.pos + buf.length - fd.bytes.length) 0) fd.pos buf,
    fd.pos + buf.length⟩ := by
  simp only [Fd.write, Fd.sysWrite, if_neg (not_lt.mpr hn), ne_eq, ite_not, ← hbuf, List.take_length] at h
  split at h
  · cases h
    rfl
  · cases h

lemma getElem?_write (bytes src : List Byte) (pos i : ℕ) (hi : bytes.length ≤ i → pos ≤ i) :
    (overlay (bytes ++ List.replicate (pos + src.length - bytes.length) 0) pos src)[i]? =
      if pos ≤ i ∧ i < pos + src.length then src[i - pos]? else bytes[i]? := by
  rw [getElem?_overlay _ _ _ (by simp; omega)]
  split
  · rfl
  · by_cases hb : i < bytes.length
    · rw [List.getElem?_append_left hb]
    · rw [List.getElem?_append_right (by omega), List.getElem?_eq_none (by simp; omega),
          List.getElem?_eq_none (by omega)]

lemma addInt_ok {a b c : ℤ} (h : addInt a b = .ok c) : c = a + b ∧ -2147483648 ≤ c ∧ c < 2147483648 := by
  rw [addInt] at h
  split at h
  · cases h
    exact ⟨rfl, by omega⟩
  · cases h

end Files

lemma named_unique {s : Scnhdr} {name name' : CString} (h : s.named name) (h' : s.named name') : name = name' := by
  rw [Scnhdr.named, decide_eq_true_eq] at h h'
  rw [← h, ← h']

lemma Loaded.name_injective : ∀ {k k' : Loaded}, k.name = k'.name → k = k' := by
  intro k k'
  cases k <;> cases k' <;> decide

lemma Loaded.name_ne_bss : ∀ k : Loaded, k.name ≠ cstring ".bss" := by
  intro k
  cases k <;> decide

section Names

variable {name : CString} {done : List Scnhdr} {s : Scnhdr}

lemma mem_ofName : s ∈ ofName name done ↔ s ∈ done ∧ s.s_size ≠ 0 ∧ s.named name := by
  simp [ofName]

lemma ofName_append_of_named (hs : s.s_size ≠ 0) (hn : s.named name) :
    ofName name (done ++ [s]) = ofName name done ++ [s] := by
  simp [ofName, hs, hn]

lemma ofName_append_of_not (h : s.s_size = 0 ∨ ¬s.named name) : ofName name (done ++ [s]) = ofName name done := by
  simp only [ofName, List.filter_append, List.append_right_eq_self, List.filter_eq_nil_iff]
  intro t ht
  rw [List.mem_singleton.mp ht, decide_eq_true_eq]
  rintro ⟨hs, hn⟩
  exact h.elim hs (absurd hn)

end Names

section Headers

variable {noffH : NoffHeader} {seg : Segment} {k k' : Loaded}

@[simp] lemma segment_set_self : k.segment (k.set seg noffH) = seg := by cases k <;> rfl

lemma segment_set_of_ne (h : k' ≠ k) : k'.segment (k.set seg noffH) = k'.segment noffH := by
  cases k <;> cases k' <;> first | rfl | exact absurd rfl h

@[simp] lemma segment_uninit (u : Segment) : k.segment { noffH with uninitData := u } = k.segment noffH := by
  cases k <;> rfl

@[simp] lemma uninitData_set : (k.set seg noffH).uninitData = noffH.uninitData := by cases k <;> rfl

lemma inFile_eq (noffH : NoffHeader) :
    noffH.inFile = [Loaded.text, .rdata, .data].map fun k => k.segment noffH := rfl

def Fits (noffH : NoffHeader) : Prop := ∀ x ∈ words noffH, -2147483648 ≤ x ∧ x < 2147483648

lemma Fits.set (h : Fits noffH)
    (hseg : ∀ x ∈ [seg.virtualAddr, seg.inFileAddr, seg.size], -2147483648 ≤ x ∧ x < 2147483648) :
    Fits (k.set seg noffH) := by
  intro x hx
  have hmem : x ∈ [seg.virtualAddr, seg.inFileAddr, seg.size] ∨ x ∈ words noffH := by
    cases k <;> simp [words, Loaded.set] at hx ⊢ <;> grind
  exact hmem.elim (hseg x) (h x)

lemma Fits.uninit {x y : ℤ} (h : Fits noffH) (hx : -2147483648 ≤ x ∧ x < 2147483648)
    (hy : -2147483648 ≤ y ∧ y < 2147483648) :
    Fits { noffH with uninitData := ⟨x, noffH.uninitData.inFileAddr, y⟩ } := by
  intro z hz
  have hmem : z = x ∨ z = y ∨ z ∈ words noffH := by
    simp [words] at hz ⊢
    grind
  obtain rfl | rfl | hz := hmem
  · exact hx
  · exact hy
  · exact h z hz

lemma field_words (l : List ℤ) (i : ℕ) (hi : i < l.length) :
    NoffHeader.field (l.flatMap wordBytes) i = int32 (l.getD i 0) := by
  induction l generalizing i with
  | nil => simp at hi
  | cons x l ih =>
    cases i with
    | zero =>
      rw [NoffHeader.field, int32]
      congr 1
      rw [List.getD_cons_zero, ← wordOf_byteOf (BitVec.ofInt 32 x)]
      simp [wordOf, wordBytes, List.range_succ]
    | succ i =>
      rw [List.getD_cons_succ, ← ih i (by simpa using hi), NoffHeader.field, NoffHeader.field]
      congr 2
      funext c
      rw [List.flatMap_cons, show 4 * (i + 1) + c = (wordBytes x).length + (4 * i + c) by simp [wordBytes]; omega,
        List.getD_append_right _ _ _ _ (by omega)]
      congr 1
      omega

lemma length_toBytes (noffH : NoffHeader) : (toBytes noffH).length = 52 := by
  simp [toBytes, words, wordBytes]

lemma ofBytes_toBytes (h : Fits noffH) : NoffHeader.ofBytes (toBytes noffH) = noffH := by
  have hfield : ∀ i < 13, NoffHeader.field (toBytes noffH) i = (words noffH).getD i 0 := by
    intro i hi
    have hlen : i < (words noffH).length := hi
    rw [toBytes, field_words _ _ hlen]
    rw [List.getD_eq_getElem _ _ hlen]
    obtain ⟨hlo, hhi⟩ := h _ (List.getElem_mem hlen)
    exact int32_of_bounds hlo hhi
  simp only [NoffHeader.ofBytes, NoffHeader.segment]
  rw [hfield 0 (by omega), hfield 1 (by omega), hfield (1 + 1) (by omega),
    hfield (1 + 2) (by omega), hfield 4 (by omega),
    hfield (4 + 1) (by omega), hfield (4 + 2) (by omega), hfield 7 (by omega), hfield (7 + 1) (by omega),
    hfield (7 + 2) (by omega), hfield 10 (by omega), hfield (10 + 1) (by omega), hfield (10 + 2) (by omega)]
  rfl

end Headers

structure Placed (coff out : List Byte) (s : Scnhdr) (seg : Segment) : Prop where
  virtualAddr : seg.virtualAddr = s.s_paddr
  size : seg.size = s.s_size
  bytes : ∀ k : ℕ, (k : ℤ) < s.s_size → ∃ b, byteAt coff (s.s_scnptr + k) = some b ∧
      byteAt out (seg.inFileAddr + k) = some b

def ranges (l : List Scnhdr) : List (ℤ × ℤ) := l.map fun s => (s.s_paddr, s.s_size)

structure Copied (coff : List Byte) (done : List Scnhdr) (c : Vars) : Prop where
  input : c.fdIn.bytes = coff
  pos : (c.fdOut.pos : ℤ) = c.inNoffFile
  length : c.fdOut.bytes.length ≤ c.fdOut.pos
  low : 52 ≤ c.inNoffFile
  high : c.inNoffFile < 2147483648
  within : ∀ kind : Loaded, ∀ i, fileRange (kind.segment c.noffH) i → 52 ≤ i ∧ i < c.inNoffFile
  apart : ∀ k k' : Loaded, k ≠ k' → ∀ i, ¬(fileRange (k.segment c.noffH) i ∧ fileRange (k'.segment c.noffH) i)
  placed : ∀ kind : Loaded, ∀ t ∈ ofName kind.name done, ∃ s ∈ ofName kind.name done,
    Placed coff c.fdOut.bytes s (kind.segment c.noffH)
  fits : Fits c.noffH
  size : c.noffH.uninitData.size = total (ranges (ofName (cstring ".bss") done))
  virtualAddr : ∀ first ∈ (ofName (cstring ".bss") done).head?, c.noffH.uninitData.virtualAddr = first.s_paddr

section Steps

variable {coff : List Byte} {done : List Scnhdr} {c c' : Vars} {s : Scnhdr} {kind : Loaded}

lemma byteAt_some {bytes : List Byte} {i : ℤ} {b : Byte} (h : byteAt bytes i = some b) :
    0 ≤ i ∧ i.toNat < bytes.length ∧ bytes[i.toNat]? = some b := by
  rw [byteAt] at h
  split at h
  · exact ⟨‹_›, (List.getElem?_eq_some_iff.mp h).1, h⟩
  · cases h

lemma Copied.keep (h : Copied coff done c) (hkind : ∀ k : Loaded, ofName k.name (done ++ [s]) = ofName k.name done)
    (hbss : ofName (cstring ".bss") (done ++ [s]) = ofName (cstring ".bss") done) :
    Copied coff (done ++ [s]) c := by
  refine ⟨h.input, h.pos, h.length, h.low, h.high, h.within, h.apart, ?_, h.fits, ?_, ?_⟩
  · intro k
    rw [hkind]
    exact h.placed k
  · rw [hbss]
    exact h.size
  · rw [hbss]
    exact h.virtualAddr

lemma copy_ok (h : Copied coff done c) (hsize : 0 < s.s_size)
    (hstart : 0 ≤ s.s_scnptr) (he : c.copy kind s = .ok c') :
    ∃ buffer : List Byte, buffer = (coff.drop s.s_scnptr.toNat).take s.s_size.toNat ∧
    (buffer.length : ℤ) = s.s_size ∧
      c'.fdIn.bytes = coff ∧ c'.noffH = kind.set ⟨s.s_paddr, c.inNoffFile, s.s_size⟩ c.noffH ∧
      c'.inNoffFile = c.inNoffFile + s.s_size ∧ c'.inNoffFile < 2147483648 ∧
      c'.fdOut = ⟨overlay (c.fdOut.bytes ++ List.replicate (c.fdOut.pos + buffer.length - c.fdOut.bytes.length) 0)
        c.fdOut.pos buffer, c.fdOut.pos + buffer.length⟩ := by
  rw [Vars.copy] at he
  obtain ⟨⟨buffer, fdIn⟩, hread, he⟩ := bind_eq_ok.mp he
  obtain ⟨fdOut, hwrite, he⟩ := bind_eq_ok.mp he
  obtain ⟨inNoffFile, hadd, he⟩ := bind_eq_ok.mp he
  cases he
  obtain ⟨hbuf, hlen, hfd⟩ := read_ok hsize.le hread
  rw [Fd.lseek, if_pos hstart, h.input] at hbuf hfd
  obtain ⟨hsum, -, hhigh⟩ := addInt_ok hadd
  exact ⟨buffer, hbuf, by omega, by rw [hfd], rfl, hsum, hhigh, write_ok hsize.le hlen hwrite⟩

lemma Copied.copy (h : Copied coff done c) (hsize : 0 < s.s_size)
    (hstart : 0 ≤ s.s_scnptr) (hn : s.named kind.name)
    (hpaddr : -2147483648 ≤ s.s_paddr ∧ s.s_paddr < 2147483648) (hlong : s.s_size < 2147483648)
    (he : c.copy kind s = .ok c') : Copied coff (done ++ [s]) c' := by
  obtain ⟨buffer, hbuf, hlen, hin, hnoffH, hsum, hhigh, hout⟩ := copy_ok h hsize hstart he
  have hpos := h.pos
  have hlow := h.low
  have hlength := h.length
  have hbyte : ∀ i : ℕ, (c.fdOut.bytes.length ≤ i → c.fdOut.pos ≤ i) → c'.fdOut.bytes[i]? =
      if c.fdOut.pos ≤ i ∧ i < c.fdOut.pos + buffer.length then
      buffer[i - c.fdOut.pos]? else c.fdOut.bytes[i]? := by
    intro i hi
    rw [hout]
    exact getElem?_write _ _ _ _ hi
  have hself : kind.segment c'.noffH = ⟨s.s_paddr, c.inNoffFile, s.s_size⟩ := by rw [hnoffH, segment_set_self]
  have hother : ∀ k, k ≠ kind → k.segment c'.noffH = k.segment c.noffH :=
    fun k hk => by rw [hnoffH, segment_set_of_ne hk]
  have hname : ∀ k, k ≠ kind → ofName k.name (done ++ [s]) = ofName k.name done := by
    intro k hk
    exact ofName_append_of_not (.inr fun hk' => hk (Loaded.name_injective (named_unique hk' hn)))
  have hbss : ofName (cstring ".bss") (done ++ [s]) = ofName (cstring ".bss") done :=
    ofName_append_of_not (.inr fun hb => kind.name_ne_bss (named_unique hn hb))
  refine ⟨hin, ?_, ?_, by omega, hhigh, ?_, ?_, ?_, ?_, ?_, ?_⟩
  · rw [hout, hsum]
    push_cast
    omega
  · rw [hout]
    rw [overlay_length _ _ _ (by simp; omega)]
    simp
    omega
  · intro k i hi
    by_cases hk : k = kind
    · subst hk
      rw [hself, fileRange] at hi
      dsimp only at hi
      omega
    · rw [hother k hk] at hi
      have hw := h.within k i hi
      omega
  · intro k k' hkk i hi
    -- the new range begins where the others have ended
    by_cases hk : k = kind
    · subst hk
      rw [hself, hother k' (Ne.symm hkk)] at hi
      have hw := h.within k' i hi.2
      have hnew := hi.1.1
      dsimp only at hnew
      omega
    · by_cases hk' : k' = kind
      · subst hk'
        rw [hself, hother k hk] at hi
        have hw := h.within k i hi.1
        have hnew := hi.2.1
        dsimp only at hnew
        omega
      · rw [hother k hk, hother k' hk'] at hi
        exact h.apart k k' hkk i hi
  · intro k t ht
    by_cases hk : k = kind
    · subst hk
      refine ⟨s, ?_, ?_⟩
      · rw [ofName_append_of_named hsize.ne' hn]
        simp
      · rw [hself]
        refine ⟨rfl, rfl, ?_⟩
        intro j hj
        have hjlt : j < buffer.length := by omega
        refine ⟨buffer[j], ?_, ?_⟩
        · have hget : buffer[j]? = coff[s.s_scnptr.toNat + j]? := by
            rw [hbuf, List.getElem?_take_of_lt (by omega), List.getElem?_drop]
          rw [byteAt, if_pos (by omega), show (s.s_scnptr + (j : ℤ)).toNat = s.s_scnptr.toNat + j by omega, ← hget,
            List.getElem?_eq_getElem hjlt]
        · dsimp only
          rw [byteAt, if_pos (by omega), hbyte _ (by omega), if_pos (by omega),
            show (c.inNoffFile + (j : ℤ)).toNat - c.fdOut.pos = j by omega, List.getElem?_eq_getElem hjlt]
    · rw [hname k hk] at ht ⊢
      obtain ⟨u, hu, hplaced⟩ := h.placed k t ht
      refine ⟨u, hu, ?_⟩
      rw [hother k hk]
      refine ⟨hplaced.virtualAddr, hplaced.size, ?_⟩
      intro j hj
      obtain ⟨b, hb, hold⟩ := hplaced.bytes j hj
      refine ⟨b, hb, ?_⟩
      obtain ⟨h0, hlt, hget⟩ := byteAt_some hold
      rw [byteAt, if_pos h0, hbyte _ (by omega), if_neg (by omega), hget]
  · rw [hnoffH]
    apply h.fits.set
    have hhigh' := h.high
    simp only [List.mem_cons, List.not_mem_nil, or_false, forall_eq_or_imp, forall_eq]
    omega
  · rw [hbss, hnoffH, uninitData_set]
    exact h.size
  · rw [hbss, hnoffH, uninitData_set]
    exact h.virtualAddr

lemma ranges_append : total (ranges (done ++ [s])) = total (ranges done) + s.s_size := by
  simp [ranges, total]

lemma Copied.setUninit (h : Copied coff done c) (hn : s.named (cstring ".bss")) {u : Segment}
    (hfits : Fits { c.noffH with uninitData := u })
    (hsize : u.size = total (ranges (ofName (cstring ".bss") (done ++ [s]))))
    (haddr : ∀ first ∈ (ofName (cstring ".bss") (done ++ [s])).head?, u.virtualAddr = first.s_paddr) :
    Copied coff (done ++ [s]) { c with noffH := { c.noffH with uninitData := u } } := by
  refine ⟨h.input, h.pos, h.length, h.low, h.high, ?_, ?_, ?_, hfits, hsize, haddr⟩
  · intro k
    rw [segment_uninit]
    exact h.within k
  · intro k k'
    rw [segment_uninit (k := k), segment_uninit (k := k')]
    exact h.apart k k'
  · intro k
    rw [segment_uninit, ofName_append_of_not (.inr fun hk => k.name_ne_bss (named_unique hk hn))]
    exact h.placed k

lemma Copied.merge (h : Copied coff done c) (hdone : ∀ t ∈ done, 0 ≤ t.s_size) (hsize : 0 < s.s_size)
    (hn : s.named (cstring ".bss")) (hpaddr : -2147483648 ≤ s.s_paddr ∧ s.s_paddr < 2147483648)
    (hlong : s.s_size < 2147483648) (he : c.merge s = .ok c') : Copied coff (done ++ [s]) c' := by
  have hbss : ofName (cstring ".bss") (done ++ [s]) = ofName (cstring ".bss") done ++ [s] :=
    ofName_append_of_named hsize.ne' hn
  have hnone : ofName (cstring ".bss") done = [] ↔ c.noffH.uninitData.size = 0 := by
    rw [h.size]
    cases hl : ofName (cstring ".bss") done with
    | nil => simp [ranges]
    | cons first rest =>
      have hmem : ∀ t ∈ first :: rest, t ∈ done ∧ t.s_size ≠ 0 ∧ t.named (cstring ".bss") :=
        fun t ht => mem_ofName.mp (hl ▸ ht)
      have hrest : 0 ≤ total (ranges rest) := by
        apply total_nonneg
        intro r hr
        obtain ⟨t, ht, rfl⟩ := List.mem_map.mp hr
        exact hdone t (hmem t (by simp [ht])).1
      have hfirst := hdone first (hmem first (by simp)).1
      have hne := (hmem first (by simp)).2.1
      have htotal : total (ranges (first :: rest)) = first.s_size + total (ranges rest) := total_cons
      simp only [reduceCtorEq, false_iff]
      omega
  simp only [Vars.merge] at he
  split at he
  · rename_i hzero
    obtain ⟨e, hadd, he⟩ := bind_eq_ok.mp he
    split at he
    · cases he
    obtain ⟨size, hsum, he⟩ := bind_eq_ok.mp he
    cases he
    obtain ⟨rfl, hrange⟩ := addInt_ok hsum
    have hsome : ofName (cstring ".bss") done ≠ [] := fun hnil => hzero (hnone.mp hnil)
    apply h.setUninit hn (h.fits.uninit (h.fits _ (by simp [words])) hrange)
    · rw [hbss, ranges_append, ← h.size]
    · rw [hbss, List.head?_append_of_ne_nil _ hsome]
      exact h.virtualAddr
  · rename_i hzero
    cases he
    have hnil := hnone.mpr (not_not.mp hzero)
    apply h.setUninit hn (h.fits.uninit hpaddr (by omega))
    · rw [hbss, hnil]
      simp [ranges, total]
    · intro first hfirst
      rw [hbss, hnil] at hfirst
      cases hfirst
      rfl

lemma convert_named (he : c.convert s = .ok c') (hs : s.s_size ≠ 0) :
    (∃ kind : Loaded, s.named kind.name ∧ c.copy kind s = .ok c') ∨
    s.named (cstring ".bss") ∧ c.merge s = .ok c' := by
  rw [Vars.convert, if_neg hs] at he
  by_cases ht : s.named (cstring ".text")
  · rw [if_pos ht] at he
    exact .inl ⟨.text, ht, he⟩
  rw [if_neg ht] at he
  by_cases hd : s.named (cstring ".data")
  · rw [if_pos hd] at he
    exact .inl ⟨.data, hd, he⟩
  rw [if_neg hd] at he
  by_cases hr : s.named (cstring ".rdata")
  · rw [if_pos hr] at he
    exact .inl ⟨.rdata, hr, he⟩
  rw [if_neg hr] at he
  by_cases hb : s.named (cstring ".bss")
  · rw [if_pos hb] at he
    exact .inr ⟨hb, he⟩
  rw [if_neg hb] at he
  cases he

structure Sound (s : Scnhdr) : Prop where
  size : 0 ≤ s.s_size
  start : s.s_size ≠ 0 → ∀ kind : Loaded, s.named kind.name → 0 ≤ s.s_scnptr
  paddr : -2147483648 ≤ s.s_paddr ∧ s.s_paddr < 2147483648
  long : s.s_size < 2147483648

lemma Copied.convert (h : Copied coff done c) (hdone : ∀ t ∈ done, 0 ≤ t.s_size) (hs : Sound s)
    (he : c.convert s = .ok c') : Copied coff (done ++ [s]) c' := by
  by_cases hzero : s.s_size = 0
  · rw [Vars.convert, if_pos hzero] at he
    cases he
    exact h.keep (fun k => ofName_append_of_not (.inl hzero)) (ofName_append_of_not (.inl hzero))
  · have hpos : 0 < s.s_size := by
      have hsize := hs.size
      omega
    obtain ⟨kind, hn, hcopy⟩ | ⟨hn, hmerge⟩ := convert_named he hzero
    · exact h.copy hpos (hs.start hzero kind hn) hn hs.paddr hs.long hcopy
    · exact h.merge hdone hpos hn hs.paddr hs.long hmerge

lemma Copied.run {rest : List Scnhdr} (h : Copied coff done c) (hdone : ∀ t ∈ done, 0 ≤ t.s_size)
    (hrest : ∀ s ∈ rest, Sound s) (he : rest.foldlM Vars.convert c = .ok c') : Copied coff (done ++ rest) c' := by
  induction rest generalizing done c with
  | nil =>
    cases he
    rw [List.append_nil]
    exact h
  | cons s rest ih =>
    rw [List.foldlM_cons] at he
    obtain ⟨c₁, h₁, he⟩ := bind_eq_ok.mp he
    have hs := hrest s (by simp)
    rw [List.append_cons]
    exact ih (h.convert hdone hs h₁) (by
      intro t ht
      obtain ht | ht := List.mem_append.mp ht
      · exact hdone t ht
      · rw [List.mem_singleton.mp ht]
        exact hs.size) (fun t ht => hrest t (by simp [ht])) he

end Steps

section Main

variable {coff junk noff : List Byte} {c c' : Vars} {s : Scnhdr} {l : List Scnhdr}

lemma field_bounds (bytes : List Byte) (i : ℕ) :
    -2147483648 ≤ NoffHeader.field bytes i ∧ NoffHeader.field bytes i < 2147483648 :=
  toInt_bounds _

lemma section_bounds (hs : s ∈ sections coff) : (-2147483648 ≤ s.s_paddr ∧ s.s_paddr < 2147483648) ∧
    (-2147483648 ≤ s.s_size ∧ s.s_size < 2147483648) := by
  obtain ⟨i, -, rfl⟩ := List.mem_map.mp hs
  exact ⟨field_bounds _ _, field_bounds _ _⟩

lemma bytes_of_nonneg (h : 0 ≤ s.s_size) (h' : s.s_size < 2147483648) : (s.bytes : ℤ) = s.s_size := by
  rw [Scnhdr.bytes]
  omega

lemma bytes_of_neg (h : s.s_size < 0) (h' : -2147483648 ≤ s.s_size) : 2147483648 ≤ s.bytes := by
  rw [Scnhdr.bytes]
  omega

lemma fits_initial : Fits (initial junk) := by
  intro x hx
  have hmem : x = NOFFMAGIC ∨ x = 0 ∨ ∃ i, x = NoffHeader.field junk i := by
    simp only [words, initial, NoffHeader.ofBytes, NoffHeader.segment,
      List.flatMap_cons, List.flatMap_nil, List.mem_cons,
      List.mem_append, List.not_mem_nil, or_false] at hx
    grind
  obtain rfl | rfl | ⟨i, rfl⟩ := hmem
  · decide
  · decide
  · exact field_bounds _ _

lemma copied_initial {fdIn : Fd} (hin : fdIn.bytes = coff) :
    Copied coff [] ⟨fdIn, ⟨[], 52⟩, initial junk, 52⟩ := by
  have hsize : ∀ kind : Loaded, (kind.segment (initial junk)).size = 0 := by
    intro kind
    cases kind <;> rfl
  have hrange : ∀ kind : Loaded, ∀ i, ¬fileRange (kind.segment (initial junk)) i := by
    intro kind i hi
    rw [fileRange, hsize] at hi
    omega
  refine ⟨hin, rfl, by simp, le_rfl, by simp, ?_, ?_, ?_, fits_initial, rfl, ?_⟩
  · intro kind i hi
    exact absurd hi (hrange kind i)
  · intro k k' _ i hi
    exact hrange k i hi.1
  · intro kind t ht
    simp [ofName] at ht
  · simp [ofName]

lemma main_ok (h : main coff junk = .ok noff) :
    coff.length < 2147483648 ∧ ∃ (fdIn : Fd) (c : Vars), fdIn.bytes = coff ∧
    (sections coff).foldlM Vars.convert ⟨fdIn, ⟨[], 52⟩, initial junk, 52⟩ = .ok c ∧
    noff = overlay (c.fdOut.bytes ++ List.replicate (0 + (toBytes c.noffH).length - c.fdOut.bytes.length) 0) 0
    (toBytes c.noffH) := by
  rw [main] at h
  split at h
  · cases h
  rename_i hlen
  obtain ⟨⟨fileh, fd₁⟩, h₁, h⟩ := bind_eq_ok.mp h
  dsimp only at h
  split at h
  · cases h
  obtain ⟨⟨systemh, fd₂⟩, h₂, h⟩ := bind_eq_ok.mp h
  dsimp only at h
  split at h
  · cases h
  obtain ⟨⟨buf, fd₃⟩, h₃, h⟩ := bind_eq_ok.mp h
  obtain ⟨c, hloop, h⟩ := bind_eq_ok.mp h
  obtain ⟨fdOut, hwrite, h⟩ := bind_eq_ok.mp h
  cases h
  obtain ⟨hfileh, hlen₁, hfd₁⟩ := read_ok (by norm_num) h₁
  obtain ⟨-, -, hfd₂⟩ := read_ok (by norm_num) h₂
  obtain ⟨hbuf, -, hfd₃⟩ := read_ok (by positivity) h₃
  have hshort : short fileh 2 = short coff 2 := by
    rw [hfileh]
    simp [short, List.getD_eq_getElem?_getD]
  have hsections : scnhdrs buf (short fileh 2) = sections coff := by
    rw [hbuf, hfd₂, hfd₁, hshort, sections]
    congr 2
  refine ⟨by omega, fd₃, c, by rw [hfd₃, hfd₂, hfd₁], ?_, ?_⟩
  · rw [← hsections]
    exact hloop
  · rw [write_ok (by norm_num) (length_toBytes _) hwrite, Fd.lseek, if_pos le_rfl]
    rfl

lemma Copied.output (h : Copied coff l c) (hnoff : noff = overlay
    (c.fdOut.bytes ++ List.replicate (0 + (toBytes c.noffH).length - c.fdOut.bytes.length) 0) 0
    (toBytes c.noffH)) :
    NoffHeader.ofBytes noff = c.noffH ∧ ∀ i b, 52 ≤ i → byteAt c.fdOut.bytes i = some b →
    byteAt noff i = some b := by
  have hget := fun i => getElem?_write c.fdOut.bytes (toBytes c.noffH) 0 i (by omega)
  rw [← hnoff, length_toBytes] at hget
  constructor
  · rw [← ofBytes_toBytes h.fits]
    apply NoffHeader.ofBytes_congr
    intro i hi
    rw [List.getD_eq_getElem?_getD, hget, if_pos (by omega), Nat.sub_zero, List.getD_eq_getElem?_getD]
  · intro i b hi hb
    obtain ⟨h0, -, hb⟩ := byteAt_some hb
    rw [byteAt, if_pos h0, hget, if_neg (by omega), hb]

lemma covered_ranges {name : CString} {v : ℤ} : covered (ranges (ofName name l)) v ↔
    ∃ s ∈ l, s.s_size ≠ 0 ∧ s.named name ∧ s.s_paddr ≤ v ∧ v < s.s_paddr + s.s_size := by
  constructor
  · rintro ⟨r, hr, hv⟩
    obtain ⟨s, hs, rfl⟩ := List.mem_map.mp hr
    obtain ⟨hs, hsize, hn⟩ := mem_ofName.mp hs
    exact ⟨s, hs, hsize, hn, hv⟩
  · rintro ⟨s, hs, hsize, hn, hv⟩
    exact ⟨_, List.mem_map_of_mem (mem_ofName.mpr ⟨hs, hsize, hn⟩), hv⟩

lemma ranges_pos {name : CString} (hl : ∀ s ∈ l, 0 ≤ s.s_size) : ∀ r ∈ ranges (ofName name l), 0 < r.2 := by
  intro r hr
  obtain ⟨s, hs, rfl⟩ := List.mem_map.mp hr
  obtain ⟨hs, hsize, -⟩ := mem_ofName.mp hs
  have hnonneg := hl s hs
  dsimp only
  omega

lemma preserved_of_convertible (hv : Convertible coff) (h : Copied coff (sections coff) c)
    (hh : NoffHeader.ofBytes noff = c.noffH)
    (hb : ∀ i b, 52 ≤ i → byteAt c.fdOut.bytes i = some b → byteAt noff i = some b) : Preserved coff noff := by
  refine ⟨?_, ?_, ?_, ?_⟩
  · intro kind s hs hsize hn
    have hmem := mem_ofName.mpr ⟨hs, hsize, hn⟩
    obtain ⟨t, ht, hplaced⟩ := h.placed kind s hmem
    obtain ⟨hpaddr, hsame, hbytes⟩ := hv.same kind s hmem t ht
    rw [hh, hpaddr, hsame]
    refine ⟨hplaced.virtualAddr, hplaced.size, ?_⟩
    intro k hk
    have hlen := bytes_of_nonneg (hv.size s hs) (section_bounds hs).2.2
    obtain ⟨b, hcoff, hout⟩ := hplaced.bytes k (by omega)
    refine ⟨b, ?_, ?_⟩
    · rw [hbytes k (by omega)]
      exact hcoff
    · apply hb _ _ _ hout
      refine (h.within kind _ ⟨le_add_of_nonneg_right (by positivity), ?_⟩).1
      rw [hplaced.size]
      omega
  · rw [hh, inFile_eq, List.pairwise_map]
    have hkinds : [Loaded.text, .rdata, .data].Pairwise (· ≠ ·) := by decide
    exact hkinds.imp fun hne => h.apart _ _ hne
  · rw [hh, inFile_eq]
    intro seg hseg i hi
    obtain ⟨kind, -, rfl⟩ := List.mem_map.mp hseg
    exact (h.within kind i hi).1
  · intro v
    have hlen : ∀ s ∈ sections coff, (s.bytes : ℤ) = s.s_size :=
      fun s hs => bytes_of_nonneg (hv.size s hs) (section_bounds hs).2.2
    have hcov :
        (∃ s ∈ sections coff, s.s_size ≠ 0 ∧ s.named (cstring ".bss") ∧ s.s_paddr ≤ v ∧ v < s.s_paddr + s.bytes) ↔
        covered (ranges (ofName (cstring ".bss") (sections coff))) v := by
      rw [covered_ranges]
      apply exists_congr
      intro s
      apply and_congr_right
      intro hs
      rw [hlen s hs]
    rw [hcov, hh, Segment.covers, h.size]
    cases hl : ofName (cstring ".bss") (sections coff) with
    | nil =>
      simp only [ranges, List.map_nil, total_nil, covered_nil, iff_false]
      omega
    | cons first rest =>
      obtain ⟨order, hperm, htiles⟩ := hv.bss first (by rw [hl]; rfl)
      rw [h.virtualAddr first (by rw [hl]; rfl), ← hl]
      change order.Perm (ranges _) at hperm
      have hpos : ∀ r ∈ order, 0 ≤ r.2 := fun r hr => (ranges_pos hv.size r (hperm.mem_iff.mp hr)).le
      rw [← covered_perm hperm, htiles.covered_iff hpos, total_perm hperm]

lemma named_of_ok (he : l.foldlM Vars.convert c = .ok c') : ∀ s ∈ l, s.s_size ≠ 0 →
    (∃ kind : Loaded, s.named kind.name) ∨ s.named (cstring ".bss") := by
  induction l generalizing c with
  | nil => simp
  | cons t l ih =>
    rw [List.foldlM_cons] at he
    obtain ⟨c₁, h₁, he⟩ := bind_eq_ok.mp he
    intro s hs hsize
    obtain rfl | hs := List.mem_cons.mp hs
    · obtain ⟨kind, hn, -⟩ | ⟨hn, -⟩ := convert_named h₁ hsize
      · exact .inl ⟨kind, hn⟩
      · exact .inr hn
    · exact ih he s hs hsize

lemma start_of_preserved (hp : Preserved coff noff) {kind : Loaded} (hs : s ∈ sections coff) (hsize : s.s_size ≠ 0)
    (hn : s.named kind.name) : 0 ≤ s.s_scnptr := by
  obtain ⟨-, hbounds⟩ := section_bounds hs
  have hbytes : 0 < s.bytes := by
    rw [Scnhdr.bytes]
    omega
  obtain ⟨b, hb, -⟩ := (hp.loaded kind s hs hsize hn).2.2 0 hbytes
  have hidx := (byteAt_some hb).1
  omega

/-- A section of 2 GiB or more is neither in a file of this size nor in a segment whose size is an `int`. -/
lemma size_of_preserved (hp : Preserved coff noff) (hlen : coff.length < 2147483648) (hs : s ∈ sections coff)
    (hn : s.s_size ≠ 0 → (∃ kind : Loaded, s.named kind.name) ∨ s.named (cstring ".bss")) : 0 ≤ s.s_size := by
  by_contra hneg
  obtain ⟨-, hbounds⟩ := section_bounds hs
  have hbytes := bytes_of_neg (not_le.mp hneg) hbounds.1
  obtain ⟨kind, hk⟩ | hb := hn (by omega)
  · have hstart := start_of_preserved hp hs (by omega) hk
    obtain ⟨b, hb, -⟩ := (hp.loaded kind s hs (by omega) hk).2.2 coff.length (by omega)
    have hidx := (byteAt_some hb).2.1
    omega
  · have hcov : ∀ v, s.s_paddr ≤ v → v < s.s_paddr + s.bytes → (NoffHeader.ofBytes noff).uninitData.covers v :=
      fun v h₁ h₂ => (hp.uninit v).mpr ⟨s, hs, by omega, hb, h₁, h₂⟩
    have hfirst := (hcov s.s_paddr le_rfl (by omega)).1
    have hlast := (hcov (s.s_paddr + s.bytes - 1) (by omega) (by omega)).2
    have hint := (field_bounds noff (10 + 2)).2
    change (NoffHeader.ofBytes noff).uninitData.size < _ at hint
    omega

lemma convertible_of_preserved (hp : Preserved coff noff) (hsize : ∀ s ∈ sections coff, 0 ≤ s.s_size)
    (h : Copied coff (sections coff) c) (hh : NoffHeader.ofBytes noff = c.noffH) : Convertible coff := by
  have hlen : ∀ s ∈ sections coff, (s.bytes : ℤ) = s.s_size :=
    fun s hs => bytes_of_nonneg (hsize s hs) (section_bounds hs).2.2
  refine ⟨hsize, ?_, ?_, ?_⟩
  · intro kind s hs
    obtain ⟨hs, hne, hn⟩ := mem_ofName.mp hs
    exact start_of_preserved hp hs hne hn
  · intro kind s hs t ht
    obtain ⟨hs, hsne, hsn⟩ := mem_ofName.mp hs
    obtain ⟨ht, htne, htn⟩ := mem_ofName.mp ht
    obtain ⟨hsaddr, hssize, hsbytes⟩ := hp.loaded kind s hs hsne hsn
    obtain ⟨htaddr, htsize, htbytes⟩ := hp.loaded kind t ht htne htn
    refine ⟨hsaddr.symm.trans htaddr, hssize.symm.trans htsize, ?_⟩
    -- both sections are what the one segment holds
    intro k hk
    have hls := hlen s hs
    have hlt := hlen t ht
    obtain ⟨b, hb, hbout⟩ := hsbytes k (by omega)
    obtain ⟨b', hb', hbout'⟩ := htbytes k (by omega)
    rw [hb, hb', ← hbout, ← hbout']
  · intro first hfirst
    apply exists_tiles (ranges_pos hsize)
    intro v hv hv'
    obtain ⟨s, hs, hne, hn, hlo, hhi⟩ := (hp.uninit v).mp (by
      rw [hh, Segment.covers, h.virtualAddr first hfirst, h.size]
      exact ⟨hv, hv'⟩)
    rw [hlen s hs] at hhi
    exact covered_ranges.mpr ⟨s, hs, hne, hn, hlo, hhi⟩

/-- Where the converter exits with status 0, the NOFF file has the program image exactly if the COFF file is
convertible. -/
theorem image_preserved_iff (h : main coff junk = .ok noff) : Preserved coff noff ↔ Convertible coff := by
  obtain ⟨hlen, fdIn, c, hin, hloop, hnoff⟩ := main_ok h
  have hcopied : (∀ s ∈ sections coff, 0 ≤ s.s_size) →
      (∀ s ∈ sections coff, s.s_size ≠ 0 → ∀ kind : Loaded, s.named kind.name → 0 ≤ s.s_scnptr) →
      Copied coff (sections coff) c := by
    intro hsize hstart
    have hsound : ∀ s ∈ sections coff, Sound s :=
      fun s hs => ⟨hsize s hs, hstart s hs, (section_bounds hs).1, (section_bounds hs).2.2⟩
    exact (copied_initial hin).run (by simp) hsound hloop
  constructor
  · intro hp
    have hsize : ∀ s ∈ sections coff, 0 ≤ s.s_size :=
      fun s hs => size_of_preserved hp hlen hs (named_of_ok hloop s hs)
    have hc := hcopied hsize fun s hs hne kind hn => start_of_preserved hp hs hne hn
    exact convertible_of_preserved hp hsize hc (hc.output hnoff).1
  · intro hv
    have hc := hcopied hv.size fun s hs hne kind hn => hv.start kind s (mem_ofName.mpr ⟨hs, hne, hn⟩)
    obtain ⟨hh, hb⟩ := hc.output hnoff
    exact preserved_of_convertible hv hc hh hb

end Main

def scnhdrBytes (name : String) (paddr size scnptr : ℤ) : List Byte :=
  (cstring name ++ List.replicate (8 - (cstring name).length) 0) ++
      [paddr, paddr, size, scnptr, 0, 0, 0, 0].flatMap wordBytes

def coffFile (headers : List (List Byte)) (data : List Byte) : List Byte :=
  [0x62, 0x01, BitVec.ofNat 8 headers.length, 0] ++ List.replicate 16 0 ++ [0x07, 0x01] ++ List.replicate 54 0 ++
    headers.flatten ++ data

/-- Four bytes of `.text`, `.data` and `.rdata` each, and three `.bss` sections behind them, the last one of which
stands second in the file. -/
def sixSections : List Byte :=
  coffFile [scnhdrBytes ".text" 0 4 316, scnhdrBytes ".data" 8 4 320, scnhdrBytes ".rdata" 4 4 324,
    scnhdrBytes ".bss" 12 4 0, scnhdrBytes ".bss" 20 4 0,
    scnhdrBytes ".bss" 16 4 0] [1, 2, 3, 4, 5, 6, 7, 8, 9, 10, 11, 12]

lemma main_sixSections : main sixSections [] =
    .ok (toBytes ⟨NOFFMAGIC, ⟨0, 52, 4⟩, ⟨8, 56, 4⟩, ⟨4, 60, 4⟩, ⟨12, 0, 12⟩⟩ ++
    [1, 2, 3, 4, 5, 6, 7, 8, 9, 10, 11, 12]) := by
  decide +kernel

lemma sections_sixSections : sections sixSections = [⟨cstring ".text" ++ [0, 0, 0], 0, 4, 316⟩,
    ⟨cstring ".data" ++ [0, 0, 0], 8, 4, 320⟩, ⟨cstring ".rdata" ++ [0, 0], 4, 4, 324⟩,
    ⟨cstring ".bss" ++ [0, 0, 0, 0], 12, 4, 0⟩, ⟨cstring ".bss" ++ [0, 0, 0, 0], 20, 4, 0⟩,
    ⟨cstring ".bss" ++ [0, 0, 0, 0], 16, 4, 0⟩] := by
  decide +kernel

lemma convertible_sixSections : Convertible sixSections := by
  have hname : ∀ kind : Loaded, ∃ s : Scnhdr, ofName kind.name (sections sixSections) = [s] ∧ 0 ≤ s.s_scnptr := by
    intro kind
    rw [sections_sixSections]
    cases kind with
    | text => exact ⟨_, rfl, by decide⟩
    | data => exact ⟨_, rfl, by decide⟩
    | rdata => exact ⟨_, rfl, by decide⟩
  have hbss : (ofName (cstring ".bss") (sections sixSections)).map (fun s => (s.s_paddr, s.s_size)) =
      [(12, 4), (20, 4), (16, 4)] := by
    rw [sections_sixSections]
    decide
  refine ⟨?_, ?_, ?_, ?_⟩
  · rw [sections_sixSections]
    decide
  · intro kind s hs
    obtain ⟨s', h, hstart⟩ := hname kind
    rw [h, List.mem_singleton] at hs
    rw [hs]
    exact hstart
  · intro kind s hs t ht
    obtain ⟨s', h, -⟩ := hname kind
    rw [h, List.mem_singleton] at hs ht
    rw [hs, ht]
    exact ⟨rfl, rfl, fun _ _ => rfl⟩
  · intro first hfirst
    have haddr : first.s_paddr = 12 := by
      rw [sections_sixSections] at hfirst
      cases hfirst
      rfl
    rw [hbss, haddr]
    exact ⟨[(12, 4), (16, 4), (20, 4)], by decide, rfl, rfl, rfl, trivial⟩

theorem image_preserved_sixSections : ∃ noff, main sixSections [] = .ok noff ∧ Preserved sixSections noff :=
  ⟨_, main_sixSections, (image_preserved_iff main_sixSections).mpr convertible_sixSections⟩

def gap : List Byte := coffFile [scnhdrBytes ".bss" 0 4 0, scnhdrBytes ".bss" 8 4 0] []

/-- The test for contiguity lets the sections with the gap pass, and the segment covers addresses in the gap. -/
theorem image_not_preserved_gap : ∃ noff, main gap [] = .ok noff ∧ ¬Preserved gap noff := by
  have hmain : main gap [] = .ok (toBytes ⟨NOFFMAGIC, ⟨0, 0, 0⟩, ⟨0, 0, 0⟩, ⟨0, 0, 0⟩, ⟨0, 0, 8⟩⟩) :=
    by decide +kernel
  have hsections :
      sections gap = [⟨cstring ".bss" ++ [0, 0, 0, 0], 0, 4, 0⟩, ⟨cstring ".bss" ++ [0, 0, 0, 0], 8, 4, 0⟩] := by
    decide +kernel
  have huninit :
      (NoffHeader.ofBytes (toBytes ⟨NOFFMAGIC, ⟨0, 0, 0⟩, ⟨0, 0, 0⟩, ⟨0, 0, 0⟩, ⟨0, 0, 8⟩⟩)).uninitData =
      ⟨0, 0, 8⟩ := by
    decide +kernel
  refine ⟨_, hmain, ?_⟩
  intro hp
  obtain ⟨s, hs, -, -, hlo, hhi⟩ := (hp.uninit 5).mp (by
    rw [huninit, Segment.covers]
    decide)
  rw [hsections] at hs
  simp only [List.mem_cons, List.not_mem_nil, or_false] at hs
  obtain rfl | rfl := hs
  · simp [Scnhdr.bytes] at hhi
  · simp at hlo

end Coff2noff
end NachosFileSys
