import NachosFileSys.Kernel
import NachosFileSys.FileTable
import NachosFileSys.Lib.Results

/-! `machine/network.cc`, and the headers and buffers of `network/post.cc`. -/

namespace NachosFileSys

open Lib.Bytes

/-- The three words of a header; `toAddr` and `fromAddr` are the fields `to` and `from`. The
addresses are `int`s, the length is `unsigned`. -/
structure Header where
  toAddr : Word
  fromAddr : Word
  length : Word
  deriving DecidableEq, Repr

abbrev PacketHeader := Header

abbrev MailHeader := Header

abbrev MaxWireSize : ℕ := 64
abbrev MaxPacketSize : ℕ := MaxWireSize - 12
abbrev MaxMailSize : ℕ := MaxPacketSize - 12

def bytesAt (src : List Byte) (off len : ℕ) : Except Fault (List Byte) :=
  if off + len ≤ src.length then .ok ((src.drop off).take len) else .error .index

def bcopy {n : ℕ} (src : List Byte) (dst : Vector Byte n) (off : ℕ) : Except Fault (Vector Byte n) :=
  if h : off + src.length ≤ n then
    .ok ⟨(overlay dst.toList off src).toArray, by
      rw [List.size_toArray, overlay_length _ _ _ (by rw [Vector.length_toList]; exact h), Vector.length_toList]⟩
  else .error .index

namespace Header

def toBytes (h : Header) : List Byte :=
  [byteOf h.toAddr 0, byteOf h.toAddr 1, byteOf h.toAddr 2, byteOf h.toAddr 3,
   byteOf h.fromAddr 0, byteOf h.fromAddr 1, byteOf h.fromAddr 2, byteOf h.fromAddr 3,
   byteOf h.length 0, byteOf h.length 1, byteOf h.length 2, byteOf h.length 3]

def ofBytes (bytes : List Byte) : Header :=
  ⟨wordOf fun c => bytes.getD c 0, wordOf fun c => bytes.getD (4 + c) 0, wordOf fun c => bytes.getD (8 + c) 0⟩

lemma length_toBytes (h : Header) : h.toBytes.length = 12 := rfl

lemma ofBytes_append (h : Header) (rest : List Byte) : ofBytes (h.toBytes ++ rest) = h := by
  obtain ⟨toAddr, fromAddr, length⟩ := h
  have hto := wordOf_byteOf toAddr
  have hfrom := wordOf_byteOf fromAddr
  have hlength := wordOf_byteOf length
  rw [wordOf] at hto hfrom hlength
  simp [ofBytes, toBytes, wordOf, hto, hfrom, hlength]

end Header

/-- The header and the data of the packet that is buffered; there is none where the length is `0`. -/
structure NetworkInput where
  inHdr : PacketHeader
  inbox : Vector Byte MaxPacketSize

namespace NetworkInput

/-- `NetworkInput::CallBack` with the packets that can be read from the socket, and whether it calls the post
office. -/
def callBack (hostName : Word) (socket : List (Vector Byte MaxWireSize)) (n : NetworkInput) :
    Except Fault (NetworkInput × List (Vector Byte MaxWireSize) × Bool) :=
  if n.inHdr.length ≠ 0 then .ok (n, socket, false)
  else
    match socket with
    | [] => .ok (n, socket, false)
    | buffer :: socket => do
      let inHdr := Header.ofBytes buffer.toList
      check (inHdr.toAddr = hostName ∧ inHdr.length.toNat ≤ MaxPacketSize)
      let inbox ← bcopy (← bytesAt buffer.toList 12 inHdr.length.toNat) n.inbox 0
      pure (⟨inHdr, inbox⟩, socket, true)

def receive {k : ℕ} (data : Vector Byte k) (n : NetworkInput) :
    Except Fault (PacketHeader × Vector Byte k × NetworkInput) := do
  let hdr := n.inHdr
  let n := { n with inHdr := { n.inHdr with length := 0 } }
  let data ← (if hdr.length ≠ 0 then do bcopy (← bytesAt n.inbox.toList 0 hdr.length.toNat) data 0 else pure data)
  pure (hdr, data, n)

end NetworkInput

/-- `NetworkOutput::Send` up to the socket; `junk` is what is in the new buffer. -/
def NetworkOutput.send (hostName : Word) (sendBusy : Bool) (junk : Vector Byte MaxWireSize) (hdr : PacketHeader)
    (data : List Byte) : Except Fault (Vector Byte MaxWireSize) := do
  check (sendBusy = false ∧ 0 < hdr.length.toNat ∧ hdr.length.toNat ≤ MaxPacketSize ∧ hdr.fromAddr = hostName)
  let buffer ← bcopy hdr.toBytes junk 0
  bcopy (← bytesAt data 0 hdr.length.toNat) buffer 12

section Buffers

variable {n : ℕ} {src bytes rest : List Byte} {dst dst' : Vector Byte n} {off len : ℕ}

lemma check_eq_ok {p : Prop} [Decidable p] {u : Unit} : check p = .ok u ↔ p := by
  rw [check]
  split <;> simp_all

lemma check_of {p : Prop} [Decidable p] (h : p) : check p = .ok () := check_eq_ok.mpr h

lemma bytesAt_eq_ok : bytesAt src off len = .ok bytes ↔
    off + len ≤ src.length ∧ bytes = (src.drop off).take len := by
  rw [bytesAt]
  split
  · simp_all [eq_comm]
  · simp_all

lemma bcopy_eq_ok : bcopy src dst off = .ok dst' ↔ off + src.length ≤ n ∧
    dst'.toList = overlay dst.toList off src := by
  rw [bcopy]
  split
  · rename_i h
    rw [Except.ok.injEq]
    constructor
    · rintro rfl
      exact ⟨h, rfl⟩
    · rintro ⟨-, heq⟩
      apply Vector.toList_inj.mp
      rw [heq]
      rfl
  · simp_all

lemma prefix_bcopy (h : bcopy src dst 0 = .ok dst') : src <+: dst'.toList := by
  obtain ⟨-, heq⟩ := bcopy_eq_ok.mp h
  rw [heq, overlay, List.take_zero, List.nil_append]
  exact List.prefix_append _ _

lemma prefix_bcopy_append (hpre : src <+: dst.toList) (h : bcopy bytes dst src.length = .ok dst') :
    src ++ bytes <+: dst'.toList := by
  obtain ⟨-, heq⟩ := bcopy_eq_ok.mp h
  rw [heq, overlay, ← List.append_assoc, ← List.prefix_iff_eq_take.mp hpre]
  exact List.prefix_append _ _

lemma bcopy_ok (src : List Byte) (dst : Vector Byte n) (off : ℕ) (h : off + src.length ≤ n) :
    ∃ dst', bcopy src dst off = .ok dst' := by
  rw [bcopy, dif_pos h]
  exact ⟨_, rfl⟩

lemma bytesAt_of_prefix (h : src ++ bytes <+: rest) : bytesAt rest src.length bytes.length = .ok bytes := by
  obtain ⟨tail, rfl⟩ := h
  apply bytesAt_eq_ok.mpr
  constructor
  · simp
  · rw [List.append_assoc, List.drop_left, List.take_left]

end Buffers

end NachosFileSys
