import NachosFileSys.Network

/-! `network/post.cc`: mails packed into packets and unpacked again. -/

namespace NachosFileSys

open Lib.Bytes Lib.Results

structure Mail where
  pktHdr : PacketHeader
  mailHdr : MailHeader
  data : Vector Byte MaxMailSize
  deriving DecidableEq

def Mail.new (pktH : PacketHeader) (mailH : MailHeader) (msgData : List Byte) (junk : Vector Byte MaxMailSize) :
    Except Fault Mail := do
  check (mailH.length.toNat ≤ MaxMailSize)
  let data ← bcopy (← bytesAt msgData 0 mailH.length.toNat) junk 0
  pure ⟨pktH, mailH, data⟩

def PostOfficeOutput.concatenate (hostName : Word) (junk : Vector Byte MaxPacketSize) (pktHdr : PacketHeader)
    (mailHdr : MailHeader) (data : List Byte) : Except Fault (PacketHeader × Vector Byte MaxPacketSize) := do
  check (mailHdr.length.toNat ≤ MaxMailSize)
  check (0 ≤ mailHdr.toAddr.toInt)
  let pktHdr := { pktHdr with fromAddr := hostName, length := mailHdr.length + 12 }
  let buffer ← bcopy mailHdr.toBytes junk 0
  let buffer ← bcopy (← bytesAt data 0 mailHdr.length.toNat) buffer 12
  pure (pktHdr, buffer)

/-- `PostalDelivery` after the `P`, up to the `Append` of `MailBox::Put`: the box, the new mail, the
worker's buffer and the network. -/
def PostOfficeInput.arrive (numBoxes : ℤ) (junk : Vector Byte MaxMailSize) (buffer : Vector Byte MaxPacketSize)
    (network : NetworkInput) : Except Fault (ℕ × Mail × Vector Byte MaxPacketSize × NetworkInput) := do
  let (pktHdr, buffer, network) ← network.receive buffer
  let mailHdr := Header.ofBytes buffer.toList
  check (0 ≤ mailHdr.toAddr.toInt ∧ mailHdr.toAddr.toInt < numBoxes)
  check (mailHdr.length.toNat ≤ MaxMailSize)
  let mail ← Mail.new pktHdr mailHdr (buffer.toList.drop 12) junk
  pure (mailHdr.toAddr.toNat, mail, buffer, network)

abbrev MailBox := List (Pointer × Mail)

structure PostOfficeInput where
  network : NetworkInput
  numBoxes : ℤ
  boxes : ℕ → MailBox
  -- of the postal worker
  buffer : Vector Byte MaxPacketSize

namespace PostOfficeInput

/-- The rounds of the interrupt handler and of the postal worker for one packet; `mail` is the pointer that `new`
returns. `List::Append` asserts that it is not in the list. -/
def process (hostName : Word) (junk : Vector Byte MaxMailSize) (mail : Pointer) (packet : Vector Byte MaxWireSize)
    (o : PostOfficeInput) : Except Fault PostOfficeInput := do
  let (network, _, _) ← o.network.callBack hostName [packet]
  let (box, m, buffer, network) ← arrive o.numBoxes junk o.buffer network
  check (mail ∉ (o.boxes box).map Prod.fst)
  pure ⟨network, o.numBoxes, Function.update o.boxes box (o.boxes box ++ [(mail, m)]), buffer⟩

end PostOfficeInput

structure Packed (pktHdr : PacketHeader) (mailHdr : MailHeader) (payload : List Byte) : Prop where
  packet : pktHdr.length.toNat = 12 + payload.length
  mail : mailHdr.length.toNat = payload.length
  le : payload.length ≤ MaxMailSize

variable {hostName : Word} {pktHdr hdr : PacketHeader} {mailHdr : MailHeader} {data payload : List Byte}
  {buffer junk : Vector Byte MaxPacketSize} {wire junk' : Vector Byte MaxWireSize} {numBoxes : ℤ}

lemma PostOfficeOutput.concatenate_inv (h : concatenate hostName junk pktHdr mailHdr data = .ok (hdr, buffer)) :
    0 ≤ mailHdr.toAddr.toInt ∧ mailHdr.length.toNat ≤ data.length ∧
      hdr = ⟨pktHdr.toAddr, hostName, mailHdr.length + 12⟩ ∧
      Packed hdr mailHdr (data.take mailHdr.length.toNat) ∧
      mailHdr.toBytes ++ data.take mailHdr.length.toNat <+: buffer.toList := by
  rw [concatenate] at h
  obtain ⟨_, hle, h⟩ := bind_eq_ok.mp h
  obtain ⟨_, hto, h⟩ := bind_eq_ok.mp h
  obtain ⟨b₁, h₁, h⟩ := bind_eq_ok.mp h
  obtain ⟨bytes, hbytes, h⟩ := bind_eq_ok.mp h
  obtain ⟨b₂, h₂, h⟩ := bind_eq_ok.mp h
  cases h
  have hle := check_eq_ok.mp hle
  obtain ⟨hlen, rfl⟩ := bytesAt_eq_ok.mp hbytes
  rw [List.drop_zero] at h₂
  have htake : (data.take mailHdr.length.toNat).length = mailHdr.length.toNat := List.length_take_of_le (by omega)
  have hsum : (mailHdr.length + 12).toNat = mailHdr.length.toNat + 12 := by
    have hmax : MaxMailSize = 40 := rfl
    rw [BitVec.toNat_add]
    change (mailHdr.length.toNat + 12) % 2 ^ 32 = _
    omega
  refine ⟨check_eq_ok.mp hto, by omega, rfl, ⟨?_, htake.symm, htake.trans_le hle⟩, ?_⟩
  · rw [htake]
    change (mailHdr.length + 12).toNat = _
    omega
  · exact prefix_bcopy_append (prefix_bcopy h₁) h₂

lemma NetworkOutput.send_inv {sendBusy : Bool} (h : send hostName sendBusy junk' hdr data = .ok wire) :
    hdr.toBytes ++ data.take hdr.length.toNat <+: wire.toList := by
  rw [send] at h
  obtain ⟨_, -, h⟩ := bind_eq_ok.mp h
  obtain ⟨b₁, h₁, h⟩ := bind_eq_ok.mp h
  obtain ⟨bytes, hbytes, h⟩ := bind_eq_ok.mp h
  obtain ⟨-, rfl⟩ := bytesAt_eq_ok.mp hbytes
  rw [List.drop_zero] at h
  exact prefix_bcopy_append (prefix_bcopy h₁) h

structure OnWire (pktHdr : PacketHeader) (mailHdr : MailHeader)
    (payload : List Byte) (wire : Vector Byte MaxWireSize) :
    Prop where
  packed : Packed pktHdr mailHdr payload
  bytes : pktHdr.toBytes ++ (mailHdr.toBytes ++ payload) <+: wire.toList

lemma Packed.take (h : Packed pktHdr mailHdr payload) {bytes : List Byte}
    (hb : mailHdr.toBytes ++ payload <+: bytes) :
    bytes.take pktHdr.length.toNat = mailHdr.toBytes ++ payload := by
  have hlen : 12 + payload.length = (mailHdr.toBytes ++ payload).length := by
    rw [List.length_append, Header.length_toBytes]
  rw [h.packet, hlen]
  exact (List.prefix_iff_eq_take.mp hb).symm

lemma onWire_of_sent {sendBusy : Bool}
    (h : PostOfficeOutput.concatenate hostName junk pktHdr mailHdr data = .ok (hdr, buffer))
    (h' : NetworkOutput.send hostName sendBusy junk' hdr buffer.toList = .ok wire) :
    OnWire hdr mailHdr (data.take mailHdr.length.toNat) wire := by
  obtain ⟨-, -, -, hpacked, hbuffer⟩ := PostOfficeOutput.concatenate_inv h
  have hwire := NetworkOutput.send_inv h'
  rw [hpacked.take hbuffer] at hwire
  exact ⟨hpacked, hwire⟩

structure Buffered (pktHdr : PacketHeader) (mailHdr : MailHeader) (payload : List Byte) (n : NetworkInput) :
    Prop where
  packed : Packed pktHdr mailHdr payload
  inHdr : n.inHdr = pktHdr
  inbox : mailHdr.toBytes ++ payload <+: n.inbox.toList

lemma OnWire.callBack (h : OnWire pktHdr mailHdr payload wire) {n : NetworkInput} (hn : n.inHdr.length = 0)
    (hto : pktHdr.toAddr = hostName) (socket : List (Vector Byte MaxWireSize)) :
    ∃ n', n.callBack hostName (wire :: socket) = .ok (n', socket, true) ∧ Buffered pktHdr mailHdr payload n' := by
  have hlen := h.packed.packet
  have hle := h.packed.le
  have hmax : MaxMailSize = 40 := rfl
  have hpacket : MaxPacketSize = 52 := rfl
  obtain ⟨rest, hrest⟩ := h.bytes
  have hhdr : Header.ofBytes wire.toList = pktHdr := by rw [← hrest, List.append_assoc, Header.ofBytes_append]
  have hbytes : bytesAt wire.toList 12 pktHdr.length.toNat = .ok (mailHdr.toBytes ++ payload) := by
    have hat := bytesAt_of_prefix h.bytes
    rw [Header.length_toBytes, List.length_append, Header.length_toBytes, ← hlen] at hat
    exact hat
  have hroom : 0 + (mailHdr.toBytes ++ payload).length ≤ MaxPacketSize := by
    rw [List.length_append, Header.length_toBytes]
    omega
  obtain ⟨inbox, hcopy⟩ := bcopy_ok _ n.inbox 0 hroom
  refine ⟨⟨pktHdr, inbox⟩, ?_, h.packed, rfl, prefix_bcopy hcopy⟩
  rw [NetworkInput.callBack, if_neg (not_not.mpr hn)]
  dsimp only
  rw [hhdr, check_of ⟨hto, by omega⟩, hbytes]
  dsimp only [bind, Except.bind]
  rw [hcopy]
  rfl

lemma Buffered.receive {n : NetworkInput} (h : Buffered pktHdr mailHdr payload n)
    (buffer : Vector Byte MaxPacketSize) :
    ∃ buffer' n', n.receive buffer = .ok (pktHdr, buffer', n') ∧ n'.inHdr.length = 0 ∧
      mailHdr.toBytes ++ payload <+: buffer'.toList := by
  have hlen := h.packed.packet
  have hle := h.packed.le
  have hmax : MaxMailSize = 40 := rfl
  have hpacket : MaxPacketSize = 52 := rfl
  have hne : pktHdr.length ≠ 0 := by
    intro h0
    have hzero : pktHdr.length.toNat = 0 := congrArg BitVec.toNat h0
    omega
  have hsize := n.inbox.length_toList
  have hbytes : bytesAt n.inbox.toList 0 pktHdr.length.toNat = .ok (mailHdr.toBytes ++ payload) :=
    bytesAt_eq_ok.mpr ⟨by omega, by rw [List.drop_zero, h.packed.take h.inbox]⟩
  have hroom : 0 + (mailHdr.toBytes ++ payload).length ≤ MaxPacketSize := by
    rw [List.length_append, Header.length_toBytes]
    omega
  obtain ⟨buffer', hcopy⟩ := bcopy_ok _ buffer 0 hroom
  refine ⟨buffer', { n with inHdr := { n.inHdr with length := 0 } }, ?_, rfl, prefix_bcopy hcopy⟩
  rw [NetworkInput.receive]
  dsimp only
  rw [h.inHdr, if_pos hne, hbytes]
  dsimp only [bind, Except.bind]
  rw [hcopy]
  rfl

lemma Buffered.arrive {n : NetworkInput} (h : Buffered pktHdr mailHdr payload n) (hto : 0 ≤ mailHdr.toAddr.toInt)
    (numBoxes : ℤ) (junk : Vector Byte MaxMailSize) (buffer : Vector Byte MaxPacketSize) :
    (mailHdr.toAddr.toInt < numBoxes → ∃ mail buffer' n',
      PostOfficeInput.arrive numBoxes junk buffer n = .ok (mailHdr.toAddr.toNat, mail, buffer', n') ∧
      n'.inHdr.length = 0 ∧ mail.pktHdr = pktHdr ∧ mail.mailHdr = mailHdr ∧ payload <+: mail.data.toList) ∧
    (¬mailHdr.toAddr.toInt < numBoxes → PostOfficeInput.arrive numBoxes junk buffer n = .error .assertion) := by
  obtain ⟨buffer', n', hr, hidle, hpre⟩ := h.receive buffer
  obtain ⟨rest, hrest⟩ := hpre
  have hhdr : Header.ofBytes buffer'.toList = mailHdr := by rw [← hrest, List.append_assoc, Header.ofBytes_append]
  constructor
  · intro hbox
    have hmail := h.packed.mail
    have hle := h.packed.le
    have hdrop : buffer'.toList.drop 12 = payload ++ rest := by
      rw [← hrest, List.append_assoc]
      exact List.drop_left' mailHdr.length_toBytes
    have hbytes : bytesAt (buffer'.toList.drop 12) 0 mailHdr.length.toNat = .ok payload := by
      rw [hdrop, hmail]
      exact bytesAt_eq_ok.mpr ⟨by simp, by rw [List.drop_zero, List.take_left]⟩
    obtain ⟨data, hcopy⟩ := bcopy_ok payload junk 0 (by omega)
    have hnew : Mail.new pktHdr mailHdr (buffer'.toList.drop 12) junk = .ok ⟨pktHdr, mailHdr, data⟩ := by
      rw [Mail.new, check_of (hmail.trans_le hle), hbytes]
      dsimp only [bind, Except.bind]
      rw [hcopy]
      rfl
    refine ⟨⟨pktHdr, mailHdr, data⟩, buffer', n', ?_, hidle, rfl, rfl, prefix_bcopy hcopy⟩
    rw [PostOfficeInput.arrive, hr]
    dsimp only [bind, Except.bind]
    rw [hhdr, check_of ⟨hto, hbox⟩, check_of (hmail.trans_le hle), hnew]
    rfl
  · intro hbox
    rw [PostOfficeInput.arrive, hr]
    dsimp only [bind, Except.bind]
    rw [hhdr, check, if_neg (by simpa [hto] using hbox)]

section Processing

variable {o : PostOfficeInput} {mail : Pointer}

lemma OnWire.process (h : OnWire pktHdr mailHdr payload wire) (hto : 0 ≤ mailHdr.toAddr.toInt)
    (hidle : o.network.inHdr.length = 0) (hfresh : ∀ box, mail ∉ (o.boxes box).map Prod.fst)
    (junk : Vector Byte MaxMailSize) :
    (mailHdr.toAddr.toInt < o.numBoxes → ∃ o', o.process pktHdr.toAddr junk mail wire = .ok o') ∧
      (¬mailHdr.toAddr.toInt < o.numBoxes → o.process pktHdr.toAddr junk mail wire = .error .assertion) := by
  obtain ⟨n, hcall, hbuffered⟩ := h.callBack hidle rfl []
  obtain ⟨hok, hstop⟩ := hbuffered.arrive hto o.numBoxes junk o.buffer
  constructor
  · intro hbox
    obtain ⟨m, buffer, n', harrive, -⟩ := hok hbox
    let box := mailHdr.toAddr.toNat
    refine ⟨⟨n', o.numBoxes, Function.update o.boxes box (o.boxes box ++ [(mail, m)]), buffer⟩, ?_⟩
    rw [PostOfficeInput.process, hcall]
    dsimp only [bind, Except.bind]
    rw [harrive]
    dsimp only
    rw [check_of (hfresh mailHdr.toAddr.toNat)]
    rfl
  · intro hbox
    rw [PostOfficeInput.process, hcall]
    dsimp only [bind, Except.bind]
    rw [hstop hbox]

/-- What a machine sends is processed by the machine to which it is addressed, without a failed assertion, exactly
if the box exists there; the pointer that `new` returns is not in use. -/
theorem sent_packet_processed_iff {sendBusy : Bool}
    (hsend : PostOfficeOutput.concatenate hostName junk pktHdr mailHdr data = .ok (hdr, buffer))
    (hnet : NetworkOutput.send hostName sendBusy junk' hdr buffer.toList = .ok wire)
    (hidle : o.network.inHdr.length = 0) (hfresh : ∀ box, mail ∉ (o.boxes box).map Prod.fst)
    (junk₂ : Vector Byte MaxMailSize) :
    ((∃ o', o.process pktHdr.toAddr junk₂ mail wire = .ok o') ↔ mailHdr.toAddr.toInt < o.numBoxes) ∧
      (¬mailHdr.toAddr.toInt < o.numBoxes → o.process pktHdr.toAddr junk₂ mail wire = .error .assertion) := by
  obtain ⟨hto, -, rfl, -⟩ := PostOfficeOutput.concatenate_inv hsend
  obtain ⟨hok, hstop⟩ := (onWire_of_sent hsend hnet).process hto hidle hfresh junk₂
  refine ⟨⟨?_, hok⟩, hstop⟩
  rintro ⟨o', ho⟩
  by_contra hbox
  rw [show o.process pktHdr.toAddr junk₂ mail wire = .error .assertion from hstop hbox] at ho
  cases ho

end Processing

def oneBox : PostOfficeInput := ⟨⟨⟨0, 0, 0⟩, Vector.replicate _ 0⟩, 1, fun _ => [], Vector.replicate _ 0⟩

theorem sent_packet_processed_twoBytes : ∃ hdr buffer wire o',
    PostOfficeOutput.concatenate 0 (Vector.replicate _ 0) ⟨1, 0, 0⟩ ⟨0, 0, 2⟩ [0x68, 0x69] = .ok (hdr, buffer) ∧
    NetworkOutput.send 0 false (Vector.replicate _ 0) hdr buffer.toList = .ok wire ∧
    oneBox.process 1 (Vector.replicate _ 0) 0 wire = .ok o' := by
  obtain ⟨hdr, buffer, hsend⟩ : ∃ hdr buffer,
      PostOfficeOutput.concatenate 0 (Vector.replicate _ 0) ⟨1, 0, 0⟩ ⟨0, 0, 2⟩ [0x68, 0x69] =
      .ok (hdr, buffer) := ⟨_, _, rfl⟩
  obtain ⟨wire, hnet⟩ : ∃ wire, NetworkOutput.send 0 false (Vector.replicate _ 0) hdr buffer.toList =
      .ok wire := by
    cases hsend
    exact ⟨_, rfl⟩
  obtain ⟨o', ho⟩ := (sent_packet_processed_iff hsend hnet (show oneBox.network.inHdr.length = 0 from rfl)
    (show ∀ box, (0 : Pointer) ∉ (oneBox.boxes box).map Prod.fst from fun _ => List.not_mem_nil)
    (Vector.replicate _ 0)).1.mpr (by decide)
  exact ⟨hdr, buffer, wire, o', hsend, hnet, ho⟩

/-- An empty mail from machine 0 to box 1 of machine 1, which has one box. -/
theorem sent_packet_stops_receiver : ∃ hdr buffer wire,
    PostOfficeOutput.concatenate 0 (Vector.replicate _ 0) ⟨1, 0, 0⟩ ⟨1, 0, 0⟩ [] = .ok (hdr, buffer) ∧
    NetworkOutput.send 0 false (Vector.replicate _ 0) hdr buffer.toList = .ok wire ∧ 0 < oneBox.numBoxes ∧
    oneBox.process 1 (Vector.replicate _ 0) 0 wire = .error .assertion := by
  obtain ⟨hdr, buffer, hsend⟩ : ∃ hdr buffer,
      PostOfficeOutput.concatenate 0 (Vector.replicate _ 0) ⟨1, 0, 0⟩ ⟨1, 0, 0⟩ [] = .ok (hdr, buffer) :=
      ⟨_, _, rfl⟩
  obtain ⟨wire, hnet⟩ : ∃ wire, NetworkOutput.send 0 false (Vector.replicate _ 0) hdr buffer.toList =
      .ok wire := by
    cases hsend
    exact ⟨_, rfl⟩
  obtain ⟨-, -, rfl, -⟩ := PostOfficeOutput.concatenate_inv hsend
  have hstop := ((onWire_of_sent hsend hnet).process (by decide) (show oneBox.network.inHdr.length = 0 from rfl)
    (show ∀ box, (0 : Pointer) ∉ (oneBox.boxes box).map Prod.fst from fun _ => List.not_mem_nil)
    (Vector.replicate _ 0)).2 (by decide)
  exact ⟨_, buffer, wire, hsend, hnet, by decide, hstop⟩

end NachosFileSys
