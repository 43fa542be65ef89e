import NachosFileSys.MailBoxes
import NachosFileSys.Sending

/-! The post offices of all machines and the network between them: `PostOfficeOutput`, the socket layer,
`NetworkInput` with its interrupts, `PostalDelivery` and `Receive`. The socket layer may lose a packet, and keeps
the order of those that one machine sends to another. -/

namespace NachosFileSys

open Lib.Runs Lib.Threads Lib.Results Lib.Bytes Concurrent Client

/-- A `Mail *`, the mail there, and the machine and the call of `Send` that it comes from. -/
structure Letter where
  pointer : ℕ
  mail : Mail
  origin : Option (Word × Posting)
  deriving DecidableEq

structure Receipt where
  pktHdr : PacketHeader
  mailHdr : MailHeader
  data : List Byte
  deriving DecidableEq

/-- `MailBox::Get` after `RemoveFront`, and the `ASSERT` of `Receive`. -/
def Mail.get (mail : Mail) : Except Fault Receipt := do
  let data ← bytesAt mail.data.toList 0 mail.mailHdr.length.toNat
  check (mail.mailHdr.length.toNat ≤ MaxMailSize)
  pure ⟨mail.pktHdr, mail.mailHdr, data⟩

inductive Worker
  | waiting
  -- after the `P`
  | woken
  | putting (box : ℕ) (letter : Letter)
  | appending (box : ℕ)

def Worker.isWoken : Worker → Bool
  | .woken => true
  | _ => false

def Worker.inHand (b : ℕ) : Worker → List Letter
  | .putting box letter => if box = b then [letter] else []
  | _ => []

structure Office where
  network : NetworkInput
  messageAvailable : ℕ
  worker : Worker
  buffer : Vector Byte MaxPacketSize
  allocated : ℕ
  boxes : ℕ → Box Letter
  -- what the calls of `Receive` have returned so far, by box and thread
  received : ℕ → ℕ → List (Letter × Receipt)
  -- the origin of the packet that waits in the network, of those that the network has read and of those that the
  -- worker has fetched
  buffered : Option (Word × Posting)
  arrived : List (Word × Posting)
  fetched : List (Word × Posting)

namespace Office

def setBox (box : ℕ) (b : Box Letter) (o : Office) : Office := { o with boxes := Function.update o.boxes box b }

/-- The next step of `PostalDelivery`; there is none where it sleeps in its `P`. -/
def deliver (numBoxes : ℤ) (junk : Vector Byte MaxMailSize) (o : Office) : Option (Except Fault Office) :=
  match o.worker with
  | .waiting => if o.messageAvailable = 0 then none
    else some (.ok { o with messageAvailable := o.messageAvailable - 1, worker := .woken })
  | .woken => some do
    let (box, mail, buffer, network) ← PostOfficeInput.arrive numBoxes junk o.buffer o.network
    pure { o with
      network := network, buffer := buffer, worker := .putting box ⟨o.allocated, mail, o.buffered⟩,
      allocated := o.allocated + 1, buffered := none, fetched := o.fetched ++ o.buffered.toList }
  | .putting box letter => ((o.boxes box).enter 0 (some letter)).map fun r => r.map fun b =>
    { (o.setBox box b) with worker := .appending box }
  | .appending box => match (o.boxes box).leave 0 with
    | some (_, b) => some (.ok { (o.setBox box b) with worker := .waiting })
    | none => ((o.boxes box).go 0).map fun r => r.map fun b => o.setBox box b

def receive (numBoxes : ℤ) (box t : ℕ) (o : Office) : Option (Except Fault Office) :=
  if t = 0 then none
  else if (o.boxes box).calling t then
    match (o.boxes box).leave t with
    | some (some letter, b) => some do
      let receipt ← letter.mail.get
      let ofBox := Function.update (o.received box) t (o.received box t ++ [(letter, receipt)])
      pure { (o.setBox box b) with received := Function.update o.received box ofBox }
    | some (none, _) => none
    | none => ((o.boxes box).go t).map fun r => r.map fun b => o.setBox box b
  else if box < numBoxes then ((o.boxes box).enter t none).map fun r => r.map fun b => o.setBox box b
  else some (.error .assertion)

end Office

structure Packet where
  source : Word
  posting : Posting
  wire : Vector Byte MaxWireSize

/-- All machines; `carried` counts the packets from one machine to another that the socket layer has
brought there or lost. -/
structure Net where
  sending : Word → Sending.State
  carried : Word → Word → ℕ
  socket : Word → List Packet
  office : Word → Office

inductive NetOp
  -- a thread in `Send`, or with thread 0 the interrupt of the network
  | send (host : Word) (t : ℕ) (k : SendChoice)
  | carry (source dest : Word) (lost : Bool)
  | interrupt (host : Word)
  | deliver (host : Word) (junk : Vector Byte MaxMailSize)
  | receive (host : Word) (box t : ℕ)

namespace Net

def log (source dest : Word) (σ : Net) : List (Posting × Vector Byte MaxWireSize) :=
  (σ.sending source).memory.data.handed.filter fun x => x.1.pktHdr.toAddr = dest

def carry (source dest : Word) (lost : Bool) (σ : Net) : Option Net :=
  ((σ.log source dest)[σ.carried source dest]?).map fun x => { σ with
    carried := Function.update σ.carried source
      (Function.update (σ.carried source) dest (σ.carried source dest + 1))
    socket := if lost then σ.socket
      else Function.update σ.socket dest (σ.socket dest ++ [⟨source, x.1, x.2⟩]) }

/-- `NetworkInput::CallBack`, which calls `PostOfficeInput::CallBack` where it has read a packet. -/
def interrupt (host : Word) (σ : Net) : Except Fault Net := do
  let o := σ.office host
  let (network, _, called) ← o.network.callBack host ((σ.socket host).map Packet.wire)
  match called, σ.socket host with
  | true, x :: rest => pure { σ with
      socket := Function.update σ.socket host rest,
      office := Function.update σ.office host { o with
        network := network, messageAvailable := o.messageAvailable + 1,
        buffered := some (x.source, x.posting), arrived := o.arrived ++ [(x.source, x.posting)] } }
  | _, _ => pure σ

def setOffice (host : Word) (σ : Net) (o : Office) : Net := { σ with office := Function.update σ.office host o }

def next (numBoxes : Word → ℤ) (op : NetOp) (σ : Net) : Option (Except Fault Net) :=
  match op with
  | .send host t k => ((σ.sending host).move (Sending.client host).code (t, k)).map fun r => r.map fun s =>
    { σ with sending := Function.update σ.sending host s }
  | .carry source dest lost => (σ.carry source dest lost).map .ok
  | .interrupt host => some (σ.interrupt host)
  | .deliver host junk => ((σ.office host).deliver (numBoxes host) junk).map fun r => r.map (σ.setOffice host)
  | .receive host box t => ((σ.office host).receive (numBoxes host) box t).map fun r => r.map (σ.setOffice host)

def Moves (numBoxes : Word → ℤ) (op : NetOp) (σ σ' : Net) : Prop := σ.next numBoxes op = some (.ok σ')

abbrev Run (numBoxes : Word → ℤ) : Net → Net → Prop := Reaches (Moves numBoxes) fun _ _ => True

/-- The machines after their start: `senders` threads that send, and for every box `receivers`
threads that receive; `junk` is what a new `NetworkInput` and the buffer of the worker hold. -/
def start (senders : Word → ℕ) (receivers : Word → ℕ → ℕ)
    (junk : Word → NetworkInput × Vector Byte MaxPacketSize) : Net where
  sending host := Sending.start (senders host)
  carried _ _ := 0
  socket _ := []
  office host :=
    ⟨{ (junk host).1 with inHdr := { (junk host).1.inHdr with length := 0 } }, 0, .waiting, (junk host).2, 0,
    fun box => Box.start Letter (receivers host box), fun _ _ => [], none, [], []⟩

end Net

/-- The letter holds what its origin passed to `Send`, and comes from the machine of its origin. -/
def Genuine (dest : Word) (l : Letter) : Prop :=
  ∃ source p, l.origin = some (source, p) ∧ l.mail.pktHdr.fromAddr = source ∧ l.mail.pktHdr.toAddr = dest ∧
    l.mail.mailHdr = p.mailHdr ∧ p.payload.length = p.mailHdr.length.toNat ∧ p.payload.length ≤ MaxMailSize ∧
    p.payload <+: l.mail.data.toList

lemma Genuine.get {dest : Word} {l : Letter} {r : Receipt} (h : Genuine dest l) (hr : l.mail.get = .ok r) :
    ∃ source p, l.origin = some (source, p) ∧ r.pktHdr.fromAddr = source ∧ r.pktHdr.toAddr = dest ∧
      r.mailHdr = p.mailHdr ∧ r.data = p.payload := by
  obtain ⟨source, p, horigin, hfrom, hto, hhdr, hlen, -, hdata⟩ := h
  obtain ⟨data, hbytes, hr⟩ := bind_eq_ok.mp hr
  obtain ⟨-, -, hr⟩ := bind_eq_ok.mp hr
  cases hr
  obtain ⟨-, hdata'⟩ := bytesAt_eq_ok.mp hbytes
  refine ⟨source, p, horigin, hfrom, hto, hhdr, ?_⟩
  rw [hdata', List.drop_zero, hhdr, ← hlen]
  exact (List.prefix_iff_eq_take.mp hdata).symm

namespace Office

variable {d : Word} {o o' : Office} {numBoxes : ℤ} {box t : ℕ} {b : Box Letter} {w : Worker}

def Waits (d : Word) (x : Word × Posting) (n : NetworkInput) : Prop :=
  0 ≤ x.2.mailHdr.toAddr.toInt ∧ ∃ hdr : PacketHeader, hdr.fromAddr = x.1 ∧ hdr.toAddr = d ∧
    Buffered hdr x.2.mailHdr x.2.payload n

def toBox (b : ℕ) (x : Word × Posting) : Bool := x.2.mailHdr.toAddr.toNat = b

structure Good (d : Word) (o : Office) : Prop where
  boxes (b : ℕ) : (o.boxes b).Good
  buffered (x : Word × Posting) (hx : o.buffered = some x) : Waits d x o.network
  empty (hn : o.buffered = none) : o.network.inHdr.length = 0
  count : o.messageAvailable + (if o.worker.isWoken then 1 else 0) = o.buffered.toList.length
  fifo : o.arrived = o.fetched ++ o.buffered.toList
  offered (b : ℕ) : ((o.boxes b).offered ++ o.worker.inHand b).map Letter.origin =
      (o.fetched.filter (toBox b)).map some
  letters (b : ℕ) (l : Letter) (hl : l ∈ (o.boxes b).offered ++ o.worker.inHand b) : Genuine d l
  received (b t : ℕ) (ht : t ≠ 0) : (o.received b t).map Prod.fst = (o.boxes b).returned t
  receipts (b t : ℕ) (x : Letter × Receipt) (hx : x ∈ o.received b t) : x.1.mail.get = .ok x.2

lemma Good.change (h : Good d o) (hb : b.Good) (hw : w.isWoken = o.worker.isWoken)
    (hoffered : b.offered ++ w.inHand box = (o.boxes box).offered ++ o.worker.inHand box)
    (hhand : ∀ b ≠ box, w.inHand b = o.worker.inHand b) {received : ℕ → ℕ → List (Letter × Receipt)}
    (hreceived : ∀ t ≠ 0, (received box t).map Prod.fst = b.returned t)
    (hother : ∀ b ≠ box, received b = o.received b)
    (hreceipts : ∀ t, ∀ x ∈ received box t, x.1.mail.get = .ok x.2) :
    Good d { o with boxes := Function.update o.boxes box b, worker := w, received := received } := by
  have hhand' : ∀ b', (Function.update o.boxes box b b').offered ++ w.inHand b' =
      (o.boxes b').offered ++ o.worker.inHand b' := by
    intro b'
    rcases eq_or_ne b' box with rfl | hne
    · rw [Function.update_self]
      exact hoffered
    · rw [Function.update_of_ne hne, hhand b' hne]
  refine ⟨?_, h.buffered, h.empty, ?_, h.fifo, ?_, ?_, ?_, ?_⟩
  · intro b'
    dsimp only
    rcases eq_or_ne b' box with rfl | hne
    · rw [Function.update_self]
      exact hb
    · rw [Function.update_of_ne hne]
      exact h.boxes b'
  · rw [← h.count, hw]
  · intro b'
    rw [← h.offered b', ← hhand' b']
  · intro b' l hl
    rw [hhand' b'] at hl
    exact h.letters b' l hl
  · intro b' t ht
    dsimp only
    rcases eq_or_ne b' box with rfl | hne
    · rw [Function.update_self]
      exact hreceived t ht
    · rw [Function.update_of_ne hne, hother b' hne]
      exact h.received b' t ht
  · intro b' t x hx
    rcases eq_or_ne b' box with rfl | hne
    · exact hreceipts t x hx
    · dsimp only at hx
      rw [hother b' hne] at hx
      exact h.receipts b' t x hx

lemma Good.setBox (h : Good d o) (hb : b.Good) (hoffered : b.offered = (o.boxes box).offered)
    (hreturned : ∀ t ≠ 0, b.returned t = (o.boxes box).returned t) : Good d (o.setBox box b) := by
  refine h.change hb rfl (by rw [hoffered]) (fun _ _ => rfl) ?_ (fun _ _ => rfl) (h.receipts box)
  intro t ht
  rw [hreturned t ht]
  exact h.received box t ht

lemma map_map_ok {α β : Type} {x : Option (Except Fault α)} {f : α → β} {y : β}
    (h : x.map (fun r => r.map f) = some (.ok y)) : ∃ a, x = some (.ok a) ∧ y = f a := by
  obtain ⟨r, hr, h⟩ := Option.map_eq_some_iff.mp h
  cases r with
  | error e => cases h
  | ok a =>
    cases h
    exact ⟨a, hr, rfl⟩

lemma Good.receive (h : Good d o) (he : o.receive numBoxes box t = some (.ok o')) : Good d o' := by
  rw [Office.receive] at he
  split at he
  · cases he
  rename_i ht
  split at he
  · split at he
    · rename_i letter b hleave
      obtain ⟨receipt, hget, he⟩ := bind_eq_ok.mp (Option.some.inj he)
      cases he
      have hgood := (h.boxes box).leave hleave
      obtain ⟨-, -, rfl⟩ := Box.leave_ok hleave
      refine h.change hgood rfl rfl (fun _ _ => rfl) ?_ ?_ ?_
      · intro u hu
        rw [Function.update_self]
        dsimp only
        rcases eq_or_ne u t with rfl | hne
        · rw [Function.update_self, Function.update_self, List.map_append, h.received box u hu]
          rfl
        · rw [Function.update_of_ne hne, Function.update_of_ne hne, h.received box u hu]
      · intro b' hne
        rw [Function.update_of_ne hne]
      · intro u x hx
        rw [Function.update_self] at hx
        rcases eq_or_ne u t with rfl | hne
        · rw [Function.update_self, List.mem_append, List.mem_singleton] at hx
          obtain hx | rfl := hx
          · exact h.receipts box u x hx
          · exact hget
        · rw [Function.update_of_ne hne] at hx
          exact h.receipts box u x hx
    · cases he
    · obtain ⟨b, hgo, rfl⟩ := map_map_ok he
      obtain ⟨-, -, list, -, hb⟩ := Box.go_ok hgo
      exact h.setBox ((h.boxes box).go hgo) (by rw [hb]) (fun _ _ => by rw [hb])
  · split at he
    · obtain ⟨b, henter, rfl⟩ := map_map_ok he
      obtain ⟨-, list, -, hb⟩ := Box.enter_ok henter
      exact h.setBox ((h.boxes box).enter (fun _ => rfl) henter)
          (by rw [hb]; exact List.append_nil _) (fun _ _ => by rw [hb])
    · cases he

lemma Waits.arrive {x : Word × Posting} (h : Waits d x o.network)
    {junk : Vector Byte MaxMailSize} {buffer : Vector Byte MaxPacketSize}
    {mail : Mail} {network : NetworkInput}
    (ha : PostOfficeInput.arrive numBoxes junk o.buffer o.network = .ok (box, mail, buffer, network)) :
    box = x.2.mailHdr.toAddr.toNat ∧ network.inHdr.length = 0 ∧ ∀ pointer, Genuine d ⟨pointer, mail, some x⟩ := by
  obtain ⟨hto, hdr, hfrom, hdest, hbuf⟩ := h
  obtain ⟨hok, hstop⟩ := hbuf.arrive hto numBoxes junk o.buffer
  by_cases hbox : x.2.mailHdr.toAddr.toInt < numBoxes
  · obtain ⟨mail', buffer', n', harrive, hidle, hpkt, hhdr, hpre⟩ := hok hbox
    cases harrive.symm.trans ha
    refine ⟨rfl, hidle, fun pointer => ⟨x.1, x.2, rfl, ?_, ?_, hhdr, ?_, hbuf.packed.le, hpre⟩⟩
    · rw [hpkt, hfrom]
    · rw [hpkt, hdest]
    · exact hbuf.packed.mail.symm
  · rw [hstop hbox] at ha
    cases ha

lemma inHand_putting (b box : ℕ) (l : Letter) :
    (Worker.putting box l).inHand b = if box = b then [l] else [] := rfl

lemma Good.deliver (h : Good d o) {junk : Vector Byte MaxMailSize} (he : o.deliver numBoxes junk = some (.ok o')) :
    Good d o' := by
  rw [Office.deliver] at he
  have hcount := h.count
  have hoffered := h.offered
  have hletters := h.letters
  cases hw : o.worker with
  | waiting =>
    rw [hw] at he hcount hoffered hletters
    dsimp only at he
    split at he
    · cases he
    · rename_i hpos
      cases he
      refine ⟨h.boxes, h.buffered, h.empty, ?_, h.fifo, hoffered, hletters, h.received, h.receipts⟩
      simp only [Worker.isWoken, Bool.false_eq_true, if_false, if_true] at hcount ⊢
      omega
  | woken =>
    rw [hw] at he hcount hoffered hletters
    obtain ⟨⟨box, mail, buffer, network⟩, harrive, he⟩ := bind_eq_ok.mp (Option.some.inj he)
    cases he
    -- the worker has passed its `P`, so that a packet waits
    obtain ⟨x, hx⟩ : ∃ x, o.buffered = some x := by
      cases hb : o.buffered with
      | some x => exact ⟨x, rfl⟩
      | none => simp [hb, Worker.isWoken] at hcount
    obtain ⟨rfl, hidle, hgenuine⟩ := (h.buffered x hx).arrive harrive
    rw [hx] at hcount
    have hfifo := h.fifo
    rw [hx] at hfifo
    refine ⟨h.boxes, fun y hy => (by cases hy), fun _ => hidle, ?_, ?_, ?_, ?_, h.received, h.receipts⟩
    · simp only [Worker.isWoken, if_true, Option.toList_some, List.length_singleton] at hcount
      simp only [Worker.isWoken, Bool.false_eq_true, if_false, Option.toList_none, List.length_nil]
      omega
    · rw [hx, hfifo]
      simp
    · intro b
      have hb := hoffered b
      simp only [Worker.inHand, List.append_nil] at hb
      simp only [inHand_putting, hx, Option.toList_some, List.filter_append, List.map_append, hb]
      congr 1
      by_cases hbox : x.2.mailHdr.toAddr.toNat = b
      · simp [toBox, hbox]
      · simp [toBox, hbox]
    · intro b l hl
      simp only [inHand_putting, hx, List.mem_append] at hl
      obtain hl | hl := hl
      · exact hletters b l (by simp [hl])
      · split at hl
        · rw [List.mem_singleton.mp hl]
          exact hgenuine _
        · cases hl
  | putting box letter =>
    rw [hw] at he
    obtain ⟨b, henter, rfl⟩ := map_map_ok he
    obtain ⟨-, list, -, hb⟩ := Box.enter_ok henter
    refine h.change ((h.boxes box).enter (fun h0 => absurd rfl h0) henter)
      (by rw [hw]; rfl) ?_ ?_ ?_ (fun _ _ => rfl)
      (h.receipts box)
    · rw [hw, hb]
      simp [Worker.inHand]
    · intro b' hne
      rw [hw]
      simp [Worker.inHand, hne.symm]
    · intro t ht
      rw [hb]
      exact h.received box t ht
  | appending box =>
    rw [hw] at he
    dsimp only at he
    split at he
    · rename_i item b hleave
      cases he
      have hgood := (h.boxes box).leave hleave
      obtain ⟨-, -, rfl⟩ := Box.leave_ok hleave
      refine h.change hgood (by rw [hw]; rfl) (by rw [hw]; rfl)
          (fun _ _ => by rw [hw]; rfl) ?_ (fun _ _ => rfl) (h.receipts box)
      intro t ht
      dsimp only
      rw [Function.update_of_ne ht]
      exact h.received box t ht
    · obtain ⟨b, hgo, rfl⟩ := map_map_ok he
      obtain ⟨-, -, list, -, hb⟩ := Box.go_ok hgo
      exact h.setBox ((h.boxes box).go hgo) (by rw [hb]) (fun _ _ => by rw [hb])

end Office

def Packet.origin (x : Packet) : Word × Posting := (x.source, x.posting)

namespace Net

variable {σ σ' : Net} {numBoxes : Word → ℤ} {host source dest : Word}

structure Good (σ : Net) : Prop where
  sending (host : Word) : Sending.Good host (σ.sending host)
  office (host : Word) : Office.Good host (σ.office host)
  carried (source dest : Word) : σ.carried source dest ≤ (σ.log source dest).length
  socket (dest : Word) (x : Packet) (hx : x ∈ σ.socket dest) :
    x.posting.pktHdr.toAddr = dest ∧ Sending.Conveyed x.source x.posting x.wire
  order (source dest : Word) :
    ((((σ.office dest).arrived ++ (σ.socket dest).map Packet.origin).filter (·.1 = source)).map Prod.snd).Sublist
      (((σ.log source dest).take (σ.carried source dest)).map Prod.fst)

lemma Good.send (h : Good σ) {t : ℕ} {k : SendChoice} {s : Sending.State}
    (hm : (σ.sending host).Moves (Sending.client host).code (t, k) s) :
    Good { σ with sending := Function.update σ.sending host s } := by
  have hlog : ∀ source dest, σ.log source dest <+:
      log source dest { σ with sending := Function.update σ.sending host s } := by
    intro source dest
    rw [log, log]
    dsimp only
    rcases eq_or_ne source host with rfl | hne
    · rw [Function.update_self]
      exact (Sending.handed_prefix hm).filter _
    · rw [Function.update_of_ne hne]
  refine ⟨?_, h.office, ?_, h.socket, ?_⟩
  · intro host'
    dsimp only
    rcases eq_or_ne host' host with rfl | hne
    · rw [Function.update_self]
      exact (h.sending host').step hm
    · rw [Function.update_of_ne hne]
      exact h.sending host'
  · intro source dest
    exact (h.carried source dest).trans (hlog source dest).length_le
  · intro source dest
    obtain ⟨more, hmore⟩ := hlog source dest
    rw [← hmore, List.take_append_of_le_length (h.carried source dest)]
    exact h.order source dest

lemma Good.carry (h : Good σ) {lost : Bool} (he : σ.carry source dest lost = some σ') : Good σ' := by
  rw [Net.carry] at he
  obtain ⟨x, hx, rfl⟩ := Option.map_eq_some_iff.mp he
  have hlt := (List.getElem?_eq_some_iff.mp hx).1
  have hmem : x ∈ σ.log source dest := List.mem_of_getElem? hx
  obtain ⟨hhanded, hdest⟩ := List.mem_filter.mp hmem
  refine ⟨h.sending, h.office, ?_, ?_, ?_⟩
  · intro s d
    change Function.update σ.carried source _ s d ≤ (σ.log s d).length
    rcases eq_or_ne s source with rfl | hs
    · rw [Function.update_self]
      rcases eq_or_ne d dest with rfl | hd
      · rw [Function.update_self]
        omega
      · rw [Function.update_of_ne hd]
        exact h.carried s d
    · rw [Function.update_of_ne hs]
      exact h.carried s d
  · intro d y hy
    cases lost with
    | true => exact h.socket d y hy
    | false =>
      dsimp only at hy
      rw [if_neg Bool.false_ne_true] at hy
      rcases eq_or_ne d dest with rfl | hd
      · rw [Function.update_self, List.mem_append, List.mem_singleton] at hy
        obtain hy | rfl := hy
        · exact h.socket d y hy
        · exact ⟨of_decide_eq_true hdest, (h.sending source).conveyed x hhanded⟩
      · rw [Function.update_of_ne hd] at hy
        exact h.socket d y hy
  · intro s d
    have hold := h.order s d
    change (List.map Prod.snd _).Sublist (((σ.log s d).take (Function.update σ.carried source _ s d)).map Prod.fst)
    by_cases hsd : s = source ∧ d = dest
    · obtain ⟨rfl, rfl⟩ := hsd
      rw [Function.update_self, Function.update_self, List.take_add_one, hx, List.map_append]
      cases lost with
      | true => exact hold.trans (List.sublist_append_left _ _)
      | false =>
        simp only [Bool.false_eq_true, if_false, Function.update_self,
            List.map_append, ← List.append_assoc, List.filter_append]
        simp only [List.filter_append, List.map_append] at hold
        refine hold.append ?_
        simp [Packet.origin]
    · have hcarried : Function.update σ.carried source
          (Function.update (σ.carried source) dest (σ.carried source dest + 1)) s d = σ.carried s d := by
        rcases eq_or_ne s source with rfl | hs
        · rw [Function.update_self, Function.update_of_ne fun hd => hsd ⟨rfl, hd⟩]
        · rw [Function.update_of_ne hs]
      rw [hcarried]
      cases lost with
      | true => exact hold
      | false =>
        simp only [Bool.false_eq_true, if_false]
        rcases eq_or_ne d dest with rfl | hd
        · have hs : source ≠ s := fun hs => hsd ⟨hs.symm, rfl⟩
          simpa [Packet.origin, hs] using hold
        · rw [Function.update_of_ne hd]
          exact hold

lemma Good.interrupt_cases (h : Good σ) (he : σ.interrupt host = .ok σ') : σ' = σ ∨
    ∃ x rest network, σ.socket host = x :: rest ∧ (σ.office host).buffered = none ∧
    Office.Waits host x.origin network ∧
      σ' = { σ with
        socket := Function.update σ.socket host rest
        office := Function.update σ.office host { σ.office host with
          network := network
          messageAvailable := (σ.office host).messageAvailable + 1
          buffered := some x.origin
          arrived := (σ.office host).arrived ++ [x.origin] } } := by
  rw [Net.interrupt] at he
  cases hb : (σ.office host).buffered with
  | some x =>
    obtain ⟨-, hdr, -, -, hbuf⟩ := (h.office host).buffered x hb
    have hne : (σ.office host).network.inHdr.length ≠ 0 := by
      intro hzero
      have hlen := hbuf.packed.packet
      rw [← hbuf.inHdr, hzero] at hlen
      change 0 = _ at hlen
      omega
    have hcall : (σ.office host).network.callBack host ((σ.socket host).map Packet.wire) =
        .ok ((σ.office host).network, (σ.socket host).map Packet.wire, false) := by
      rw [NetworkInput.callBack.eq_def, if_pos hne]
    rw [hcall] at he
    left
    cases he
    rfl
  | none =>
    have hidle := (h.office host).empty hb
    cases hs : σ.socket host with
    | nil =>
      have hcall : (σ.office host).network.callBack host ([].map Packet.wire) =
          .ok ((σ.office host).network, [].map Packet.wire, false) := by
        rw [NetworkInput.callBack.eq_def, if_neg (not_not.mpr hidle)]
        rfl
      rw [hs, hcall] at he
      left
      cases he
      rfl
    | cons x rest =>
      obtain ⟨hdest, hto, hdr, hdr₁, hdr₂, hwire⟩ := h.socket host x (by simp [hs])
      obtain ⟨network, hcall, hbuf⟩ := hwire.callBack hidle (hdr₁.trans hdest) (rest.map Packet.wire)
      rw [hs, List.map_cons, hcall] at he
      right
      refine ⟨x, rest, network, rfl, rfl, ⟨hto, hdr, hdr₂, hdr₁.trans hdest, hbuf⟩, ?_⟩
      cases he
      rfl

lemma Good.interrupt (h : Good σ) (he : σ.interrupt host = .ok σ') : Good σ' := by
  obtain rfl | ⟨x, rest, network, hs, hb, hwaits, rfl⟩ := h.interrupt_cases he
  · exact h
  have ho := h.office host
  refine ⟨h.sending, ?_, h.carried, ?_, ?_⟩
  · intro d
    dsimp only
    rcases eq_or_ne d host with rfl | hd
    · rw [Function.update_self]
      refine ⟨ho.boxes, ?_, fun hn => (by cases hn), ?_, ?_, ho.offered, ho.letters, ho.received, ho.receipts⟩
      · intro y hy
        obtain rfl := Option.some.inj hy
        exact hwaits
      · have hcount := ho.count
        rw [hb] at hcount
        simp only [Option.toList_none, List.length_nil] at hcount
        simp only [Option.toList_some, List.length_singleton]
        omega
      · have hfifo := ho.fifo
        rw [hb, Option.toList_none, List.append_nil] at hfifo
        rw [hfifo]
        rfl
    · rw [Function.update_of_ne hd]
      exact h.office d
  · intro d y hy
    dsimp only at hy
    rcases eq_or_ne d host with rfl | hd
    · rw [Function.update_self] at hy
      exact h.socket d y (by simp [hs, hy])
    · rw [Function.update_of_ne hd] at hy
      exact h.socket d y hy
  · intro s d
    change (List.map Prod.snd _).Sublist (((σ.log s d).take (σ.carried s d)).map Prod.fst)
    have hold := h.order s d
    dsimp only
    rcases eq_or_ne d host with rfl | hd
    · rw [Function.update_self, Function.update_self]
      rw [hs, List.map_cons] at hold
      rw [List.append_assoc, List.singleton_append]
      exact hold
    · rw [Function.update_of_ne hd, Function.update_of_ne hd]
      exact hold

lemma deliver_arrived {o o' : Office} {n : ℤ} {junk : Vector Byte MaxMailSize}
    (he : o.deliver n junk = some (.ok o')) :
    o'.arrived = o.arrived ∧ ((o'.network = o.network ∧ o'.buffered = o.buffered) ∨
      o'.fetched = o.fetched ++ o.buffered.toList) := by
  rw [Office.deliver] at he
  cases hw : o.worker with
  | waiting =>
    rw [hw] at he
    dsimp only at he
    split at he
    · cases he
    · cases he
      exact ⟨rfl, .inl ⟨rfl, rfl⟩⟩
  | woken =>
    rw [hw] at he
    obtain ⟨⟨box, mail, buffer, network⟩, -, he⟩ := bind_eq_ok.mp (Option.some.inj he)
    cases he
    exact ⟨rfl, .inr rfl⟩
  | putting box letter =>
    rw [hw] at he
    obtain ⟨b, -, rfl⟩ := Office.map_map_ok he
    exact ⟨rfl, .inl ⟨rfl, rfl⟩⟩
  | appending box =>
    rw [hw] at he
    dsimp only at he
    split at he
    · cases he
      exact ⟨rfl, .inl ⟨rfl, rfl⟩⟩
    · obtain ⟨b, -, rfl⟩ := Office.map_map_ok he
      exact ⟨rfl, .inl ⟨rfl, rfl⟩⟩

lemma receive_arrived {o o' : Office} {n : ℤ} {box t : ℕ} (he : o.receive n box t = some (.ok o')) :
    o'.arrived = o.arrived ∧ o'.network = o.network ∧ o'.buffered = o.buffered := by
  rw [Office.receive] at he
  split at he
  · cases he
  split at he
  · split at he
    · obtain ⟨receipt, -, he⟩ := bind_eq_ok.mp (Option.some.inj he)
      cases he
      exact ⟨rfl, rfl, rfl⟩
    · cases he
    · obtain ⟨b, -, rfl⟩ := Office.map_map_ok he
      exact ⟨rfl, rfl, rfl⟩
  · split at he
    · obtain ⟨b, -, rfl⟩ := Office.map_map_ok he
      exact ⟨rfl, rfl, rfl⟩
    · cases he

lemma Good.setOffice (h : Good σ) {o : Office} (ho : Office.Good host o)
    (harrived : o.arrived = (σ.office host).arrived) :
    Good (σ.setOffice host o) := by
  refine ⟨h.sending, ?_, h.carried, h.socket, ?_⟩
  · intro d
    rw [Net.setOffice]
    dsimp only
    rcases eq_or_ne d host with rfl | hd
    · rw [Function.update_self]
      exact ho
    · rw [Function.update_of_ne hd]
      exact h.office d
  · intro s d
    change (List.map Prod.snd _).Sublist (((σ.log s d).take (σ.carried s d)).map Prod.fst)
    rw [Net.setOffice]
    dsimp only
    rcases eq_or_ne d host with rfl | hd
    · rw [Function.update_self, harrived]
      exact h.order s d
    · rw [Function.update_of_ne hd]
      exact h.order s d

lemma Good.step {op : NetOp} (h : Good σ) (hm : σ.Moves numBoxes op σ') : Good σ' := by
  cases op with
  | send host t k =>
    obtain ⟨s, hs, rfl⟩ := Office.map_map_ok hm
    exact h.send hs
  | carry source dest lost =>
    obtain ⟨σ₁, hc, hσ⟩ := Option.map_eq_some_iff.mp hm
    cases hσ
    exact h.carry hc
  | interrupt host => exact h.interrupt (Option.some.inj hm)
  | deliver host junk =>
    obtain ⟨o, ho, rfl⟩ := Office.map_map_ok hm
    exact h.setOffice ((h.office host).deliver ho) (deliver_arrived ho).1
  | receive host box t =>
    obtain ⟨o, ho, rfl⟩ := Office.map_map_ok hm
    exact h.setOffice ((h.office host).receive ho) (receive_arrived ho).1

lemma Good.keeps {op : NetOp} (h : Good σ) (hm : σ.Moves numBoxes op σ') {x : Word × Posting}
    (hx : (σ.office host).buffered = some x) :
    ((σ'.office host).network = (σ.office host).network ∧ (σ'.office host).buffered = some x) ∨
      (∃ junk, op = .deliver host junk) ∧ (σ'.office host).fetched = (σ.office host).fetched ++ [x] := by
  cases op with
  | send host' t k =>
    obtain ⟨s, hs, rfl⟩ := Office.map_map_ok hm
    exact .inl ⟨rfl, hx⟩
  | carry source dest lost =>
    obtain ⟨σ₁, hc, hσ⟩ := Option.map_eq_some_iff.mp hm
    cases hσ
    obtain ⟨y, -, rfl⟩ := Option.map_eq_some_iff.mp hc
    exact .inl ⟨rfl, hx⟩
  | interrupt host' =>
    obtain rfl | ⟨y, rest, network, -, hb, -, rfl⟩ := h.interrupt_cases (Option.some.inj hm)
    · exact .inl ⟨rfl, hx⟩
    · have hne : host ≠ host' := by
        rintro rfl
        rw [hb] at hx
        cases hx
      dsimp only
      rw [Function.update_of_ne hne]
      exact .inl ⟨rfl, hx⟩
  | deliver host' junk =>
    obtain ⟨o, ho, rfl⟩ := Office.map_map_ok hm
    rw [Net.setOffice]
    dsimp only
    rcases eq_or_ne host host' with rfl | hne
    · rw [Function.update_self]
      obtain ⟨-, ⟨hn, hb⟩ | hf⟩ := deliver_arrived ho
      · exact .inl ⟨hn, hb.trans hx⟩
      · exact .inr ⟨⟨junk, rfl⟩, by rw [hf, hx]; rfl⟩
    · rw [Function.update_of_ne hne]
      exact .inl ⟨rfl, hx⟩
  | receive host' box t =>
    obtain ⟨o, ho, rfl⟩ := Office.map_map_ok hm
    rw [Net.setOffice]
    dsimp only
    rcases eq_or_ne host host' with rfl | hne
    · rw [Function.update_self]
      obtain ⟨-, hn, hb⟩ := receive_arrived ho
      exact .inl ⟨hn, hb.trans hx⟩
    · rw [Function.update_of_ne hne]
      exact .inl ⟨rfl, hx⟩

variable {senders : Word → ℕ} {receivers : Word → ℕ → ℕ} {junk : Word → NetworkInput × Vector Byte MaxPacketSize}

lemma Good.start : Good (Net.start senders receivers junk) := by
  refine ⟨fun host => .start host _, ?_, fun _ _ => Nat.zero_le _,
      fun d x hx => (by cases hx), fun s d => List.Sublist.slnil⟩
  intro host
  refine ⟨fun b => .start Letter _, fun x hx => (by cases hx),
    fun _ => rfl, rfl, rfl, fun b => rfl, fun b l hl => (by cases hl),
    fun b t _ => rfl, fun b t x hx => (by cases hx)⟩

lemma Good.run (h : Run numBoxes (Net.start senders receivers junk) σ) : Good σ :=
  h.invariant (fun _ _ _ hg _ hm => hg.step hm) Good.start

/-- The calls of `Send` of a machine that have called the network, for a box of a machine, in order. -/
def postedTo (source dest : Word) (box : ℕ) (σ : Net) : List Posting :=
  (σ.sending source).memory.data.posted.filter fun p => p.pktHdr.toAddr = dest ∧ p.mailHdr.toAddr.toNat = box

def removed (dest : Word) (box : ℕ) (σ : Net) : List (ℕ × Letter) := ((σ.office dest).boxes box).removed

def sentBy (source : Word) (l : List Letter) : List Posting :=
  ((l.filterMap Letter.origin).filter (·.1 = source)).map Prod.snd

structure Delivers (dest : Word) (box : ℕ) (σ : Net) : Prop where
  /-- The letters of a sender are taken from the box in the order in which they were sent, each once. -/
  order (source : Word) : (sentBy source ((removed dest box σ).map Prod.snd)).Sublist (postedTo source dest box σ)
  /-- A thread returns the letters that it has taken, in order. -/
  returned (t : ℕ) (ht : t ≠ 0) :
    ((σ.office dest).received box t).map Prod.fst <+: ((removed dest box σ).filter (·.1 = t)).map Prod.snd
  contents (t : ℕ) (ht : t ≠ 0) (x : Letter × Receipt) (hx : x ∈ (σ.office dest).received box t) :
    ∃ source p, x.1.origin = some (source, p) ∧ p ∈ postedTo source dest box σ ∧ x.2.pktHdr.toAddr = dest ∧
      x.2.pktHdr.fromAddr = source ∧ x.2.mailHdr = p.mailHdr ∧ x.2.data = p.payload

lemma Good.order_removed (h : Good σ) (source dest : Word) (box : ℕ) :
    (sentBy source ((removed dest box σ).map Prod.snd)).Sublist (postedTo source dest box σ) := by
  have ho := h.office dest
  have hb := ho.boxes box
  -- the letters of the box are those that the worker has fetched for it
  have hprefix : (removed dest box σ).map Prod.snd <+: ((σ.office dest).boxes box).offered ++
      (σ.office dest).worker.inHand box := by
    rw [removed, hb.removed, hb.offered, hb.fifo, List.append_assoc, List.append_assoc]
    exact List.prefix_append _ _
  have hfetched : ((removed dest box σ).map Prod.snd).filterMap Letter.origin <+:
      (σ.office dest).fetched.filter (Office.toBox box) := by
    have hmap :
        ((((σ.office dest).boxes box).offered ++ (σ.office dest).worker.inHand box).map Letter.origin).filterMap
        id =
        (((σ.office dest).fetched.filter (Office.toBox box)).map some).filterMap id := by rw [ho.offered box]
    rw [List.filterMap_map, List.filterMap_map] at hmap
    have hid : (id ∘ some : Word × Posting → Option (Word × Posting)) = some := rfl
    rw [hid, List.filterMap_some] at hmap
    rw [← hmap]
    exact hprefix.filterMap _
  have hsource : sentBy source ((removed dest box σ).map Prod.snd) <+:
      ((((σ.office dest).fetched).filter (·.1 = source)).map Prod.snd).filter fun p => p.mailHdr.toAddr.toNat =
      box := by
    rw [List.filter_map, List.filter_filter]
    rw [sentBy]
    have hcomm := (hfetched.filter (·.1 = source)).map Prod.snd
    rw [List.filter_filter] at hcomm
    convert hcomm using 4
    rw [Bool.and_comm]
    rfl
  have harrived : ((((σ.office dest).fetched).filter (·.1 = source)).map Prod.snd).Sublist
      (((σ.log source dest).take (σ.carried source dest)).map Prod.fst) := by
    refine List.Sublist.trans ?_ (h.order source dest)
    rw [ho.fifo, List.append_assoc, List.filter_append, List.map_append]
    exact List.sublist_append_left _ _
  have hlog : ((σ.log source dest).map Prod.fst).Sublist
      ((σ.sending source).memory.data.posted.filter fun p => p.pktHdr.toAddr = dest) := by
    have hhanded := (h.sending source).handed.filter fun p => p.pktHdr.toAddr = dest
    rw [List.filter_map] at hhanded
    exact hhanded
  have hall := hsource.sublist.trans ((harrived.trans (((List.take_sublist _ _).map _).trans hlog)).filter _)
  rw [List.filter_filter] at hall
  rw [postedTo]
  convert hall using 3
  rw [Bool.decide_and, Bool.and_comm]

lemma Good.delivers (h : Good σ) (dest : Word) (box : ℕ) : Delivers dest box σ := by
  have ho := h.office dest
  have hb := ho.boxes box
  have hreturned : ∀ t ≠ 0, ((σ.office dest).received box t).map Prod.fst <+:
      ((removed dest box σ).filter (·.1 = t)).map Prod.snd := by
    intro t ht
    rw [ho.received box t ht, removed, hb.returned t]
    exact List.prefix_append _ _
  refine ⟨fun source => h.order_removed source dest box, hreturned, ?_⟩
  intro t ht x hx
  have hmem : x.1 ∈ (removed dest box σ).map Prod.snd := by
    have hfirst := (hreturned t ht).subset (List.mem_map_of_mem hx)
    exact List.map_subset _ (List.filter_subset_self _) hfirst
  have hoffered : x.1 ∈ ((σ.office dest).boxes box).offered ++ (σ.office dest).worker.inHand box := by
    rw [removed, hb.removed] at hmem
    rw [hb.offered, hb.fifo]
    simp [hmem]
  obtain ⟨source, p, horigin, hfrom, hto, hhdr, hdata⟩ :=
    (ho.letters box x.1 hoffered).get (ho.receipts box t x hx)
  refine ⟨source, p, horigin, ?_, hto, hfrom, hhdr, hdata⟩
  apply (h.order_removed source dest box).subset
  rw [sentBy, List.mem_map]
  exact ⟨(source, p), List.mem_filter.mpr ⟨List.mem_filterMap.mpr ⟨x.1, hmem, horigin⟩, decide_eq_true rfl⟩, rfl⟩

/-- In every state of every run: the `ASSERT` of `NetworkOutput::Send` holds wherever a thread calls it, and
`sendBusy` is not set; a packet that waits in the network is left alone until the worker fetches it; the calls of
`Send` of a thread reach the network in their order; and `Receive` delivers. -/
theorem post_office_delivers (h : Run numBoxes (Net.start senders receivers junk) σ) :
    (∀ host, (σ.sending host).memory.data.sendBusy = false ∧
      ∀ (t : ℕ) (d : Draft), (goals (σ.sending host))[t]? = some (MonitorPoint.inside (.network d)) →
      ∀ junk', ∃ buffer,
        NetworkOutput.send host (σ.sending host).memory.data.sendBusy junk' d.hdr d.buffer.toList = .ok buffer) ∧
    (∀ op σ', σ.Moves numBoxes op σ' → ∀ host x, (σ.office host).buffered = some x →
      Office.Waits host x (σ.office host).network ∧
      (((σ'.office host).network = (σ.office host).network ∧ (σ'.office host).buffered = some x) ∨
        (∃ junk, op = .deliver host junk) ∧ (σ'.office host).fetched = (σ.office host).fetched ++ [x])) ∧
    (∀ source t, (σ.sending source).memory.data.posted.filter (·.thread = t) <+:
      (σ.sending source).memory.data.calls.filter (·.thread = t)) ∧
    ∀ dest box, Delivers dest box σ := by
  have hg := Good.run h
  refine ⟨?_, ?_, ?_, hg.delivers⟩
  · intro host
    have hbusy := (hg.sending host).sendBusy
    refine ⟨hbusy, ?_⟩
    intro t d ht junk'
    rw [hbusy]
    exact ((hg.sending host).drafted t _ d ht rfl).accepted junk'
  · intro op σ' hm host x hx
    exact ⟨(hg.office host).buffered x hx, hg.keeps hm hx⟩
  · intro source t
    rw [← (hg.sending source).order t]
    exact List.prefix_append _ _

def run (numBoxes : Word → ℤ) : List NetOp → Net → Option Net
  | [], σ => some σ
  | op :: ops, σ => match σ.next numBoxes op with
    | some (.ok σ') => run numBoxes ops σ'
    | _ => none

lemma run_reaches {ops : List NetOp} (h : run numBoxes ops σ = some σ') : Run numBoxes σ σ' := by
  induction ops generalizing σ with
  | nil =>
    cases h
    exact .refl
  | cons op ops ih =>
    rw [run] at h
    split at h
    · rename_i σ₁ hσ₁
      exact (Reaches.step op .refl trivial hσ₁).trans (ih h)
    · cases h

def twoMachines : Net := Net.start (fun _ => 1) (fun _ _ => 1)
  fun _ => (⟨⟨0, 0, 0⟩, Vector.replicate _ 0⟩, Vector.replicate _ 0)

def sendByte (c : Byte) : List NetOp :=
  [.send 0 1 (.send ⟨1, 7, 0⟩ ⟨0, 0, 1⟩ [c] (Vector.replicate _ 0)), .send 0 1 .interrupt, .send 0 1 .interrupt,
    .send 0 1 (.network false (Vector.replicate _ 0))]

def sentByte : List NetOp := List.replicate 2 (.send 0 0 .interrupt) ++ List.replicate 4 (.send 0 1 .interrupt)

def deliverMail : List NetOp := .interrupt 1 :: List.replicate 11 (.deliver 1 (Vector.replicate _ 0))

def receiveMail : List NetOp := List.replicate 8 (.receive 1 0 1)

def twoMails : List NetOp :=
  sendByte 5 ++ sentByte ++ sendByte 6 ++ [.carry 0 1 false, .carry 0 1 false] ++ deliverMail ++ receiveMail ++
    deliverMail ++ receiveMail

lemma twoMails_received : ∃ σ x y, run (fun _ => 1) twoMails twoMachines = some σ ∧
    (σ.office 1).received 0 1 = [x, y] ∧
    x.1.origin = some (0, ⟨1, ⟨1, 7, 0⟩, ⟨0, 0, 1⟩, [5]⟩) ∧ x.2 = ⟨⟨1, 0, 13⟩, ⟨0, 0, 1⟩, [5]⟩ ∧
    y.2 = ⟨⟨1, 0, 13⟩, ⟨0, 0, 1⟩, [6]⟩ :=
  ⟨_, _, _, rfl, rfl, rfl, rfl, rfl⟩

theorem post_office_delivers_two_mails : ∃ σ x y, run (fun _ => 1) twoMails twoMachines = some σ ∧
    (σ.office 1).received 0 1 = [x, y] ∧ x.2.data = [5] ∧ y.2.data = [6] ∧ Delivers 1 0 σ := by
  obtain ⟨σ, x, y, hσ, hxy, -, hx, hy⟩ := twoMails_received
  exact ⟨σ, x, y, hσ, hxy, by rw [hx], by rw [hy], (post_office_delivers (run_reaches hσ)).2.2.2 1 0⟩

/-- `Send` replaces the address it is given by that of its machine. -/
theorem received_from_sender : ∃ σ x source p, run (fun _ => 1) twoMails twoMachines = some σ ∧
    x ∈ (σ.office 1).received 0 1 ∧ x.1.origin = some (source, p) ∧ x.2.pktHdr.fromAddr ≠ p.pktHdr.fromAddr := by
  obtain ⟨σ, x, y, hσ, hxy, horigin, hreceipt, -⟩ := twoMails_received
  refine ⟨σ, x, 0, _, hσ, ?_, horigin, ?_⟩
  · rw [hxy]
    exact List.mem_cons_self
  · rw [hreceipt]
    decide

end Net

end NachosFileSys
