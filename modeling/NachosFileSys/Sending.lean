import NachosFileSys.Goals
import NachosFileSys.Post

/-! `PostOfficeOutput` over `NetworkOutput`: threads that call `Send`, and the interrupt that the network schedules
for every packet. -/

namespace NachosFileSys

open Lib.Runs Lib.Threads Lib.Results Lib.Bytes Concurrent Client

structure Posting where
  thread : ℕ
  pktHdr : PacketHeader
  mailHdr : MailHeader
  data : List Byte
  deriving DecidableEq

def Posting.payload (p : Posting) : List Byte := p.data.take p.mailHdr.length.toNat

structure Draft where
  posting : Posting
  hdr : PacketHeader
  buffer : Vector Byte MaxPacketSize

/-- `NetworkOutput`, with the interrupts that are scheduled. The calls of `PostOfficeOutput::Send`, those that have
called the network, and the packets that went into a socket are kept in order. -/
structure Outgoing where
  sendBusy : Bool
  scheduled : ℕ
  calls : List Posting
  posted : List Posting
  handed : List (Posting × Vector Byte MaxWireSize)

inductive SendPoint
  | idle
  | calling (d : Draft)
  | network (d : Draft)
  | wait
  | leave
  -- the interrupt handler, before and after `sendBusy = FALSE`
  | device
  | callBack

inductive SendChoice
  | send (pktHdr : PacketHeader) (mailHdr : MailHeader) (data : List Byte) (junk : Vector Byte MaxPacketSize)
  -- whether the packet is lost
  | network (lost : Bool) (junk : Vector Byte MaxWireSize)
  | interrupt

namespace Sending

def transmit (hostName : Word) (d : Draft) (lost : Bool) (junk : Vector Byte MaxWireSize) (n : Outgoing) :
    Except Fault (Outgoing × SendPoint) := do
  let buffer ← NetworkOutput.send hostName n.sendBusy junk d.hdr d.buffer.toList
  let n := { n with scheduled := n.scheduled + 1, posted := n.posted ++ [d.posting] }
  pure (if lost then n else { n with handed := n.handed ++ [(d.posting, buffer)] }, .wait)

def callBack (n : Outgoing) : Outgoing × SendPoint :=
  if n.scheduled = 0 then (n, .device) else ({ n with sendBusy := false, scheduled := n.scheduled - 1 }, .callBack)

def client (hostName : Word) : Client Unit Outgoing SendChoice SendPoint where
  outer k t l := match l, k with
    | .idle, .send pktHdr mailHdr data junk => some (.act fun n => do
      let (hdr, buffer) ← PostOfficeOutput.concatenate hostName junk pktHdr mailHdr data
      let p : Posting := ⟨t, pktHdr, mailHdr, data⟩
      pure ({ n with calls := n.calls ++ [p] }, .calling ⟨p, hdr, buffer⟩))
    | .calling d, _ => some (.acquire (.network d))
    | .device, .interrupt => some (.act fun n => .ok (callBack n))
    | .callBack, _ => some (.v () .device)
    | _, _ => none
  inner k _ l := match l, k with
    | .network d, .network lost junk => some (.act fun n => transmit hostName d lost junk n)
    | .wait, _ => some (.p () .leave)
    | .leave, _ => some (.release .idle)
    | _, _ => none

abbrev State := Client.World Unit Outgoing SendPoint

def start (n : ℕ) : State := Client.start ⟨false, 0, [], [], []⟩ (fun _ => 0) (.device :: List.replicate n .idle)

def drafted (c : MonitorPoint SendPoint) : Option Draft :=
  match c.rest with
  | .calling d | .network d => some d
  | _ => none

def drafts (c : MonitorPoint SendPoint) : List Posting := ((drafted c).map Draft.posting).toList

def Drafted (hostName : Word) (t : ℕ) (d : Draft) : Prop :=
  d.posting.thread = t ∧ ∃ junk, PostOfficeOutput.concatenate hostName junk d.posting.pktHdr d.posting.mailHdr
    d.posting.data = .ok (d.hdr, d.buffer)

def Conveyed (hostName : Word) (p : Posting) (wire : Vector Byte MaxWireSize) : Prop :=
  0 ≤ p.mailHdr.toAddr.toInt ∧ ∃ hdr : PacketHeader, hdr.toAddr = p.pktHdr.toAddr ∧ hdr.fromAddr = hostName ∧
    OnWire hdr p.mailHdr p.payload wire

structure Good (hostName : Word) (σ : State) : Prop where
  sendBusy : σ.memory.data.sendBusy = false
  order (t : ℕ) : σ.memory.data.posted.filter (·.thread = t) ++ (σ.goals[t]?.map drafts).getD [] =
    σ.memory.data.calls.filter (·.thread = t)
  handed : (σ.memory.data.handed.map Prod.fst).Sublist σ.memory.data.posted
  conveyed (x : Posting × Vector Byte MaxWireSize) (hx : x ∈ σ.memory.data.handed) : Conveyed hostName x.1 x.2
  drafted (t : ℕ) (c : MonitorPoint SendPoint) (d : Draft) (hc : σ.goals[t]? = some c) (hd : drafted c = some d) :
    Drafted hostName t d

variable {hostName : Word} {σ σ' : State} {t : ℕ} {k : SendChoice} {d : Draft} {g g' : MonitorPoint SendPoint}

inductive SendGoes (hostName : Word) (t : ℕ) (σ σ' : State) : Prop
  | pass {g g' : MonitorPoint SendPoint} (hg : σ.goals[t]? = some g) (hg' : σ'.goals = σ.goals.set t g')
      (hd : drafted g' = drafted g)
      (hbusy : σ'.memory.data.sendBusy = false ∨ σ'.memory.data.sendBusy = σ.memory.data.sendBusy)
      (hcalls : σ'.memory.data.calls = σ.memory.data.calls)
      (hposted : σ'.memory.data.posted = σ.memory.data.posted)
      (hhanded : σ'.memory.data.handed = σ.memory.data.handed)
  | call {g g' : MonitorPoint SendPoint} {d : Draft} (hg : σ.goals[t]? = some g)
      (hg' : σ'.goals = σ.goals.set t g')
      (hnone : drafted g = none) (hd : drafted g' = some d) (hdraft : Drafted hostName t d)
      (hdata : σ'.memory.data = { σ.memory.data with calls := σ.memory.data.calls ++ [d.posting] })
  | transmit {g g' : MonitorPoint SendPoint} {d : Draft} {lost : Bool}
      {junk : Vector Byte MaxWireSize} {l : SendPoint}
      (hg : σ.goals[t]? = some g) (hg' : σ'.goals = σ.goals.set t g')
      (hd : drafted g = some d) (hnone : drafted g' = none)
      (ht : Sending.transmit hostName d lost junk σ.memory.data = .ok (σ'.memory.data, l))

lemma sendGoes_of_rest (hg : σ.goals[t]? = some g) (hd : σ'.memory.data = σ.memory.data)
    (hg' : σ'.goals = σ.goals.set t g')
    (hrest : g'.rest = g.rest) : SendGoes hostName t σ σ' :=
  .pass hg hg' (by rw [drafted, drafted, hrest]) (.inr (by rw [hd])) (by rw [hd]) (by rw [hd]) (by rw [hd])

lemma sendGoes (h : σ.Moves (client hostName).code (t, k) σ') : SendGoes hostName t σ σ' := by
  cases goes h with
  | again ht hm hg =>
    have hgoal := goals_getElem? ht
    obtain ⟨hlt, hget⟩ := List.getElem?_eq_some_iff.mp hgoal
    refine sendGoes_of_rest hgoal (by rw [hm]) ?_ rfl
    rw [hg, ← hget]
    exact (List.set_getElem_self hlt).symm
  | act ht hc hf hg =>
    have hgoal := goals_getElem? ht
    generalize hm : σ'.memory = m at hf
    cases acts_of_code hc hf with
    | outer hk hf' =>
      rename_i l l' f n
      cases l with
      | idle =>
        cases k with
        | send pktHdr mailHdr data junk =>
          cases hk
          obtain ⟨⟨hdr, buffer⟩, hcat, hf'⟩ := bind_eq_ok.mp hf'
          cases hf'
          exact .call hgoal hg rfl rfl ⟨rfl, junk, hcat⟩ (by rw [hm])
        | _ => cases hk
      | device =>
        cases k with
        | interrupt =>
          cases hk
          obtain ⟨hn, hl⟩ := Prod.ext_iff.mp (Except.ok.inj hf')
          dsimp only at hn hl
          subst hn hl
          by_cases hz : σ.memory.data.scheduled = 0
          · refine .pass hgoal hg ?_ ?_ ?_ ?_ ?_ <;>
                simp [hm, callBack, hz, drafted, MonitorPoint.rest, ThreadState.goal]
          · refine .pass hgoal hg ?_ ?_ ?_ ?_ ?_ <;>
                simp [hm, callBack, hz, drafted, MonitorPoint.rest, ThreadState.goal]
        | _ => cases hk
      | _ => cases k <;> cases hk
    | inner hk hf' =>
      rename_i l l' f n
      cases l with
      | network d =>
        cases k with
        | network lost junk =>
          cases hk
          have hl : l' = .wait := by
            obtain ⟨buffer, -, hf'⟩ := bind_eq_ok.mp hf'
            cases hf'
            rfl
          subst hl
          exact .transmit hgoal hg rfl rfl (by rw [hm]; exact hf')
        | _ => cases hk
      | _ => cases k <;> cases hk
    | release hk hh =>
      rename_i l l'
      cases l <;> cases k <;> cases hk <;>
        exact .pass hgoal hg rfl (.inr (by rw [hm])) (by rw [hm]) (by rw [hm]) (by rw [hm])
    | wait hk hh =>
      rename_i l l'
      cases l <;> cases k <;> cases hk
    | signal hk hh =>
      rename_i l l'
      cases l <;> cases k <;> cases hk
    | broadcast hk =>
      rename_i l l'
      cases l <;> cases k <;> cases hk
    | signalTest =>
      refine sendGoes_of_rest hgoal (by rw [hm]) hg ?_
      split
      · exact MonitorPoint.rest_signalled _ _
      · rfl
    | broadcastTest => exact sendGoes_of_rest hgoal (by rw [hm]) hg (by split <;> rfl)
    | _ => exact sendGoes_of_rest hgoal (by rw [hm]) hg rfl
  | p ht hc hm hg =>
    have hgoal := goals_getElem? ht
    cases takes_of_code hc with
    | acquire hk =>
      rename_i l l'
      cases l <;> cases k <;> cases hk <;>
        exact .pass hgoal hg rfl (.inr (by rw [hm])) (by rw [hm]) (by rw [hm]) (by rw [hm])
    | outer hk =>
      rename_i l l' s
      cases l <;> cases k <;> cases hk
    | inner hk =>
      rename_i l l' s
      cases l <;> cases k <;> cases hk <;>
        exact .pass hgoal hg rfl (.inr (by rw [hm])) (by rw [hm]) (by rw [hm]) (by rw [hm])
    | waitP => exact sendGoes_of_rest hgoal (by rw [hm]) hg rfl
    | waitAcquire => exact sendGoes_of_rest hgoal (by rw [hm]) hg rfl
  | v ht hc hm hg =>
    have hgoal := goals_getElem? ht
    cases raises_of_code hc with
    | outer hk =>
      rename_i l l' s
      cases l <;> cases k <;> cases hk <;>
        exact .pass hgoal hg rfl (.inr (by rw [hm])) (by rw [hm]) (by rw [hm]) (by rw [hm])
    | inner hk =>
      rename_i l l' s
      cases l <;> cases k <;> cases hk
    | releaseV => exact sendGoes_of_rest hgoal (by rw [hm]) hg (MonitorPoint.rest_released _ _)
    | signalV => exact sendGoes_of_rest hgoal (by rw [hm]) hg (MonitorPoint.rest_signalled _ _)

lemma transmit_ok {n n' : Outgoing} {lost : Bool} {junk : Vector Byte MaxWireSize} {l : SendPoint}
    (h : transmit hostName d lost junk n = .ok (n', l)) : n'.sendBusy = n.sendBusy ∧ n'.calls = n.calls ∧
      n'.posted = n.posted ++ [d.posting] ∧
      ∃ buffer, NetworkOutput.send hostName n.sendBusy junk d.hdr d.buffer.toList = .ok buffer ∧
        (n'.handed = n.handed ∨ n'.handed = n.handed ++ [(d.posting, buffer)]) := by
  obtain ⟨buffer, hb, h⟩ := bind_eq_ok.mp h
  cases lost with
  | false =>
    cases h
    exact ⟨rfl, rfl, rfl, buffer, hb, .inr rfl⟩
  | true =>
    cases h
    exact ⟨rfl, rfl, rfl, buffer, hb, .inl rfl⟩

lemma Drafted.conveyed (h : Drafted hostName t d) {sendBusy : Bool} {junk buffer : Vector Byte MaxWireSize}
    (hs : NetworkOutput.send hostName sendBusy junk d.hdr d.buffer.toList = .ok buffer) :
    Conveyed hostName d.posting buffer := by
  obtain ⟨-, junk', hcat⟩ := h
  have hwire := onWire_of_sent hcat hs
  obtain ⟨hto, -, hhdr, -⟩ := PostOfficeOutput.concatenate_inv hcat
  exact ⟨hto, d.hdr, by rw [hhdr], by rw [hhdr], hwire⟩

/-- The `ASSERT` of `NetworkOutput::Send` is about `sendBusy` alone for what
`PostOfficeOutput::Send` passes to it. -/
lemma Drafted.accepted (h : Drafted hostName t d) (junk : Vector Byte MaxWireSize) :
    ∃ buffer, NetworkOutput.send hostName false junk d.hdr d.buffer.toList = .ok buffer := by
  obtain ⟨-, junk', hcat⟩ := h
  obtain ⟨-, -, hhdr, hpacked, -⟩ := PostOfficeOutput.concatenate_inv hcat
  have hlen := hpacked.packet
  have hle := hpacked.le
  have hmax : MaxMailSize = 40 := rfl
  have hpacket : MaxPacketSize = 52 := rfl
  have hwire : MaxWireSize = 64 := rfl
  have hfrom : d.hdr.fromAddr = hostName := by rw [hhdr]
  have hsize := d.buffer.length_toList
  obtain ⟨b₁, h₁⟩ := bcopy_ok d.hdr.toBytes junk 0 (by rw [Header.length_toBytes]; omega)
  have hbytes : bytesAt d.buffer.toList 0 d.hdr.length.toNat = .ok (d.buffer.toList.take d.hdr.length.toNat) :=
    bytesAt_eq_ok.mpr ⟨by omega, rfl⟩
  obtain ⟨b₂, h₂⟩ := bcopy_ok (d.buffer.toList.take d.hdr.length.toNat) b₁ 12 (by
    rw [List.length_take]
    omega)
  refine ⟨b₂, ?_⟩
  rw [NetworkOutput.send, check_of ⟨rfl, by omega, by omega, hfrom⟩, h₁, hbytes]
  exact h₂

lemma drafts_eq (h : drafted g' = drafted g) : drafts g' = drafts g := by rw [drafts, drafts, h]

lemma drafts_of_none (h : drafted g = none) : drafts g = [] := by rw [drafts, h]; rfl

lemma drafts_of_some (h : drafted g = some d) : drafts g = [d.posting] := by rw [drafts, h]; rfl

lemma Good.drafted_set (h : Good hostName σ) (hg' : σ'.goals = σ.goals.set t g')
    (hnew : ∀ d, Sending.drafted g' = some d → Drafted hostName t d)
    (u : ℕ) (c : MonitorPoint SendPoint) (d : Draft)
    (hc : σ'.goals[u]? = some c) (hd : Sending.drafted c = some d) : Drafted hostName u d := by
  rw [hg'] at hc
  rcases eq_or_ne t u with rfl | hne
  · rw [List.getElem?_set_self'] at hc
    cases hx : σ.goals[t]? with
    | none => simp [hx] at hc
    | some x =>
      simp only [hx, Option.map_eq_map, Option.map_some, Function.const_apply, Option.some.injEq] at hc
      exact hnew d (hc ▸ hd)
  · rw [List.getElem?_set_ne hne] at hc
    exact h.drafted u c d hc hd

lemma Good.step (h : Good hostName σ) (hm : σ.Moves (client hostName).code (t, k) σ') : Good hostName σ' := by
  cases sendGoes hm with
  | pass hg hg' hd hbusy hcalls hposted hhanded =>
    have hlt := (List.getElem?_eq_some_iff.mp hg).1
    refine ⟨?_, ?_, ?_, ?_, h.drafted_set hg' fun d hd' => h.drafted t _ d hg (hd ▸ hd')⟩
    · exact hbusy.elim id fun he => he.trans h.sendBusy
    · intro u
      rw [hposted, hcalls, ← h.order u, hg']
      rcases eq_or_ne t u with rfl | hne
      · rw [List.getElem?_set_self hlt, hg, Option.map_some, Option.map_some, drafts_eq hd]
      · rw [List.getElem?_set_ne hne]
    · rw [hhanded, hposted]
      exact h.handed
    · rw [hhanded]
      exact h.conveyed
  | call hg hg' hnone hd hdraft hdata =>
    rename_i g g' d
    have hlt := (List.getElem?_eq_some_iff.mp hg).1
    refine ⟨by rw [hdata]; exact h.sendBusy, ?_, by rw [hdata]; exact h.handed, by rw [hdata]; exact h.conveyed,
      h.drafted_set hg' fun d' hd' => ?_⟩
    · intro u
      rw [hdata, List.filter_append, ← h.order u, hg']
      rcases eq_or_ne t u with rfl | hne
      · rw [List.getElem?_set_self hlt, hg, Option.map_some,
            Option.map_some, drafts_of_some hd, drafts_of_none hnone]
        simp [hdraft.1]
      · simp [List.getElem?_set_ne hne, hdraft.1, hne]
    · obtain rfl := Option.some.inj (hd.symm.trans hd')
      exact hdraft
  | transmit hg hg' hd hnone ht =>
    rename_i g g' d lost junk l
    have hlt := (List.getElem?_eq_some_iff.mp hg).1
    have hdraft := h.drafted t g d hg hd
    obtain ⟨hbusy, hcalls, hposted, buffer, hsend, hhanded⟩ := transmit_ok ht
    refine ⟨hbusy.trans h.sendBusy, ?_, ?_, ?_, h.drafted_set hg' fun d' hd' => ?_⟩
    · intro u
      rw [hposted, hcalls, List.filter_append, ← h.order u, hg']
      rcases eq_or_ne t u with rfl | hne
      · rw [List.getElem?_set_self hlt, hg, Option.map_some,
            Option.map_some, drafts_of_some hd, drafts_of_none hnone]
        simp [hdraft.1]
      · simp [List.getElem?_set_ne hne, hdraft.1, hne]
    · rw [hposted]
      obtain hsame | hmore := hhanded
      · rw [hsame]
        exact h.handed.trans (List.sublist_append_left _ _)
      · rw [hmore, List.map_append]
        exact h.handed.append (List.Sublist.refl _)
    · intro x hx
      obtain hsame | hmore := hhanded
      · exact h.conveyed x (hsame ▸ hx)
      · rw [hmore, List.mem_append, List.mem_singleton] at hx
        obtain hx | rfl := hx
        · exact h.conveyed x hx
        · exact hdraft.conveyed hsend
    · rw [hnone] at hd'
      cases hd'

lemma handed_prefix (hm : σ.Moves (client hostName).code (t, k) σ') :
    σ.memory.data.handed <+: σ'.memory.data.handed := by
  cases sendGoes hm with
  | pass hg hg' hd hbusy hcalls hposted hhanded => rw [hhanded]
  | call hg hg' hnone hd hdraft hdata => rw [hdata]
  | transmit hg hg' hd hnone ht =>
    obtain ⟨-, -, -, buffer, -, hsame | hmore⟩ := transmit_ok ht
    · rw [hsame]
    · rw [hmore]
      exact List.prefix_append _ _

lemma Good.start (hostName : Word) (n : ℕ) : Good hostName (start n) := by
  have hgoals : (Sending.start n).goals = .outside .device :: List.replicate n (.outside .idle) := by
    rw [Sending.start, Client.start, goals_start, List.map_cons, List.map_replicate]
  have hnone : ∀ c ∈ (Sending.start n).goals, Sending.drafted c = none := by
    intro c hc
    rw [hgoals, List.mem_cons, List.mem_replicate] at hc
    obtain rfl | ⟨-, rfl⟩ := hc <;> rfl
  refine ⟨rfl, ?_, List.Sublist.refl _, ?_, ?_⟩
  · intro t
    cases hc : (Sending.start n).goals[t]? with
    | none => rfl
    | some c =>
      simp [drafts_of_none (hnone c (List.mem_of_getElem? hc)), Sending.start, Client.start, Concurrent.start]
  · intro x hx
    cases hx
  · intro t c d hc hd
    rw [hnone c (List.mem_of_getElem? hc)] at hd
    cases hd

end Sending

end NachosFileSys
