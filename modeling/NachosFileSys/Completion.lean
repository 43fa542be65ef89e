import NachosFileSys.Progress
import NachosFileSys.SynchDisk

namespace NachosFileSys

open Lib.Runs Lib.Threads Concurrent Client

namespace DiskPoint

def requested : DiskPoint → Option DiskRequest
  | .calling r _ | .request r _ => some r
  | _ => none

def outerWork : DiskPoint → ℕ
  | .calling _ _ => 9
  | .callBack => 1
  | _ => 0

def innerWork : DiskPoint → ℕ
  | .request _ _ => 7
  | .wait _ => 4
  | .leave _ => 3
  | _ => 0

end DiskPoint

def DiskRequest.Valid (r : DiskRequest) : Prop := 0 ≤ r.sector ∧ r.sector < NumSectors

def DiskChoice.Valid : DiskChoice → Prop
  | .call r => r.Valid
  | .interrupt _ => True

namespace SynchDisk

def permitted (k : DiskChoice) (d : Device) : DiskPoint → Prop
  | .idle _ => False
  | .device => ∃ i ∈ d.scheduled, k = .interrupt i
  | _ => True

def Resting (c : MonitorPoint DiskPoint) : Prop := (∃ last, c = .outside (.idle last)) ∨ c = .outside .device

def proper : MonitorPoint DiskPoint → Bool
  | .outside (.idle _) | .outside (.calling _ _) | .outside .device | .outside .callBack
  | .acquired (.request _ _) | .inside (.request _ _) | .inside (.wait _) | .inside (.leave _)
  | .releaseClear none (.idle _) | .releaseV none (.idle _) => true
  | _ => false

def handles : MonitorPoint DiskPoint → Bool
  | .outside .device | .outside .callBack => true
  | _ => false

lemma lockOnly : LockOnly client where
  wait k t l next := by cases l <;> simp [client]
  signal k t l next := by cases l <;> simp [client]
  broadcast k t l next := by cases l <;> simp [client]

lemma plain_of_proper {c : MonitorPoint DiskPoint} (h : proper c = true) : c.plain = true := by
  unfold proper at h
  split at h <;> first | rfl | cases h

structure Goes (k : DiskChoice) (c c' : MonitorPoint DiskPoint) : Prop where
  proper : proper c' = true
  handles (h : handles c = true) : SynchDisk.handles c' = true
  requested (r : DiskRequest) (h : c'.rest.requested = some r) :
    c.rest.requested = some r ∨ k = .call r ∧ ∃ last, c = .outside (.idle last)

variable {σ σ' : State} {disk : Disk} {o : ℕ × DiskChoice} {n : ℕ} {k : DiskChoice} {t : ℕ} {m m' : Memory Device}
  {c c' : MonitorPoint DiskPoint} {s : Sem Unit}

lemma request_waits {d d' : Device} {r : DiskRequest} {since : ℕ}
    {l : DiskPoint} (h : d.request r since = .ok (d', l)) :
    d'.scheduled = d.scheduled ++ [d.issued.length] ∧ ∃ call, l = .wait call := by
  unfold Device.request at h
  split at h
  · cases h
  · split at h
    · cases r <;> cases h <;> exact ⟨rfl, _, rfl⟩
    · cases h

lemma goes_of_acts (h : client.Acts k t m c m' c') (hc : proper c = true) : Goes k c c' := by
  cases h with
  | @outer l l' f d hk hf =>
    cases l with
    | idle last =>
      cases k with
      | interrupt i => cases hk
      | call r =>
        cases hk
        cases hf
        refine ⟨rfl, fun h => (by cases h), fun r' h => .inr ⟨?_, last, rfl⟩⟩
        cases h
        rfl
    | device =>
      cases k with
      | call r => cases hk
      | interrupt i =>
        cases hk
        obtain ⟨-, rfl⟩ := Prod.ext_iff.mp (Except.ok.inj hf)
        unfold Device.callBack
        split
        · exact ⟨rfl, fun _ => rfl, fun r h => (by cases h)⟩
        · exact ⟨rfl, fun _ => rfl, fun r h => (by cases h)⟩
    | calling | callBack | request | wait | leave => cases hk
  | @inner l l' f d hk hf =>
    cases l with
    | request r since =>
      cases hk
      obtain ⟨-, call, rfl⟩ := request_waits hf
      exact ⟨rfl, fun h => (by cases h), fun r h => (by cases h)⟩
    | idle | calling | wait | leave | device | callBack => cases hk
  | @release l l' hk hh =>
    cases l with
    | leave call =>
      cases hk
      exact ⟨rfl, fun h => (by cases h), fun r h => (by cases h)⟩
    | idle | calling | request | wait | device | callBack => cases hk
  | wait hk => exact absurd hk (lockOnly.wait _ _ _ _)
  | signal hk => exact absurd hk (lockOnly.signal _ _ _ _)
  | broadcast hk => exact absurd hk (lockOnly.broadcast _ _ _ _)
  | @acquired l => cases l <;> first | exact ⟨rfl, fun h => (by cases h), fun r h => .inl h⟩ | cases hc
  | @releaseClear w l =>
    cases w <;> cases l <;> first | exact ⟨rfl, fun h => (by cases h), fun r h => .inl h⟩ | cases hc
  | releaseAssert | waitNew | waitAppend | signalAssert | signalTest | signalRemove | broadcastTest => cases hc

lemma goes_of_takes (h : client.Takes k t c s c') (hc : proper c = true) (k' : DiskChoice) : Goes k' c c' := by
  cases h with
  | @acquire l l' hk =>
    cases l with
    | calling r since =>
      cases hk
      exact ⟨rfl, fun h => (by cases h), fun r h => .inl h⟩
    | idle | device => cases k <;> cases hk
    | callBack | request | wait | leave => cases hk
  | @outer l l' s hk => cases l <;> cases k <;> cases hk
  | @inner l l' s hk =>
    cases l with
    | wait call =>
      cases hk
      exact ⟨rfl, fun h => (by cases h), fun r h => (by cases h)⟩
    | idle | calling | request | leave | device | callBack => cases hk
  | waitP | waitAcquire => cases hc

lemma goes_of_raises (h : client.Raises k t c s c') (hc : proper c = true) : Goes k c c' := by
  cases h with
  | @outer l l' s hk =>
    cases l with
    | callBack =>
      cases hk
      exact ⟨rfl, fun _ => rfl, fun r h => (by cases h)⟩
    | idle | device => cases k <;> cases hk
    | calling | request | wait | leave => cases hk
  | @inner l l' s hk => cases l <;> cases hk
  | @releaseV w l =>
    cases w <;> cases l <;> first | exact ⟨rfl, fun h => (by cases h), fun r h => .inl h⟩ | cases hc
  | signalV => cases hc

structure Orderly (n : ℕ) (σ : State) : Prop where
  length : σ.points.length = n + 1
  proper : ∀ c ∈ σ.points, proper c = true
  handler : ∃ c ∈ σ.points, handles c = true
  valid : ∀ c ∈ σ.points, ∀ r, c.rest.requested = some r → r.Valid

lemma Orderly.set (h : Orderly n σ) (ho : ∀ last, c = .outside (.idle last) → k.Valid)
    (hp : σ.points[t]? = some c) (hp' : σ'.points = σ.points.set t c')
    (hg : Goes k c c') : Orderly n σ' := by
  refine ⟨by rw [hp', List.length_set]; exact h.length, forall_points_set hp' h.proper hg.proper,
    exists_point_set hp hp' h.handler hg.handles, forall_points_set hp' h.valid fun r hr => ?_⟩
  obtain hr | ⟨rfl, last, hc⟩ := hg.requested r hr
  · exact h.valid c (List.mem_of_getElem? hp) r hr
  · exact ho last hc

lemma Orderly.turn (h : Orderly n σ) (ho : ∀ last, σ.points[o.1]? = some (.outside (.idle last)) → o.2.Valid)
    (ht : Turn client.code o σ σ') : Orderly n σ' := by
  have hnew : ∀ {c}, σ.points[o.1]? = some c → ∀ last, c = .outside (.idle last) → o.2.Valid := by
    rintro c hp last rfl
    exact ho last hp
  have hproper : ∀ {c}, σ.points[o.1]? = some c → SynchDisk.proper c = true :=
    fun hp => h.proper _ (List.mem_of_getElem? hp)
  cases ht with
  | act hp hc hf hp' => exact h.set (hnew hp) hp hp' (goes_of_acts (acts_of_code hc hf) (hproper hp))
  | sleep hp hc hz hm hp' =>
    exact ⟨by rw [hp']; exact h.length, by rw [hp']; exact h.proper,
        by rw [hp']; exact h.handler, by rw [hp']; exact h.valid⟩
  | take hp hc hpos hm hp' => exact h.set (hnew hp) hp hp' (goes_of_takes (takes_of_code hc) (hproper hp) o.2)
  | raise hp hc hm hp' => exact h.set (hnew hp) hp hp' (goes_of_raises (raises_of_code hc) (hproper hp))

lemma Orderly.start (disk : Disk) (n : ℕ) : Orderly n (start disk n) := by
  have hpoint : ∀ c ∈ (SynchDisk.start disk n).points, c = .outside .device ∨ c = .outside (.idle none) := by
    intro c hc
    simp only [SynchDisk.start, Client.start, Concurrent.start, points, List.map_cons, List.map_replicate,
      ThreadState.point, List.mem_cons, List.mem_replicate] at hc
    exact hc.imp_right And.right
  refine ⟨?_, fun c hc => ?_, ⟨.outside .device, ?_, rfl⟩, fun c hc r hr => ?_⟩
  · simp [SynchDisk.start, Client.start, Concurrent.start, points]
  · obtain rfl | rfl := hpoint c hc <;> rfl
  · simp [SynchDisk.start, Client.start, Concurrent.start, points, ThreadState.point]
  · obtain rfl | rfl := hpoint c hc <;> cases hr

lemma consumes : Consumes client permitted DiskPoint.outerWork DiskPoint.innerWork fun d =>
  2 * d.scheduled.length where
  outer_act {k t l l' f d d'} hk hf hok := by
    cases l with
    | idle last => exact absurd hok id
    | device =>
      obtain ⟨i, hi, rfl⟩ := hok
      cases hk
      obtain ⟨rfl, rfl⟩ := Prod.ext_iff.mp (Except.ok.inj hf)
      have hlen := List.length_erase_of_mem hi
      have hpos := List.length_pos_of_mem hi
      simp only [Device.callBack, if_pos hi, DiskPoint.outerWork, hlen]
      omega
    | calling | callBack | request | wait | leave => cases hk
  acquire {k t l l'} hk := by
    cases l with
    | calling r since =>
      cases hk
      exact (by decide : 7 + 1 < 9)
    | idle | device => cases k <;> cases hk
    | callBack | request | wait | leave => cases hk
  outer_p {k t l l' s} hk := by cases l <;> cases k <;> cases hk
  outer_v {k t l l' s} hk := by
    cases l with
    | callBack =>
      cases hk
      decide
    | idle | device => cases k <;> cases hk
    | calling | request | wait | leave => cases hk
  inner_act {k t l l' f d d'} hk hf := by
    cases l with
    | request r since =>
      cases hk
      obtain ⟨hsched, call, rfl⟩ := request_waits hf
      simp only [hsched, List.length_append, List.length_singleton, DiskPoint.innerWork]
      omega
    | idle | calling | wait | leave | device | callBack => cases hk
  release {k t l l'} hk := by
    cases l with
    | leave call =>
      cases hk
      exact (by decide : 0 + 2 < 3)
    | idle | calling | request | wait | device | callBack => cases hk
  inner_p {k t l l' s} hk := by
    cases l with
    | wait call =>
      cases hk
      exact (by decide : 3 < 4)
    | idle | calling | request | leave | device | callBack => cases hk
  inner_v {k t l l' s} hk := by cases l <;> cases hk

variable {v₀ : Unit → ℤ}

lemma not_fails (hs : Sane client v₀ σ) (hg : Serving disk σ) (ho : Orderly n σ) (o : ℕ × DiskChoice) (e : Fault) :
    ¬Fails client o σ e := by
  rintro ⟨l, f, hf, ⟨hp, hk⟩ | ⟨hp, hk⟩⟩
  · cases l with
    | idle | device => 
      cases hk' : o.2 <;> rw [hk'] at hk <;> cases hk
      cases hf
    | calling | callBack | request | wait | leave => cases hk
  · cases l with
    | request r since =>
      cases hk
      have hvalid := ho.valid _ (List.mem_of_getElem? hp) r rfl
      have hidle : σ.memory.data.active = false := by
        cases ha : σ.memory.data.active with
        | false => rfl
        | true => exact absurd (hg.quiet hs hp).1 (hg.active.mp ha)
      rw [DiskRequest.Valid] at hvalid
      simp only [Device.request, hidle, Bool.false_eq_true, if_false, if_pos hvalid] at hf
      cases r <;> cases hf
    | idle | calling | wait | leave | device | callBack => cases hk

lemma handler_moves (hs : Sane client v₀ σ) (hg : Serving disk σ) (ho : Orderly n σ)
    (hdue : 0 < σ.memory.data.scheduled.length + σ.points.countP callsBack) :
    ∃ o σ', Permits permitted σ o ∧ σ.Moves client.code o σ' := by
  apply hs.handler_moves (not_fails hs hg ho) .device .callBack (.interrupt 0)
    (fun k t => ⟨(), .device, rfl⟩) trivial
  · intro k t
    cases k with
    | call r => exact .inl rfl
    | interrupt i => exact .inr ⟨_, rfl⟩
  rcases Nat.eq_zero_or_pos (σ.points.countP callsBack) with hnone | hpos
  · obtain ⟨c, hc, hh⟩ := ho.handler
    obtain ⟨i, hi⟩ := List.exists_mem_of_length_pos (by omega : 0 < σ.memory.data.scheduled.length)
    unfold handles at hh
    split at hh
    · exact .inr ⟨hc, .interrupt i, ⟨i, hi, rfl⟩, fun t => Option.some_ne_none _⟩
    · exact .inl hc
    · cases hh
  · obtain ⟨c, hc, hb⟩ := List.countP_pos_iff.mp hpos
    have hproper := ho.proper c hc
    have hrest : c = .outside .callBack := by
      unfold proper at hproper
      split at hproper <;> first | rfl | cases hb | cases hproper
    subst hrest
    exact .inl hc

structure Serviced (disk : Disk) (n : ℕ) (σ : State) : Prop where
  sane : Sane client (fun _ => 0) σ
  serving : Serving disk σ
  orderly : Orderly n σ

lemma Serviced.step (h : Serviced disk n σ)
    (ho : ∀ last, σ.points[o.1]? = some (.outside (.idle last)) → o.2.Valid)
    (hm : σ.Moves client.code o σ') : Serviced disk n σ' :=
  ⟨h.sane.step hm, h.serving.step h.sane hm, h.orderly.turn ho (h.sane.steady.turn hm)⟩

def Finished (σ : State) : Prop := (∀ c ∈ σ.points, Resting c) ∧ σ.memory.data.scheduled = []

lemma Serviced.live (h : Serviced disk n σ) : Finished σ ∨ ∃ o σ', Permits permitted σ o ∧
    σ.Moves client.code o σ' := by
  obtain ⟨hs, hg, ho⟩ := h
  have hbalance := hg.balance
  have hnonneg := hs.nonneg (.other ())
  have hrests : ∀ c, Resting c → c.holds = false ∧ ∀ k t s next, client.code k t c ≠ some (.p s next) := by
    rintro c (⟨last, rfl⟩ | rfl)
    · exact ⟨rfl, fun k t s next hc => (by cases k <;> cases hc)⟩
    · exact ⟨rfl, fun k t s next hc => (by cases k <;> cases hc)⟩
  have hcode : ∀ t c, σ.points[t]? = some c → Resting c ∨
      ∃ k, (∀ l, c = .outside l → permitted k σ.memory.data l) ∧ client.code k t c ≠ none := by
    intro t c hp
    have hproper := ho.proper c (List.mem_of_getElem? hp)
    unfold proper at hproper
    split at hproper
    · exact .inl (.inl ⟨_, rfl⟩)
    · exact .inr ⟨.interrupt 0, fun l hl => (by cases hl; trivial), by simp [code, client]⟩
    · exact .inl (.inr rfl)
    · exact .inr ⟨.interrupt 0, fun l hl => (by cases hl; trivial), by simp [code, client]⟩
    all_goals first
      | exact absurd hproper Bool.false_ne_true
      | exact .inr ⟨.interrupt 0, fun l hl => (by cases hl), by simp [code, client]⟩
  have hother : ∀ t c s next k, σ.points[t]? = some c → client.code k t c = some (.p (.other s) next) →
      σ.value (.other s) = 0 → ∃ o σ', Permits permitted σ o ∧ σ.Moves client.code o σ' := by
    intro t c s next k hp hc hz
    have hwaits : waits c = true := by
      cases takes_of_code hc with
      | @outer l l' s hk => cases l <;> cases k <;> cases hk
      | @inner l l' s hk =>
        cases l with
        | wait call => rfl
        | idle | calling | request | leave | device | callBack => cases hk
    have hpos : 0 < σ.points.countP waits := List.countP_pos_iff.mpr ⟨c, List.mem_of_getElem? hp, hwaits⟩
    have hvalue : σ.value (.other ()) = 0 := hz
    apply handler_moves hs hg ho
    omega
  obtain hrest | hmove :=
    hs.live (fun c hc => plain_of_proper (ho.proper c hc)) (not_fails hs hg ho) hrests hcode hother
  · refine .inl ⟨hrest, List.length_eq_zero_iff.mp ?_⟩
    have hwaits : σ.points.countP waits = 0 := by
      rw [List.countP_eq_zero]
      intro c hc
      obtain ⟨last, rfl⟩ | rfl := hrest c hc <;> simp [waits, MonitorPoint.rest, DiskPoint.waiting]
    omega
  · exact .inr hmove

/-- In every state of every run in which threads ask for sectors that the disk has: if no further call begins, then
whichever thread runs and whenever the interrupts come, all the calls under way have returned and all interrupts
have been delivered after at most 23 moves for each thread and the handler. -/
theorem synchDisk_completes (disk : Disk) (n : ℕ) {σ : State}
    (h : Reaches (fun o σ σ' => σ.Moves client.code o σ') (fun _ o => o.2.Valid) (start disk n) σ) :
    Within (fun o σ σ' => σ.Moves client.code o σ') (Permits permitted) Finished (23 * (n + 1)) σ := by
  have hI : Serviced disk n σ :=
    h.invariant (I := Serviced disk n) (fun o σ σ' hσ ho hm => hσ.step (fun _ _ => ho) hm)
    ⟨Sane.start _ (fun _ => le_refl 0) _, Serving.start disk n, Orderly.start disk n⟩
  refine consumes.within lockOnly (I := Serviced disk n) (fun o σ σ' hσ ho hm => hσ.step (fun last hp => ?_) hm)
    (fun σ hσ => hσ.sane) (fun σ hσ c hc => plain_of_proper (hσ.orderly.proper c hc)) (fun σ hσ => hσ.live) hI ?_
  · exact absurd (ho _ hp) id
  · have hrank : ∀ c ∈ σ.points, MonitorPoint.rank DiskPoint.outerWork DiskPoint.innerWork c ≤ 9 := by
      intro c hc
      have hproper := hI.orderly.proper c hc
      unfold proper at hproper
      split at hproper <;> first | exact Nat.le_of_ble_eq_true rfl | exact absurd hproper Bool.false_ne_true
    have hle := workLeft_le (fun m : Memory Device => 2 * m.data.scheduled.length) hrank
    have hbalance := hI.serving.balance
    have hwaits := hI.serving.waits_le hI.sane
    have hnonneg := hI.sane.nonneg (.other ())
    have hlength := hI.orderly.length
    rw [hlength] at hle
    refine hle.trans ?_
    omega

theorem synchDisk_completes_write : ∃ σ : State,
    (start Kernel.blank.disk 2).Moves client.code (1, .call (.write 3 (Vector.replicate 128 7))) σ ∧
      Within (fun o σ σ' => σ.Moves client.code o σ') (Permits permitted) Finished 69 σ := by
  obtain ⟨σ, hm⟩ : ∃ σ : State,
      (start Kernel.blank.disk 2).Moves client.code (1, .call (.write 3 (Vector.replicate 128 7))) σ := ⟨_, rfl⟩
  have hvalid : (DiskRequest.write 3 (Vector.replicate 128 7)).Valid := ⟨by decide, by decide⟩
  exact ⟨σ, hm, synchDisk_completes Kernel.blank.disk 2
      (.step (1, .call (.write 3 (Vector.replicate 128 7))) .refl hvalid hm)⟩

end SynchDisk

end NachosFileSys
