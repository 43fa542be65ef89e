import NachosFileSys.Conditions

/-! `SynchDisk` over the simulated `Disk`: threads that call `ReadSector` and `WriteSector`, and the device,
whose interrupt handler runs between any two statements of theirs, once for every request. -/

namespace NachosFileSys

open Lib.Runs Lib.Threads Concurrent Client

inductive DiskRequest
  | read (sector : ℤ)
  | write (sector : ℤ) (data : Sector)

def DiskRequest.sector : DiskRequest → ℤ
  | .read sector => sector
  | .write sector _ => sector

/-- The device. A request is known by its number; those in `scheduled` wait for their interrupt. The requests
issued and the interrupts delivered so far are kept in order. -/
structure Device where
  contents : Disk
  active : Bool
  scheduled : List ℕ
  issued : List DiskRequest
  delivered : List ℕ

structure Served where
  request : DiskRequest
  start : ℕ
  index : ℕ
  data : Option Sector

inductive DiskPoint
  -- between two calls
  | idle (last : Option Served)
  | calling (request : DiskRequest) (start : ℕ)
  | request (request : DiskRequest) (start : ℕ)
  | wait (call : Served)
  | leave (call : Served)
  -- the interrupt handler, before and after `active = FALSE`
  | device
  | callBack

inductive DiskChoice
  | call (request : DiskRequest)
  | interrupt (index : ℕ)

namespace Device

/-- `Disk::ReadRequest` and `Disk::WriteRequest`: the transfer is done at once, the interrupt comes later. -/
def request (r : DiskRequest) (start : ℕ) (d : Device) : Except Fault (Device × DiskPoint) :=
  if d.active then .error .assertion
  else if 0 ≤ r.sector ∧ r.sector < NumSectors then
    let issued (contents : Disk) (data : Option Sector) : Device × DiskPoint :=
      (⟨contents, true, d.scheduled ++ [d.issued.length], d.issued ++ [r], d.delivered⟩,
        .wait ⟨r, start, d.issued.length, data⟩)
    match r with
    | .read sector => .ok (issued d.contents (some (d.contents sector)))
    | .write sector data => .ok (issued (Function.update d.contents sector data) none)
  else .error .assertion

/-- `Disk::CallBack`, up to the call of `SynchDisk::CallBack`; nothing happens where no such interrupt has
been scheduled. -/
def callBack (i : ℕ) (d : Device) : Device × DiskPoint :=
  if i ∈ d.scheduled then
    ({ d with active := false, scheduled := d.scheduled.erase i, delivered := d.delivered ++ [i] }, .callBack)
  else (d, .device)

end Device

namespace SynchDisk

def client : Client Unit Device DiskChoice DiskPoint where
  outer k _ l := match l, k with
    | .idle _, .call r => some (.act fun d => .ok (d, .calling r d.issued.length))
    | .calling r since, _ => some (.acquire (.request r since))
    | .device, .interrupt i => some (.act fun d => .ok (d.callBack i))
    | .callBack, _ => some (.v () .device)
    | _, _ => none
  inner _ _ l := match l with
    | .request r since => some (.act fun d => d.request r since)
    | .wait call => some (.p () (.leave call))
    | .leave call => some (.release (.idle (some call)))
    | _ => none

abbrev State := Client.World Unit Device DiskPoint

def start (contents : Disk) (n : ℕ) : State :=
  Client.start ⟨contents, false, [], [], []⟩ (fun _ => 0) (.device :: List.replicate n (.idle none))

def lastWrite (requests : List DiskRequest) (sector : ℤ) : Option Sector :=
  requests.reverse.findSome? fun
    | .read _ => none
    | .write s data => if s = sector then some data else none

def answer (contents : Disk) (before : List DiskRequest) : DiskRequest → Option Sector
  | .read sector => some ((lastWrite before sector).getD (contents sector))
  | .write _ _ => none

lemma lastWrite_append_read (requests : List DiskRequest) (s sector : ℤ) :
    lastWrite (requests ++ [.read s]) sector = lastWrite requests sector := by
  simp [lastWrite]

lemma lastWrite_append_write (requests : List DiskRequest) (s sector : ℤ) (data : Sector) :
    lastWrite (requests ++ [.write s data]) sector = if s = sector then
    some data else lastWrite requests sector := by
  simp only [lastWrite, List.reverse_append, List.reverse_singleton, List.singleton_append, List.findSome?_cons]
  split <;> simp_all

end SynchDisk

namespace DiskPoint

def served : DiskPoint → Option Served
  | .idle last => last
  | .wait call | .leave call => some call
  | _ => none

def waiting : DiskPoint → Option Served
  | .wait call => some call
  | _ => none

def finished : DiskPoint → Option Served
  | .idle last => last
  | .leave call => some call
  | _ => none

def started : DiskPoint → Option ℕ
  | .calling _ since | .request _ since => some since
  | _ => none

def inCallBack : DiskPoint → Bool
  | .callBack => true
  | _ => false

end DiskPoint

namespace SynchDisk

def waits (c : MonitorPoint DiskPoint) : Bool := c.rest.waiting.isSome

def callsBack (c : MonitorPoint DiskPoint) : Bool := c.rest.inCallBack

def within : MonitorPoint DiskPoint → Bool
  | .inside _ => true
  | _ => false

structure Serving (disk : Disk) (σ : State) : Prop where
  contents (sector : ℤ) :
    σ.memory.data.contents sector = (lastWrite σ.memory.data.issued sector).getD (disk sector)
  active : σ.memory.data.active = true ↔ σ.memory.data.scheduled ≠ []
  balance : (σ.memory.data.scheduled.length : ℤ) + σ.points.countP callsBack + σ.value (.other ()) =
    σ.points.countP waits
  bounded (i : ℕ) (h : i ∈ σ.memory.data.delivered) : i < σ.memory.data.issued.length
  queued (i : ℕ) (h : i ∈ σ.memory.data.scheduled) : i < σ.memory.data.issued.length
  within (t : ℕ) (c : MonitorPoint DiskPoint) (h : σ.points[t]? = some c) (hc : waits c = true) : within c = true
  served (t : ℕ) (c : MonitorPoint DiskPoint) (x : Served) (h : σ.points[t]? = some c)
    (hc : c.rest.served = some x) : x.start ≤ x.index ∧ σ.memory.data.issued[x.index]? = some x.request ∧
      x.data = answer disk (σ.memory.data.issued.take x.index) x.request
  waiting (t : ℕ) (c : MonitorPoint DiskPoint) (x : Served) (h : σ.points[t]? = some c)
    (hc : c.rest.waiting = some x) :
    x.index ∈ σ.memory.data.scheduled ∨ x.index ∈ σ.memory.data.delivered
  finished (t : ℕ) (c : MonitorPoint DiskPoint) (x : Served) (h : σ.points[t]? = some c)
    (hc : c.rest.finished = some x) : x.index ∈ σ.memory.data.delivered
  started (t : ℕ) (c : MonitorPoint DiskPoint) (i : ℕ) (h : σ.points[t]? = some c)
    (hc : c.rest.started = some i) : i ≤ σ.memory.data.issued.length

variable {σ σ' : State} {disk : Disk} {o : ℕ × DiskChoice} {t : ℕ} {k : DiskChoice} {c c' : MonitorPoint DiskPoint}

def Placed (disk : Disk) (issued : List DiskRequest) (x : Served) : Prop :=
  x.start ≤ x.index ∧ issued[x.index]? = some x.request ∧ x.data = answer disk (issued.take x.index) x.request

lemma Placed.append {issued : List DiskRequest} {x : Served} (h : Placed disk issued x) (more : List DiskRequest) :
    Placed disk (issued ++ more) x := by
  obtain ⟨hle, hget, hdata⟩ := h
  have hlt : x.index < issued.length := (List.getElem?_eq_some_iff.mp hget).1
  refine ⟨hle, by rw [List.getElem?_append_left hlt, hget], ?_⟩
  rw [List.take_append_of_le_length hlt.le]
  exact hdata

lemma Serving.set (h : Serving disk σ) (hp : σ.points[t]? = some c) (hp' : σ'.points = σ.points.set t c')
    {m : List DiskRequest} (hissued : σ'.memory.data.issued = σ.memory.data.issued ++ m)
    (hdelivered : ∀ i ∈ σ.memory.data.delivered, i ∈ σ'.memory.data.delivered)
    (hkept : ∀ i ∈ σ.memory.data.scheduled, i ∈ σ'.memory.data.scheduled ∨ i ∈ σ'.memory.data.delivered)
    (hcontents : ∀ sector, σ'.memory.data.contents sector =
      (lastWrite σ'.memory.data.issued sector).getD (disk sector))
    (hactive : σ'.memory.data.active = true ↔ σ'.memory.data.scheduled ≠ [])
    (hbalance : (σ'.memory.data.scheduled.length : ℤ) + σ'.points.countP callsBack + σ'.value (.other ()) =
      σ'.points.countP waits)
    (hbounded : ∀ i ∈ σ'.memory.data.delivered, i < σ'.memory.data.issued.length)
    (hqueued : ∀ i ∈ σ'.memory.data.scheduled, i < σ'.memory.data.issued.length)
    (hwithin : waits c' = true → SynchDisk.within c' = true)
    (hserved : ∀ x, c'.rest.served = some x → Placed disk σ'.memory.data.issued x)
    (hwaiting : ∀ x, c'.rest.waiting = some x →
      x.index ∈ σ'.memory.data.scheduled ∨ x.index ∈ σ'.memory.data.delivered)
    (hfinished : ∀ x, c'.rest.finished = some x → x.index ∈ σ'.memory.data.delivered)
    (hstarted : ∀ i, c'.rest.started = some i → i ≤ σ'.memory.data.issued.length) : Serving disk σ' := by
  have hlt : t < σ.points.length := (List.getElem?_eq_some_iff.mp hp).1
  have hcases : ∀ {u : ℕ} {d : MonitorPoint DiskPoint}, σ'.points[u]? = some d →
      d = c' ∨ σ.points[u]? = some d := by
    intro u d hu
    rcases eq_or_ne u t with rfl | hne
    · left
      simpa [hp', hlt, eq_comm] using hu
    · right
      rwa [hp', List.getElem?_set_ne hne.symm] at hu
  refine ⟨hcontents, hactive, hbalance, hbounded, hqueued, ?_, ?_, ?_, ?_, ?_⟩
  · intro u d hu hd
    obtain rfl | hu := hcases hu
    · exact hwithin hd
    · exact h.within u d hu hd
  · intro u d x hu hd
    obtain rfl | hu := hcases hu
    · exact hserved x hd
    · rw [hissued]
      exact Placed.append (h.served u d x hu hd) m
  · intro u d x hu hd
    obtain rfl | hu := hcases hu
    · exact hwaiting x hd
    · obtain hx | hx := h.waiting u d x hu hd
      · exact hkept _ hx
      · exact .inr (hdelivered _ hx)
  · intro u d x hu hd
    obtain rfl | hu := hcases hu
    · exact hfinished x hd
    · exact hdelivered _ (h.finished u d x hu hd)
  · intro u d i hu hd
    obtain rfl | hu := hcases hu
    · exact hstarted i hd
    · have := h.started u d i hu hd
      rw [hissued, List.length_append]
      omega

lemma Serving.frame (h : Serving disk σ) (hp : σ.points[t]? = some c) (hp' : σ'.points = σ.points.set t c')
    (hd : σ'.memory.data = σ.memory.data) (hv : σ'.value (.other ()) = σ.value (.other ()))
    (hcall : c'.rest.inCallBack = c.rest.inCallBack) (hwait : c'.rest.waiting = c.rest.waiting)
    (hserved : ∀ x, c'.rest.served = some x → c.rest.served = some x)
    (hfinished : ∀ x, c'.rest.finished = some x → c.rest.finished = some x)
    (hstarted : ∀ i, c'.rest.started = some i → c.rest.started = some i ∨ i ≤ σ.memory.data.issued.length)
    (hwithin : waits c' = true → SynchDisk.within c' = true) : Serving disk σ' := by
  have hbalance := h.balance
  have h₁ := Pool.countP_set (p := callsBack) hp c'
  have h₂ := Pool.countP_set (p := waits) hp c'
  have hc : callsBack c' = callsBack c := hcall
  have hw : waits c' = waits c := by rw [waits, waits, hwait]
  rw [← hp', hc] at h₁
  rw [← hp', hw] at h₂
  refine h.set hp hp' (by rw [hd, List.append_nil]) (by rw [hd]; exact fun _ hi => hi)
    (by rw [hd]; exact fun _ hi => .inl hi) (by rw [hd]; exact h.contents) (by rw [hd]; exact h.active)
    (by rw [hd, hv]; omega) (by rw [hd]; exact h.bounded) (by rw [hd]; exact h.queued) hwithin ?_ ?_ ?_ ?_
  · intro x hx
    rw [hd]
    exact h.served t c x hp (hserved x hx)
  · intro x hx
    rw [hd]
    exact h.waiting t c x hp (by rw [← hwait, hx])
  · intro x hx
    rw [hd]
    exact h.finished t c x hp (hfinished x hx)
  · intro i hi
    rw [hd]
    obtain hi | hi := hstarted i hi
    · exact h.started t c i hp hi
    · exact hi

lemma Serving.pass (h : Serving disk σ) (hp : σ.points[t]? = some c) (hp' : σ'.points = σ.points.set t c')
    (hd : σ'.memory.data = σ.memory.data) (hv : σ'.value (.other ()) = σ.value (.other ()))
    (hrest : c'.rest = c.rest) (hout : SynchDisk.within c = false) : Serving disk σ' := by
  refine h.frame hp hp' hd hv (by rw [hrest]) (by rw [hrest]) (by rw [hrest]; exact fun _ hx => hx)
    (by rw [hrest]; exact fun _ hx => hx) (by rw [hrest]; exact fun _ hi => .inl hi) fun hw => ?_
  have hc : waits c = true := by rwa [waits, ← hrest]
  rw [h.within t c hp hc] at hout
  cases hout

variable {v₀ : Unit → ℤ}

lemma Serving.holds (h : Serving disk σ) (hc : c ∈ σ.points) (hw : waits c = true) : c.holds = true := by
  obtain ⟨t, ht⟩ := List.mem_iff_getElem?.mp hc
  have hwithin := h.within t c ht hw
  cases c <;> first | rfl | cases hwithin

lemma Serving.waits_le (h : Serving disk σ) (hs : Sane client v₀ σ) : σ.points.countP waits ≤ 1 := by
  have hle := List.countP_mono_left (p := waits) (q := MonitorPoint.holds) (l := σ.points)
    fun _ hc hw => h.holds hc hw
  have := hs.locked.token
  have := hs.nonneg .lock
  omega

lemma Serving.quiet (h : Serving disk σ) (hs : Sane client v₀ σ) {r : DiskRequest} {since : ℕ}
    (hp : σ.points[t]? = some (.inside (.request r since))) :
    σ.memory.data.scheduled = [] ∧ σ.points.countP callsBack = 0 ∧ σ.value (.other ()) = 0 := by
  have hless := Pool.countP_succ_le (p := waits) (q := MonitorPoint.holds) (fun _ hc hw => h.holds hc hw)
    (List.mem_of_getElem? hp) rfl rfl
  have := hs.locked.token
  have := hs.nonneg .lock
  have := hs.nonneg (.other ())
  have hbalance := h.balance
  exact ⟨List.length_eq_zero_iff.mp (by omega), by omega, by omega⟩

lemma contents_after {d d' : Device} {r : DiskRequest} {since : ℕ} {l : DiskPoint}
    (hd : ∀ sector, d.contents sector = (lastWrite d.issued sector).getD (disk sector))
    (hr : d.request r since = .ok (d', l)) (sector : ℤ) :
    d'.contents sector = (lastWrite d'.issued sector).getD (disk sector) := by
  unfold Device.request at hr
  split at hr
  · cases hr
  · split at hr
    · cases r with
      | read s =>
        cases hr
        rw [lastWrite_append_read]
        exact hd sector
      | write s data =>
        cases hr
        rw [lastWrite_append_write]
        by_cases hs : sector = s
        · simp [hs]
        · simp [hs, Ne.symm hs, hd sector]
    · cases hr

lemma request_ok {d d' : Device} {r : DiskRequest} {since : ℕ} {l : DiskPoint}
    (hd : ∀ sector, d.contents sector = (lastWrite d.issued sector).getD (disk sector))
    (hr : d.request r since = .ok (d', l)) :
    d'.active = true ∧ d'.scheduled = d.scheduled ++ [d.issued.length] ∧ d'.issued = d.issued ++ [r] ∧
      d'.delivered = d.delivered ∧ l = .wait ⟨r, since, d.issued.length, answer disk d.issued r⟩ := by
  unfold Device.request at hr
  split at hr
  · cases hr
  · split at hr
    · cases r with
      | read s =>
        cases hr
        exact ⟨rfl, rfl, rfl, rfl, by rw [hd s]; rfl⟩
      | write s data =>
        cases hr
        exact ⟨rfl, rfl, rfl, rfl, rfl⟩
    · cases hr

lemma Serving.request (h : Serving disk σ) (hs : Sane client v₀ σ) {r : DiskRequest} {since : ℕ} {d : Device}
    {l : DiskPoint} (hp : σ.points[t]? = some (.inside (.request r since)))
    (hp' : σ'.points = σ.points.set t (.inside l)) (hr : σ.memory.data.request r since = .ok (d, l))
    (hd : σ'.memory.data = d) (hv : σ'.value = σ.value) : Serving disk σ' := by
  obtain ⟨hscheduled, hcalls, hvalue⟩ := h.quiet hs hp
  have hcontents := contents_after h.contents hr
  obtain ⟨hactive, hsched, hissued, hdelivered, rfl⟩ := request_ok h.contents hr
  have hsince := h.started t _ since hp rfl
  subst d
  rw [hscheduled, List.nil_append] at hsched
  have h₁ := Pool.countP_set (p := callsBack) hp
    (.inside (.wait ⟨r, since, σ.memory.data.issued.length, answer disk σ.memory.data.issued r⟩))
  have h₂ := Pool.countP_set (p := waits) hp
    (.inside (.wait ⟨r, since, σ.memory.data.issued.length, answer disk σ.memory.data.issued r⟩))
  have hbalance := h.balance
  rw [← hp'] at h₁ h₂
  simp only [callsBack, waits, MonitorPoint.rest, DiskPoint.inCallBack, DiskPoint.waiting, Option.isSome_none,
    Option.isSome_some, Bool.false_eq_true, if_false, if_true] at h₁ h₂
  refine h.set hp hp' hissued (by rw [hdelivered]; exact fun _ hi => hi) (by simp [hscheduled]) hcontents
    (by simp [hactive, hsched]) ?_ ?_ ?_ (fun _ => rfl) ?_ ?_ ?_ ?_
  · rw [hsched, hv]
    simp only [hscheduled, List.length_nil, List.length_singleton] at hbalance ⊢
    omega
  · intro i hi
    rw [hdelivered] at hi
    have := h.bounded i hi
    rw [hissued, List.length_append]
    omega
  · intro i hi
    rw [hsched, List.mem_singleton] at hi
    rw [hissued, List.length_append, List.length_singleton]
    omega
  · rintro x hx
    cases hx
    refine ⟨hsince, ?_, ?_⟩
    · rw [hissued]
      simp
    · rw [hissued]
      simp
  · rintro x hx
    cases hx
    left
    simp [hsched]
  · rintro x hx
    cases hx
  · rintro i hi
    cases hi

lemma Serving.interrupt (h : Serving disk σ) (hs : Sane client v₀ σ) {i : ℕ}
    (hp : σ.points[t]? = some (.outside .device)) (hp' : σ'.points = σ.points.set t (.outside .callBack))
    (hi : i ∈ σ.memory.data.scheduled)
    (hd : σ'.memory.data = { σ.memory.data with
      active := false, scheduled := σ.memory.data.scheduled.erase i, delivered := σ.memory.data.delivered ++ [i] })
    (hv : σ'.value = σ.value) : Serving disk σ' := by
  have hle := h.waits_le hs
  have hbalance := h.balance
  have := hs.nonneg (.other ())
  have hpos : 0 < σ.memory.data.scheduled.length := List.length_pos_of_mem hi
  have hlen : (σ.memory.data.scheduled.erase i).length = 0 := by
    rw [List.length_erase_of_mem hi]
    omega
  have hnil := List.length_eq_zero_iff.mp hlen
  have h₁ := Pool.countP_set (p := callsBack) hp (.outside .callBack)
  have h₂ := Pool.countP_set (p := waits) hp (.outside .callBack)
  rw [← hp'] at h₁ h₂
  simp only [callsBack, waits, MonitorPoint.rest, DiskPoint.inCallBack, DiskPoint.waiting, Option.isSome_none,
    Bool.false_eq_true, if_false, if_true] at h₁ h₂
  have hsplit : ∀ j, j ∈ σ.memory.data.scheduled → j = i := by
    intro j hj
    by_contra hne
    have : j ∈ σ.memory.data.scheduled.erase i := (List.mem_erase_of_ne hne).mpr hj
    simp [hnil] at this
  refine h.set (m := []) hp hp' (by rw [hd]; simp) (by rw [hd]; simp +contextual) ?_ (by rw [hd]; exact h.contents)
    (by rw [hd]; simp [hnil]) ?_ ?_ (by rw [hd]; simp [hnil]) (fun hc => by cases hc) (fun x hx => by cases hx)
    (fun x hx => by cases hx) (fun x hx => by cases hx) (fun x hx => by cases hx)
  · intro j hj
    right
    rw [hd, hsplit j hj]
    simp
  · rw [hd, hv]
    simp only [hlen]
    omega
  · intro j hj
    rw [hd] at hj ⊢
    rcases List.mem_append.mp hj with hj | hj
    · exact h.bounded j hj
    · obtain rfl := List.mem_singleton.mp hj
      exact h.queued j hi

lemma Serving.wake (h : Serving disk σ) (hp : σ.points[t]? = some (.outside .callBack))
    (hp' : σ'.points = σ.points.set t (.outside .device)) (hm : σ'.memory = σ.memory)
    (hv : σ'.value (.other ()) = σ.value (.other ()) + 1) : Serving disk σ' := by
  have hbalance := h.balance
  have h₁ := Pool.countP_set (p := callsBack) hp (.outside .device)
  have h₂ := Pool.countP_set (p := waits) hp (.outside .device)
  rw [← hp'] at h₁ h₂
  simp only [callsBack, waits, MonitorPoint.rest, DiskPoint.inCallBack, DiskPoint.waiting, Option.isSome_none,
    Bool.false_eq_true, if_false, if_true] at h₁ h₂
  refine h.set (m := []) hp hp' (by rw [hm]; simp) (by rw [hm]; simp) (by rw [hm]; exact fun _ hi => .inl hi)
    (by rw [hm]; exact h.contents) (by rw [hm]; exact h.active) ?_ (by rw [hm]; exact h.bounded)
    (by rw [hm]; exact h.queued) (fun hc => by cases hc) (fun x hx => by cases hx)
    (fun x hx => by cases hx) (fun x hx => by cases hx) (fun x hx => by cases hx)
  rw [hm, hv]
  omega

lemma Serving.passP (h : Serving disk σ) (hs : Sane client v₀ σ) {x : Served}
    (hp : σ.points[t]? = some (.inside (.wait x))) (hp' : σ'.points = σ.points.set t (.inside (.leave x)))
    (hm : σ'.memory = σ.memory) (hpos : 0 < σ.value (.other ()))
    (hv : σ'.value (.other ()) = σ.value (.other ()) - 1) : Serving disk σ' := by
  have hle := h.waits_le hs
  have hbalance := h.balance
  have h₁ := Pool.countP_set (p := callsBack) hp (.inside (.leave x))
  have h₂ := Pool.countP_set (p := waits) hp (.inside (.leave x))
  rw [← hp'] at h₁ h₂
  simp only [callsBack, waits, MonitorPoint.rest, DiskPoint.inCallBack, DiskPoint.waiting, Option.isSome_none,
    Option.isSome_some, Bool.false_eq_true, if_false, if_true] at h₁ h₂
  -- the value is the interrupt of this very call: no other is under way
  have hnone : σ.memory.data.scheduled = [] := List.length_eq_zero_iff.mp (by omega)
  have hdone : x.index ∈ σ.memory.data.delivered := by
    obtain hx | hx := h.waiting t _ x hp rfl
    · simp [hnone] at hx
    · exact hx
  refine h.set (m := []) hp hp' (by rw [hm]; simp) (by rw [hm]; simp) (by rw [hm]; exact fun _ hi => .inl hi)
    (by rw [hm]; exact h.contents) (by rw [hm]; exact h.active) ?_ (by rw [hm]; exact h.bounded)
    (by rw [hm]; exact h.queued) (fun _ => rfl) ?_ (fun x hx => by cases hx) ?_ (fun x hx => by cases hx)
  · rw [hm, hv]
    omega
  · rintro y hy
    obtain rfl := Option.some.inj hy
    rw [hm]
    exact h.served t _ x hp rfl
  · rintro y hy
    obtain rfl := Option.some.inj hy
    rwa [hm]

lemma Serving.acts (h : Serving disk σ) (hs : Sane client v₀ σ) (hp : σ.points[t]? = some c)
    (hp' : σ'.points = σ.points.set t c') (hv : σ'.value = σ.value)
    (ha : client.Acts k t σ.memory c σ'.memory c') : Serving disk σ' := by
  have hv' : σ'.value (.other ()) = σ.value (.other ()) := by rw [hv]
  generalize hm : σ'.memory = m at ha
  cases ha with
  | outer hk hf =>
    rename_i l l' f d
    cases l with
    | idle last =>
      cases k with
      | interrupt i => cases hk
      | call r =>
        cases hk
        cases hf
        exact h.frame hp hp' (by rw [hm]) hv' rfl rfl (fun x hx => by cases hx) (fun x hx => by cases hx)
          (fun i hi => .inr (Option.some.inj hi).ge) (fun hc => by cases hc)
    | calling r since => cases hk
    | device =>
      cases k with
      | call r => cases hk
      | interrupt i =>
        cases hk
        obtain ⟨hd, hl⟩ := Prod.ext_iff.mp (Except.ok.inj hf)
        by_cases hi : i ∈ σ.memory.data.scheduled
        · simp only [Device.callBack, if_pos hi] at hd hl
          subst hl
          exact h.interrupt hs hp hp' hi (by rw [hm, ← hd]) hv
        · simp only [Device.callBack, if_neg hi] at hd hl
          subst hl
          exact h.frame hp hp' (by rw [hm, ← hd]) hv' rfl rfl (fun x hx => by cases hx) (fun x hx => by cases hx)
            (fun i hi => by cases hi) (fun hc => by cases hc)
    | callBack => cases hk
    | _ => cases hk
  | inner hk hf =>
    rename_i l l' f d
    cases l with
    | request r since =>
      cases hk
      exact h.request hs hp hp' hf (by rw [hm]) hv
    | _ => cases hk
  | release hk hh =>
    rename_i l l'
    cases l <;> cases hk
    exact h.frame hp hp' (by rw [hm]) hv' rfl rfl (fun x hx => hx) (fun x hx => hx)
      (fun i hi => by cases hi) (fun hc => by cases hc)
  | wait hk hh =>
    rename_i l l'
    cases l <;> cases hk
  | signal hk hh =>
    rename_i l l'
    cases l <;> cases hk
  | broadcast hk =>
    rename_i l l'
    cases l <;> cases hk
  | signalTest =>
    refine h.pass hp hp' (by rw [hm]) hv' ?_ rfl
    split
    · exact MonitorPoint.rest_signalled _ _
    · rfl
  | broadcastTest => exact h.pass hp hp' (by rw [hm]) hv' (by split <;> rfl) rfl
  | _ => exact h.pass hp hp' (by rw [hm]) hv' rfl rfl

lemma Serving.step (h : Serving disk σ) (hs : Sane client v₀ σ) (hm : σ.Moves client.code o σ') :
    Serving disk σ' := by
  cases hs.steady.turn hm with
  | act hp hc hf hp' hv' hr ht => exact h.acts hs hp hp' hv' (acts_of_code hc hf)
  | sleep hp hc hz hm hp' hv' hr ht =>
    exact ⟨by rw [hm]; exact h.contents, by rw [hm]; exact h.active, by rw [hm, hp', hv']; exact h.balance,
      by rw [hm]; exact h.bounded, by rw [hm]; exact h.queued, by rw [hp']; exact h.within,
      by rw [hm, hp']; exact h.served, by rw [hm, hp']; exact h.waiting, by rw [hm, hp']; exact h.finished,
      by rw [hm, hp']; exact h.started⟩
  | take hp hc hpos hm hp' hv' hr ht =>
    cases takes_of_code hc with
    | acquire hk =>
      rename_i k l l'
      cases l with
      | calling r since =>
        cases hk
        exact h.frame hp hp' (by rw [hm]) (by simp [hv']) rfl rfl
          (fun x hx => by cases hx) (fun x hx => by cases hx)
          (fun i hi => .inl hi) (fun hc => by cases hc)
      | _ => cases k <;> cases hk
    | outer hk =>
      rename_i k l l' s
      cases l <;> cases k <;> cases hk
    | inner hk =>
      rename_i k l l' s
      cases l <;> cases hk
      exact h.passP hs hp hp' hm hpos (by simp [hv'])
    | waitP => exact h.pass hp hp' (by rw [hm]) (by simp [hv']) rfl rfl
    | waitAcquire => exact h.pass hp hp' (by rw [hm]) (by simp [hv']) rfl rfl
  | raise hp hc hm hp' hv' hr ht =>
    cases raises_of_code hc with
    | outer hk =>
      rename_i l l' s
      cases l with
      | callBack =>
        cases hk
        exact h.wake hp hp' hm (by simp [hv'])
      | idle last => cases hk' : o.2 <;> rw [hk'] at hk <;> cases hk
      | device => cases hk' : o.2 <;> rw [hk'] at hk <;> cases hk
      | _ => cases hk
    | inner hk =>
      rename_i l l' s
      cases l <;> cases hk
    | releaseV => exact h.pass hp hp' (by rw [hm]) (by simp [hv']) (MonitorPoint.rest_released _ _) rfl
    | signalV => exact h.pass hp hp' (by rw [hm]) (by simp [hv']) (MonitorPoint.rest_signalled _ _) rfl

lemma Serving.start (disk : Disk) (n : ℕ) : Serving disk (start disk n) := by
  have hpoint : ∀ {t : ℕ} {c : MonitorPoint DiskPoint}, (SynchDisk.start disk n).points[t]? = some c →
      c = .outside .device ∨ c = .outside (.idle none) := by
    intro t c hc
    have hmem := List.mem_of_getElem? hc
    simp only [SynchDisk.start, Client.start, Concurrent.start, points, List.map_cons, List.map_replicate,
      ThreadState.point, List.mem_cons, List.mem_replicate] at hmem
    exact hmem.imp_right And.right
  have hcount : ∀ p : MonitorPoint DiskPoint → Bool, p (.outside .device) = false →
      p (.outside (.idle none)) = false →
      (SynchDisk.start disk n).points.countP p = 0 := by
    intro p h₁ h₂
    rw [List.countP_eq_zero]
    intro c hc
    obtain ⟨t, ht⟩ := List.mem_iff_getElem?.mp hc
    obtain rfl | rfl := hpoint ht <;> simp [h₁, h₂]
  constructor
  · exact fun sector => rfl
  · exact ⟨fun h => (by cases h), fun h => absurd rfl h⟩
  · rw [hcount callsBack rfl rfl, hcount waits rfl rfl]
    rfl
  · exact fun i hi => absurd hi List.not_mem_nil
  · exact fun i hi => absurd hi List.not_mem_nil
  · intro t c hc hw
    obtain rfl | rfl := hpoint hc <;> cases hw
  · intro t c x hc hx
    obtain rfl | rfl := hpoint hc <;> cases hx
  · intro t c x hc hx
    obtain rfl | rfl := hpoint hc <;> cases hx
  · intro t c x hc hx
    obtain rfl | rfl := hpoint hc <;> cases hx
  · intro t c x hc hx
    obtain rfl | rfl := hpoint hc <;> cases hx

/-- In every state of every run: `ASSERT(!active)` holds wherever a request is made, so that a call fails only
on a sector that the disk does not have; and a call that has returned did so after the interrupt of its own
request, with the data of the last write to the sector that was issued before it. The place of a call among
the requests issued is between its beginning and its return. -/
theorem synchDisk_serialises (disk : Disk) (n : ℕ) {σ : State} (h : Run client.code (start disk n) σ) :
    (∀ (t : ℕ) (r : DiskRequest) (since : ℕ), σ.points[t]? = some (.inside (.request r since)) →
      σ.memory.data.active = false) ∧
    (∀ (o : ℕ × DiskChoice) (e : Fault), σ.move client.code o = some (.error e) →
      ∃ r since, σ.points[o.1]? = some (.inside (.request r since)) ∧ ¬ (0 ≤ r.sector ∧ r.sector < NumSectors)) ∧
    (∀ i ∈ σ.memory.data.delivered, i < σ.memory.data.issued.length) ∧
    ∀ (t : ℕ) (x : Served), σ.points[t]? = some (.outside (.idle (some x))) →
      x.index ∈ σ.memory.data.delivered ∧ x.start ≤ x.index ∧
      σ.memory.data.issued[x.index]? = some x.request ∧
      x.data = answer disk (σ.memory.data.issued.take x.index) x.request := by
  have hI : Sane client (fun _ => 0) σ ∧ Serving disk σ :=
    h.invariant (I := fun σ => Sane client (fun _ => 0) σ ∧ Serving disk σ)
      (fun o σ σ' ⟨hs, hg⟩ _ hm => ⟨hs.step hm, hg.step hs hm⟩)
      ⟨Sane.start _ (fun _ => le_refl 0) _, Serving.start disk n⟩
  obtain ⟨hs, hg⟩ := hI
  have hidle : ∀ (t : ℕ) (r : DiskRequest) (since : ℕ), σ.points[t]? = some (.inside (.request r since)) →
      σ.memory.data.active = false := by
    intro t r since hp
    have hnone := (hg.quiet hs hp).1
    cases ha : σ.memory.data.active with
    | false => rfl
    | true => exact absurd hnone (hg.active.mp ha)
  refine ⟨hidle, fun o e hm => ?_, hg.bounded, fun t x hp => ⟨hg.finished t _ x hp rfl, hg.served t _ x hp rfl⟩⟩
  obtain ⟨l, f, hf, ⟨hp, hk⟩ | ⟨hp, hk⟩⟩ := hs.fault hm
  · cases l with
    | idle last =>
      cases hk' : o.2 <;> rw [hk'] at hk <;> cases hk
      cases hf
    | device =>
      cases hk' : o.2 <;> rw [hk'] at hk <;> cases hk
      cases hf
    | _ => cases hk
  · cases l with
    | request r since =>
      cases hk
      refine ⟨r, since, hp, fun hrange => ?_⟩
      have hactive := hidle _ _ _ hp
      simp only [Device.request, hactive, Bool.false_eq_true, if_false, if_pos hrange] at hf
      cases r <;> cases hf
    | _ => cases hk

def writeThenRead (data : Sector) : List (ℕ × DiskChoice) :=
  List.replicate 5 (1, .call (.write 3 data)) ++ List.replicate 2 (2, .call (.read 3)) ++
    List.replicate 2 (0, .interrupt 0) ++ List.replicate 4 (1, .call (.read 0)) ++
    List.replicate 4 (2, .call (.read 3)) ++ List.replicate 2 (0, .interrupt 1) ++
    List.replicate 4 (2, .call (.read 3))

theorem synchDisk_serialises_contended :
    ∃ (σ : State) (x : Served),
      run client.code (writeThenRead (Vector.replicate 128 7)) (start Kernel.blank.disk 2) = some σ ∧
      σ.points[2]? = some (.outside (.idle (some x))) ∧ x.request = .read 3 ∧ x.index ∈ σ.memory.data.delivered ∧
      x.data = answer Kernel.blank.disk (σ.memory.data.issued.take x.index) x.request := by
  obtain ⟨σ, x, hσ, hp, hr⟩ : ∃ (σ : State) (x : Served),
      run client.code (writeThenRead (Vector.replicate 128 7)) (start Kernel.blank.disk 2) = some σ ∧
      σ.points[2]? = some (.outside (.idle (some x))) ∧ x.request = .read 3 := ⟨_, _, rfl, rfl, rfl⟩
  obtain ⟨hdelivered, -, -, hdata⟩ := (synchDisk_serialises Kernel.blank.disk 2 (run_reaches hσ)).2.2.2 2 x hp
  exact ⟨σ, x, hσ, hp, hr, hdelivered, hdata⟩

end SynchDisk

end NachosFileSys
