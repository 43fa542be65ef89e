import NachosFileSys.Progress
import NachosFileSys.Kernel

/-! `SynchConsoleOutput` over the simulated `ConsoleOutput`: threads that call `PutChar`, and the device, whose
interrupt handler runs between any two statements of theirs, once for every character. -/

namespace NachosFileSys

open Lib.Runs Lib.Threads Lib.Bytes Concurrent Client

/-- The device: the characters that have gone to the display, each with the thread that wrote it, how many write
interrupts are pending and how many have been delivered. -/
structure ConsoleOutput where
  putBusy : Bool
  written : List (ℕ × Byte)
  scheduled : ℕ
  delivered : ℕ

inductive OutputPoint
  | idle (printed : List Byte)
  | calling (printed : List Byte) (ch : Byte)
  | putChar (printed : List Byte) (ch : Byte)
  | wait (printed : List Byte) (ch : Byte)
  | leave (printed : List Byte) (ch : Byte)
  -- the interrupt handler, before and after `putBusy = FALSE`
  | device
  | callBack

inductive OutputChoice
  | call (ch : Byte)
  | interrupt

namespace ConsoleOutput

def new : ConsoleOutput := ⟨false, [], 0, 0⟩

def putChar (t : ℕ) (ch : Byte) (d : ConsoleOutput) : Except Fault ConsoleOutput :=
  if d.putBusy then .error .assertion
  else .ok { d with putBusy := true, written := d.written ++ [(t, ch)], scheduled := d.scheduled + 1 }

/-- `ConsoleOutput::CallBack`, up to the call of `SynchConsoleOutput::CallBack`; nothing happens where no
interrupt is pending. -/
def callBack (d : ConsoleOutput) : ConsoleOutput × OutputPoint :=
  if 0 < d.scheduled then
    ({ d with putBusy := false, scheduled := d.scheduled - 1, delivered := d.delivered + 1 }, .callBack)
  else (d, .device)

def shown (t : ℕ) (d : ConsoleOutput) : List Byte := (d.written.filter fun w => w.1 = t).map Prod.snd

end ConsoleOutput

namespace SynchConsoleOutput

def client : Client Unit ConsoleOutput OutputChoice OutputPoint where
  outer k _ l := match l, k with
    | .idle printed, .call ch => some (.act fun d => .ok (d, .calling printed ch))
    | .calling printed ch, _ => some (.acquire (.putChar printed ch))
    | .device, .interrupt => some (.act fun d => .ok d.callBack)
    | .callBack, _ => some (.v () .device)
    | _, _ => none
  inner _ t l := match l with
    | .putChar printed ch => some (.act fun d => (d.putChar t ch).map fun d => (d, .wait printed ch))
    | .wait printed ch => some (.p () (.leave printed ch))
    | .leave printed ch => some (.release (.idle (printed ++ [ch])))
    | _ => none

abbrev State := Client.World Unit ConsoleOutput OutputPoint

def start (n : ℕ) : State := Client.start .new (fun _ => 0) (.device :: List.replicate n (.idle []))

end SynchConsoleOutput

namespace OutputPoint

def printed : OutputPoint → List Byte
  | .idle printed | .calling printed _ | .putChar printed _ => printed
  | .wait printed ch | .leave printed ch => printed ++ [ch]
  | .device | .callBack => []

def outerWork : OutputPoint → ℕ
  | .calling _ _ => 9
  | .callBack => 1
  | _ => 0

def innerWork : OutputPoint → ℕ
  | .putChar _ _ => 7
  | .wait _ _ => 4
  | .leave _ _ => 3
  | _ => 0

end OutputPoint

namespace SynchConsoleOutput

def waits : MonitorPoint OutputPoint → Bool
  | .inside (.wait _ _) => true
  | _ => false

def callsBack : MonitorPoint OutputPoint → Bool
  | .outside .callBack => true
  | _ => false

def handles : MonitorPoint OutputPoint → Bool
  | .outside .device | .outside .callBack => true
  | _ => false

def proper : MonitorPoint OutputPoint → Bool
  | .outside (.idle _) | .outside (.calling _ _) | .outside .device | .outside .callBack
  | .acquired (.putChar _ _) | .inside (.putChar _ _) | .inside (.wait _ _) | .inside (.leave _ _)
  | .releaseClear none (.idle _) | .releaseV none (.idle _) => true
  | _ => false

/-- All that a move can do, to the device, to the value of `waitFor` and to the thread `t` that moves. -/
inductive Does (t : ℕ) (d : ConsoleOutput) (v : ℤ) : MonitorPoint OutputPoint → ConsoleOutput → ℤ →
    MonitorPoint OutputPoint → Prop
  | call {printed : List Byte} {ch : Byte} :
      Does t d v (.outside (.idle printed)) d v (.outside (.calling printed ch))
  | acquire {printed : List Byte} {ch : Byte} :
      Does t d v (.outside (.calling printed ch)) d v (.acquired (.putChar printed ch))
  | enter {printed : List Byte} {ch : Byte} :
      Does t d v (.acquired (.putChar printed ch)) d v (.inside (.putChar printed ch))
  | put {printed : List Byte} {ch : Byte} {d' : ConsoleOutput} (h : d.putChar t ch = .ok d') :
      Does t d v (.inside (.putChar printed ch)) d' v (.inside (.wait printed ch))
  | pass {printed : List Byte} {ch : Byte} (h : 0 < v) :
      Does t d v (.inside (.wait printed ch)) d (v - 1) (.inside (.leave printed ch))
  | release {printed : List Byte} {ch : Byte} :
      Does t d v (.inside (.leave printed ch)) d v (.releaseClear none (.idle (printed ++ [ch])))
  | clear {printed : List Byte} :
      Does t d v (.releaseClear none (.idle printed)) d v (.releaseV none (.idle printed))
  | give {printed : List Byte} : Does t d v (.releaseV none (.idle printed)) d v (.outside (.idle printed))
  | interrupt (h : 0 < d.scheduled) : Does t d v (.outside .device)
      { d with putBusy := false, scheduled := d.scheduled - 1, delivered := d.delivered + 1 } v
      (.outside .callBack)
  | nothing : Does t d v (.outside .device) d v (.outside .device)
  | wake : Does t d v (.outside .callBack) d (v + 1) (.outside .device)

lemma lockOnly : LockOnly client where
  wait k t l next := by cases l <;> simp [client]
  signal k t l next := by cases l <;> simp [client]
  broadcast k t l next := by cases l <;> simp [client]

lemma plain_of_proper {c : MonitorPoint OutputPoint} (h : proper c = true) : c.plain = true := by
  unfold proper at h
  split at h <;> first | rfl | cases h

variable {σ σ' : State} {o : ℕ × OutputChoice} {n : ℕ} {k : OutputChoice} {t : ℕ} {m m' : Memory ConsoleOutput}
  {c c' : MonitorPoint OutputPoint} {s : Sem Unit} {v v' : ℤ} {d d' : ConsoleOutput}

lemma does_of_acts (h : client.Acts k t m c m' c') (hc : proper c = true) : Does t m.data v c m'.data v c' := by
  cases h with
  | @outer l l' f d hk hf =>
    cases l with
    | idle printed =>
      cases k with
      | interrupt => cases hk
      | call ch =>
        cases hk
        cases hf
        exact .call
    | device =>
      cases k with
      | call ch => cases hk
      | interrupt =>
        cases hk
        obtain ⟨rfl, rfl⟩ := Prod.ext_iff.mp (Except.ok.inj hf)
        unfold ConsoleOutput.callBack
        split
        · exact .interrupt ‹_›
        · exact .nothing
    | calling | callBack | putChar | wait | leave => cases hk
  | @inner l l' f d hk hf =>
    cases l with
    | putChar printed ch =>
      cases hk
      dsimp only at hf
      cases hput : m.data.putChar t ch with
      | error e =>
        rw [hput] at hf
        cases hf
      | ok d =>
        rw [hput] at hf
        cases hf
        exact .put hput
    | idle | calling | wait | leave | device | callBack => cases hk
  | @release l l' hk hh =>
    cases l with
    | leave printed ch =>
      cases hk
      exact .release
    | idle | calling | putChar | wait | device | callBack => cases hk
  | wait hk => exact absurd hk (lockOnly.wait _ _ _ _)
  | signal hk => exact absurd hk (lockOnly.signal _ _ _ _)
  | broadcast hk => exact absurd hk (lockOnly.broadcast _ _ _ _)
  | @acquired l =>
    cases l with
    | putChar printed ch => exact .enter
    | idle | calling | wait | leave | device | callBack => cases hc
  | @releaseClear w l =>
    cases w with
    | some w => cases hc
    | none =>
      cases l with
      | idle printed => exact .clear
      | calling | putChar | wait | leave | device | callBack => cases hc
  | releaseAssert | waitNew | waitAppend | signalAssert | signalTest | signalRemove | broadcastTest => cases hc

lemma does_of_turn (ht : Turn client.code o σ σ') (hproper : ∀ c ∈ σ.points, proper c = true) :
    (σ'.memory = σ.memory ∧ σ'.points = σ.points ∧ σ'.value = σ.value) ∨
      ∃ c c', σ.points[o.1]? = some c ∧ σ'.points = σ.points.set o.1 c' ∧
        Does o.1 σ.memory.data (σ.value (.other ())) c σ'.memory.data (σ'.value (.other ())) c' := by
  cases ht with
  | act hp hc hf hp' hv' =>
    refine .inr ⟨_, _, hp, hp', ?_⟩
    rw [hv']
    exact does_of_acts (acts_of_code hc hf) (hproper _ (List.mem_of_getElem? hp))
  | sleep hp hc hz hm hp' hv' => exact .inl ⟨hm, hp', hv'⟩
  | @take c next s k hp hc hpos hm hp' hv' =>
    refine .inr ⟨_, _, hp, hp', ?_⟩
    have hc' := hproper _ (List.mem_of_getElem? hp)
    rw [hm, hv']
    cases takes_of_code hc with
    | @acquire l l' hk =>
      rw [Function.update_of_ne (by simp)]
      cases l with
      | calling printed ch =>
        cases hk
        exact .acquire
      | idle | device => cases k <;> cases hk
      | callBack | putChar | wait | leave => cases hk
    | @outer l l' s hk => cases l <;> cases k <;> cases hk
    | @inner l l' s hk =>
      cases l with
      | wait printed ch =>
        cases hk
        rw [Function.update_self]
        exact .pass hpos
      | idle | calling | putChar | leave | device | callBack => cases hk
    | waitP | waitAcquire => cases hc'
  | raise hp hc hm hp' hv' =>
    refine .inr ⟨_, _, hp, hp', ?_⟩
    have hc' := hproper _ (List.mem_of_getElem? hp)
    rw [hm, hv']
    cases raises_of_code hc with
    | @outer l l' s hk =>
      cases l with
      | callBack =>
        cases hk
        rw [Function.update_self]
        exact .wake
      | idle | device => cases hk' : o.2 <;> rw [hk'] at hk <;> cases hk
      | calling | putChar | wait | leave => cases hk
    | @inner l l' s hk => cases l <;> cases hk
    | @releaseV w l =>
      rw [Function.update_of_ne (by simp)]
      cases w with
      | some w => cases hc'
      | none =>
        cases l with
        | idle printed => exact .give
        | calling | putChar | wait | leave | device | callBack => cases hc'
    | signalV => cases hc'

lemma putChar_ok {ch : Byte} (h : d.putChar t ch = .ok d') : d.putBusy = false ∧
    d' = { d with putBusy := true, written := d.written ++ [(t, ch)], scheduled := d.scheduled + 1 } := by
  unfold ConsoleOutput.putChar at h
  split at h
  · cases h
  · cases h
    exact ⟨by simpa using ‹¬d.putBusy = true›, rfl⟩

structure Printing (n : ℕ) (σ : State) : Prop where
  busy : σ.memory.data.putBusy = true ↔ 0 < σ.memory.data.scheduled
  balance : (σ.memory.data.scheduled : ℤ) + σ.points.countP callsBack + σ.value (.other ()) = σ.points.countP waits
  count : σ.memory.data.delivered + σ.memory.data.scheduled = σ.memory.data.written.length
  own (t : ℕ) (c : MonitorPoint OutputPoint) (h : σ.points[t]? = some c) : σ.memory.data.shown t = c.rest.printed
  length : σ.points.length = n + 1
  proper : ∀ c ∈ σ.points, proper c = true
  handler : ∃ c ∈ σ.points, handles c = true

variable {v₀ : Unit → ℤ}

lemma holds_of_waits (c : MonitorPoint OutputPoint) (h : waits c = true) : c.holds = true := by
  unfold waits at h
  split at h
  · rfl
  · cases h

lemma waits_le (hs : Sane client v₀ σ) : σ.points.countP waits ≤ 1 := by
  have hle :=
    List.countP_mono_left (p := waits) (q := MonitorPoint.holds) (l := σ.points) fun c _ hw => holds_of_waits c hw
  have htoken := hs.locked.token
  have hnonneg := hs.nonneg .lock
  omega

lemma Printing.quiet (h : Printing n σ) (hs : Sane client v₀ σ) (hp : σ.points[t]? = some c) (hh : c.holds = true)
    (hw : waits c = false) : σ.memory.data.scheduled = 0 := by
  have hlt := Pool.countP_succ_le (p := waits) (q := MonitorPoint.holds) (fun c _ hw => holds_of_waits c hw)
    (List.mem_of_getElem? hp) hw hh
  have htoken := hs.locked.token
  have hlock := hs.nonneg .lock
  have hother := hs.nonneg (.other ())
  have hbalance := h.balance
  omega

lemma shown_append (ch : Byte) (u : ℕ) (hd : d'.written = d.written ++ [(t, ch)]) :
    d'.shown u = if u = t then d.shown u ++ [ch] else d.shown u := by
  rw [ConsoleOutput.shown, ConsoleOutput.shown, hd, List.filter_append]
  by_cases hu : u = t
  · simp [hu]
  · simp [hu, Ne.symm hu]

lemma own_set (hown : ∀ t c, σ.points[t]? = some c → σ.memory.data.shown t = c.rest.printed)
    (hp : σ.points[t]? = some c) (hp' : σ'.points = σ.points.set t c')
    (hself : σ'.memory.data.shown t = c'.rest.printed)
    (hothers : ∀ u, u ≠ t → σ'.memory.data.shown u = σ.memory.data.shown u) (u : ℕ) (x : MonitorPoint OutputPoint)
    (hu : σ'.points[u]? = some x) : σ'.memory.data.shown u = x.rest.printed := by
  rw [hp'] at hu
  rcases eq_or_ne u t with rfl | hne
  · rw [List.getElem?_set_self (List.getElem?_eq_some_iff.mp hp).1] at hu
    cases hu
    exact hself
  · rw [List.getElem?_set_ne hne.symm] at hu
    rw [hothers u hne]
    exact hown u x hu

lemma Does.proper (h : Does t d v c d' v' c') : SynchConsoleOutput.proper c' = true := by
  cases h <;> rfl

lemma Does.handles (h : Does t d v c d' v' c') (hh : handles c = true) : SynchConsoleOutput.handles c' = true := by
  cases h <;> first | rfl | cases hh

lemma Does.busy (h : Does t d v c d' v' c') (hb : d.putBusy = true ↔ 0 < d.scheduled) (hle : d.scheduled ≤ 1) :
    d'.putBusy = true ↔ 0 < d'.scheduled := by
  cases h with
  | put hput =>
    obtain ⟨-, rfl⟩ := putChar_ok hput
    simp
  | interrupt hpos =>
    simp
    omega
  | call | acquire | enter | pass | release | clear | give | nothing | wake => exact hb

lemma Does.balance (h : Does t d v c d' v' c') :
    (d'.scheduled : ℤ) + (if callsBack c' then 1 else 0) + v' + (if waits c then 1 else 0) =
      d.scheduled + (if callsBack c then 1 else 0) + v + (if waits c' then 1 else 0) := by
  cases h with
  | put hput =>
    obtain ⟨-, rfl⟩ := putChar_ok hput
    simp [callsBack, waits]
    omega
  | interrupt hpos =>
    simp [callsBack, waits]
    omega
  | pass | wake =>
    simp [callsBack, waits]
    try omega
  | call | acquire | enter | release | clear | give | nothing => simp [callsBack, waits]

lemma Does.count (h : Does t d v c d' v' c') (hd : d.delivered + d.scheduled = d.written.length) :
    d'.delivered + d'.scheduled = d'.written.length := by
  cases h with
  | put hput =>
    obtain ⟨-, rfl⟩ := putChar_ok hput
    simp
    omega
  | interrupt hpos =>
    dsimp only
    omega
  | call | acquire | enter | pass | release | clear | give | nothing | wake => exact hd

lemma Does.own (h : Does t d v c d' v' c') (hd : d.shown t = c.rest.printed) :
    d'.shown t = c'.rest.printed ∧ ∀ u, u ≠ t → d'.shown u = d.shown u := by
  cases h with
  | @put printed ch d' hput =>
    obtain ⟨-, rfl⟩ := putChar_ok hput
    refine ⟨?_, fun u hu => ?_⟩
    · rw [shown_append (d := d) ch t rfl, if_pos rfl, hd]
      rfl
    · rw [shown_append (d := d) ch u rfl, if_neg hu]
  | call | acquire | enter | pass | release | clear | give | interrupt | nothing | wake =>
    exact ⟨hd, fun _ _ => rfl⟩

lemma Printing.turn (h : Printing n σ) (hs : Sane client v₀ σ) (ht : Turn client.code o σ σ') : Printing n σ' := by
  obtain ⟨hm, hp', hv'⟩ | ⟨c, c', hp, hp', hdoes⟩ := does_of_turn ht h.proper
  · exact ⟨by rw [hm]; exact h.busy, by rw [hm, hp', hv']; exact h.balance, by rw [hm]; exact h.count,
      by rw [hm, hp']; exact h.own, by rw [hp']; exact h.length,
      by rw [hp']; exact h.proper, by rw [hp']; exact h.handler⟩
  have hbalance := h.balance
  have hnonneg := hs.nonneg (.other ())
  have hwaits := waits_le hs
  have hself := hdoes.own (h.own o.1 c hp)
  refine ⟨hdoes.busy h.busy (by omega), ?_, hdoes.count h.count, own_set h.own hp hp' hself.1 hself.2,
    by rw [hp', List.length_set]; exact h.length, forall_points_set hp' h.proper hdoes.proper,
    exists_point_set hp hp' h.handler hdoes.handles⟩
  · have h₁ := Pool.countP_set (p := callsBack) hp c'
    have h₂ := Pool.countP_set (p := waits) hp c'
    have hstep := hdoes.balance
    rw [← hp'] at h₁ h₂
    split at hstep <;> split at hstep <;> split at hstep <;> split at hstep <;> simp_all <;> omega

lemma Printing.start (n : ℕ) : Printing n (start n) := by
  have hpoint : ∀ c ∈ (SynchConsoleOutput.start n).points, c = .outside .device ∨ c = .outside (.idle []) := by
    intro c hc
    simp only [SynchConsoleOutput.start, Client.start, Concurrent.start, points, List.map_cons, List.map_replicate,
      ThreadState.point, List.mem_cons, List.mem_replicate] at hc
    exact hc.imp_right And.right
  have hcount : ∀ p : MonitorPoint OutputPoint → Bool, p (.outside .device) = false →
      p (.outside (.idle [])) = false →
      (SynchConsoleOutput.start n).points.countP p = 0 := by
    intro p h₁ h₂
    rw [List.countP_eq_zero]
    intro c hc
    obtain rfl | rfl := hpoint c hc <;> simp [h₁, h₂]
  refine ⟨⟨fun h => (by cases h), fun h => absurd h (lt_irrefl 0)⟩, ?_, rfl, fun t c hp => ?_, ?_, fun c hc => ?_,
    ⟨.outside .device, ?_, rfl⟩⟩
  · rw [hcount callsBack rfl rfl, hcount waits rfl rfl]
    rfl
  · obtain rfl | rfl := hpoint c (List.mem_of_getElem? hp) <;> rfl
  · simp [SynchConsoleOutput.start, Client.start, Concurrent.start, points]
  · obtain rfl | rfl := hpoint c hc <;> rfl
  · simp [SynchConsoleOutput.start, Client.start, Concurrent.start, points, ThreadState.point]

lemma not_fails (hs : Sane client v₀ σ) (h : Printing n σ) (o : ℕ × OutputChoice) (e : Fault) :
    ¬Fails client o σ e := by
  rintro ⟨l, f, hf, ⟨hp, hk⟩ | ⟨hp, hk⟩⟩
  · cases l with
    | idle | device =>
      cases hk' : o.2 <;> rw [hk'] at hk <;> cases hk
      cases hf
    | calling | callBack | putChar | wait | leave => cases hk
  · cases l with
    | putChar printed ch =>
      cases hk
      have hquiet := h.quiet hs hp rfl rfl
      have hbusy : σ.memory.data.putBusy = false := by
        cases hb : σ.memory.data.putBusy with
        | false => rfl
        | true =>
          have hpos := h.busy.mp hb
          omega
      dsimp only at hf
      rw [ConsoleOutput.putChar, hbusy] at hf
      cases hf
    | idle | calling | wait | leave | device | callBack => cases hk

/-- In every state of every run: no statement fails, so that a character is put only where none is under way; at
most one write interrupt is pending, one is exactly while the device is busy, and one comes for every character;
what a thread has put on the display is what it has asked for, in order, each character once; and where a call has
passed its `P`, the interrupts of all characters so far, its own among them, have been delivered. -/
theorem synchConsoleOutput_serialises (n : ℕ) {σ : State} (h : Run client.code (start n) σ) :
    (∀ o e, σ.move client.code o ≠ some (.error e)) ∧
    σ.memory.data.scheduled ≤ 1 ∧ (σ.memory.data.putBusy = true ↔ σ.memory.data.scheduled = 1) ∧
    σ.memory.data.delivered + σ.memory.data.scheduled = σ.memory.data.written.length ∧
    (∀ (t : ℕ) (c : MonitorPoint OutputPoint), σ.points[t]? = some c → σ.memory.data.shown t = c.rest.printed) ∧
    ∀ (t : ℕ) (printed : List Byte) (ch : Byte), σ.points[t]? = some (.inside (.leave printed ch)) →
      σ.memory.data.delivered = σ.memory.data.written.length := by
  have hI : Sane client (fun _ => 0) σ ∧ Printing n σ :=
    h.invariant (I := fun σ => Sane client (fun _ => 0) σ ∧ Printing n σ)
      (fun o σ σ' hσ _ hm => ⟨hσ.1.step hm, hσ.2.turn hσ.1 (hσ.1.steady.turn hm)⟩)
      ⟨Sane.start _ (fun _ => le_refl 0) _, Printing.start n⟩
  obtain ⟨hs, hg⟩ := hI
  have hbalance := hg.balance
  have hnonneg := hs.nonneg (.other ())
  have hwaits := waits_le hs
  have hcount := hg.count
  refine ⟨fun o e hm => not_fails hs hg o e (hs.fault hm), by omega, ?_, hcount, hg.own, fun t printed ch hp => ?_⟩
  · rw [hg.busy]
    omega
  · have hquiet := hg.quiet hs hp rfl rfl
    omega

def permitted (k : OutputChoice) (d : ConsoleOutput) : OutputPoint → Prop
  | .idle _ => False
  | .device => 0 < d.scheduled ∧ k = .interrupt
  | _ => True

def Resting (c : MonitorPoint OutputPoint) : Prop :=
  (∃ printed, c = .outside (.idle printed)) ∨ c = .outside .device

def Finished (σ : State) : Prop := (∀ c ∈ σ.points, Resting c) ∧ σ.memory.data.scheduled = 0

lemma consumes :
    Consumes client permitted OutputPoint.outerWork OutputPoint.innerWork fun d => 2 * d.scheduled where
  outer_act {k t l l' f d d'} hk hf hok := by
    cases l with
    | idle last => exact absurd hok id
    | device =>
      obtain ⟨hpos, rfl⟩ := hok
      cases hk
      obtain ⟨rfl, rfl⟩ := Prod.ext_iff.mp (Except.ok.inj hf)
      simp only [ConsoleOutput.callBack, if_pos hpos, OutputPoint.outerWork]
      omega
    | calling | callBack | putChar | wait | leave => cases hk
  acquire {k t l l'} hk := by
    cases l with
    | calling printed ch =>
      cases hk
      exact (by decide : 7 + 1 < 9)
    | idle | device => cases k <;> cases hk
    | callBack | putChar | wait | leave => cases hk
  outer_p {k t l l' s} hk := by cases l <;> cases k <;> cases hk
  outer_v {k t l l' s} hk := by
    cases l with
    | callBack =>
      cases hk
      decide
    | idle | device => cases k <;> cases hk
    | calling | putChar | wait | leave => cases hk
  inner_act {k t l l' f d d'} hk hf := by
    cases l with
    | putChar printed ch =>
      cases hk
      dsimp only at hf
      cases hput : d.putChar t ch with
      | error e =>
        rw [hput] at hf
        cases hf
      | ok d₁ =>
        rw [hput] at hf
        cases hf
        obtain ⟨-, rfl⟩ := putChar_ok hput
        simp only [OutputPoint.innerWork]
        omega
    | idle | calling | wait | leave | device | callBack => cases hk
  release {k t l l'} hk := by
    cases l with
    | leave printed ch =>
      cases hk
      exact (by decide : 0 + 2 < 3)
    | idle | calling | putChar | wait | device | callBack => cases hk
  inner_p {k t l l' s} hk := by
    cases l with
    | wait printed ch =>
      cases hk
      exact (by decide : 3 < 4)
    | idle | calling | putChar | leave | device | callBack => cases hk
  inner_v {k t l l' s} hk := by cases l <;> cases hk

lemma handler_moves (hs : Sane client v₀ σ) (h : Printing n σ)
    (hdue : 0 < σ.memory.data.scheduled + σ.points.countP callsBack) :
    ∃ o σ', Permits permitted σ o ∧ σ.Moves client.code o σ' := by
  apply hs.handler_moves (not_fails hs h) .device .callBack .interrupt
    (fun k t => ⟨(), .device, rfl⟩) trivial
  · intro k t
    cases k with
    | call r => exact .inl rfl
    | interrupt => exact .inr ⟨_, rfl⟩
  rcases Nat.eq_zero_or_pos (σ.points.countP callsBack) with hnone | hpos
  · obtain ⟨c, hc, hh⟩ := h.handler
    unfold handles at hh
    split at hh
    · exact .inr ⟨hc, .interrupt, ⟨by omega, rfl⟩, fun t => Option.some_ne_none _⟩
    · exact .inl hc
    · cases hh
  · obtain ⟨c, hc, hb⟩ := List.countP_pos_iff.mp hpos
    unfold callsBack at hb
    split at hb
    · exact .inl hc
    · cases hb

structure Serviced (n : ℕ) (σ : State) : Prop where
  sane : Sane client (fun _ => 0) σ
  printing : Printing n σ

lemma Serviced.step (h : Serviced n σ) (hm : σ.Moves client.code o σ') : Serviced n σ' :=
  ⟨h.sane.step hm, h.printing.turn h.sane (h.sane.steady.turn hm)⟩

lemma Serviced.live (h : Serviced n σ) : Finished σ ∨ ∃ o σ', Permits permitted σ o ∧
    σ.Moves client.code o σ' := by
  obtain ⟨hs, hg⟩ := h
  have hbalance := hg.balance
  have hnonneg := hs.nonneg (.other ())
  have hrests : ∀ c, Resting c → c.holds = false ∧ ∀ k t s next, client.code k t c ≠ some (.p s next) := by
    rintro c (⟨printed, rfl⟩ | rfl)
    · exact ⟨rfl, fun k t s next hc => (by cases k <;> cases hc)⟩
    · exact ⟨rfl, fun k t s next hc => (by cases k <;> cases hc)⟩
  have hcode : ∀ t c, σ.points[t]? = some c → Resting c ∨
      ∃ k, (∀ l, c = .outside l → permitted k σ.memory.data l) ∧ client.code k t c ≠ none := by
    intro t c hp
    have hproper := hg.proper c (List.mem_of_getElem? hp)
    unfold proper at hproper
    split at hproper
    · exact .inl (.inl ⟨_, rfl⟩)
    · exact .inr ⟨.interrupt, fun l hl => (by cases hl; trivial), by simp [code, client]⟩
    · exact .inl (.inr rfl)
    · exact .inr ⟨.interrupt, fun l hl => (by cases hl; trivial), by simp [code, client]⟩
    all_goals first
      | exact absurd hproper Bool.false_ne_true
      | exact .inr ⟨.interrupt, fun l hl => (by cases hl), by simp [code, client]⟩
  have hother : ∀ t c s next k, σ.points[t]? = some c → client.code k t c = some (.p (.other s) next) →
      σ.value (.other s) = 0 → ∃ o σ', Permits permitted σ o ∧ σ.Moves client.code o σ' := by
    intro t c s next k hp hc hz
    have hwaits : waits c = true := by
      cases takes_of_code hc with
      | @outer l l' s hk => cases l <;> cases k <;> cases hk
      | @inner l l' s hk =>
        cases l with
        | wait printed ch => rfl
        | idle | calling | putChar | leave | device | callBack => cases hk
    have hpos : 0 < σ.points.countP waits := List.countP_pos_iff.mpr ⟨c, List.mem_of_getElem? hp, hwaits⟩
    have hvalue : σ.value (.other ()) = 0 := hz
    apply handler_moves hs hg
    omega
  obtain hrest | hmove :=
    hs.live (fun c hc => plain_of_proper (hg.proper c hc)) (not_fails hs hg) hrests hcode hother
  · refine .inl ⟨hrest, ?_⟩
    have hwaits : σ.points.countP waits = 0 := by
      rw [List.countP_eq_zero]
      intro c hc
      obtain ⟨printed, rfl⟩ | rfl := hrest c hc <;> simp [waits]
    omega
  · exact .inr hmove

/-- In every state of every run: if no further call begins, then whichever thread runs and whenever the interrupts
come, all the calls under way have returned and all interrupts have been delivered after at most 23 moves for each
thread and the handler. -/
theorem synchConsoleOutput_completes (n : ℕ) {σ : State} (h : Run client.code (start n) σ) :
    Within (fun o σ σ' => σ.Moves client.code o σ') (Permits permitted) Finished (23 * (n + 1)) σ := by
  have hI : Serviced n σ := h.invariant (I := Serviced n) (fun o σ σ' hσ _ hm => hσ.step hm)
    ⟨Sane.start _ (fun _ => le_refl 0) _, Printing.start n⟩
  refine consumes.within lockOnly (I := Serviced n) (fun o σ σ' hσ _ hm => hσ.step hm) (fun σ hσ => hσ.sane)
    (fun σ hσ c hc => plain_of_proper (hσ.printing.proper c hc)) (fun σ hσ => hσ.live) hI ?_
  have hrank : ∀ c ∈ σ.points, MonitorPoint.rank OutputPoint.outerWork OutputPoint.innerWork c ≤ 9 := by
    intro c hc
    have hproper := hI.printing.proper c hc
    unfold proper at hproper
    split at hproper <;> first | exact Nat.le_of_ble_eq_true rfl | exact absurd hproper Bool.false_ne_true
  have hle := workLeft_le (fun m : Memory ConsoleOutput => 2 * m.data.scheduled) hrank
  have hbalance := hI.printing.balance
  have hwaits := waits_le hI.sane
  have hnonneg := hI.sane.nonneg (.other ())
  have hlength := hI.printing.length
  rw [hlength] at hle
  refine hle.trans ?_
  omega

def hiThenHo : List (ℕ × OutputChoice) := List.flatten
  [List.replicate 5 (1, .call 0x68), List.replicate 2 (2, .call 0x69), List.replicate 2 (0, .interrupt),
    List.replicate 4 (1, .interrupt), List.replicate 4 (2, .interrupt)]

theorem synchConsoleOutput_serialises_contended : ∃ σ : State, run client.code hiThenHo (start 2) = some σ ∧
    σ.memory.data.written = [(1, 0x68), (2, 0x69)] ∧ σ.memory.data.scheduled ≤ 1 := by
  have hrun : (run client.code hiThenHo (start 2)).map (fun σ => σ.memory.data.written) =
      some [(1, 0x68), (2, 0x69)] := by
    decide +kernel
  obtain ⟨σ, hσ, hw⟩ := Option.map_eq_some_iff.mp hrun
  exact ⟨σ, hσ, hw, (synchConsoleOutput_serialises 2 (run_reaches hσ)).2.1⟩

theorem synchConsoleOutput_completes_contended : ∃ σ : State, run client.code hiThenHo (start 2) = some σ ∧
    Within (fun o σ σ' => σ.Moves client.code o σ') (Permits permitted) Finished 69 σ := by
  have hrun : (run client.code hiThenHo (start 2)).isSome = true := by decide +kernel
  obtain ⟨σ, hσ⟩ := Option.isSome_iff_exists.mp hrun
  exact ⟨σ, hσ, synchConsoleOutput_completes 2 (run_reaches hσ)⟩

end SynchConsoleOutput

end NachosFileSys
