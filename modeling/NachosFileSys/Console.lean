import NachosFileSys.Conditions

/-! `SynchConsoleInput` over the simulated keyboard: threads that call `GetChar`, and the console read interrupts,
whose handler runs between any two statements of theirs. -/

namespace NachosFileSys

open Lib.Runs Lib.Threads Lib.Bytes Concurrent Client

def consoleEOF : Byte := 0xff

/-- The keyboard: the bytes of the input that have not been read, `incoming`, the console read interrupts that are
scheduled, whether `ReadPartial` has found the end of the input, and the characters that `GetChar` has returned. -/
structure ConsoleInput where
  input : List Byte
  incoming : Byte
  scheduled : ℕ
  ended : Bool
  returned : List Byte
  deriving DecidableEq

inductive ConsolePoint
  -- between two calls
  | idle
  | wait
  | getChar
  | leave
  -- the interrupt handler, before `PollFile` and at `callWhenAvail->CallBack()`
  | device
  | callBack
  deriving DecidableEq

inductive ConsoleChoice
  | call
  | interrupt (poll : Bool)

namespace ConsoleInput

def new (input : List Byte) : ConsoleInput := ⟨input, consoleEOF, 1, false, []⟩

/-- `ConsoleInput::CallBack`, up to `callWhenAvail->CallBack()`; nothing happens where no interrupt
is scheduled. -/
def callBack (poll : Bool) (d : ConsoleInput) : Except Fault (ConsoleInput × ConsolePoint) :=
  if d.scheduled = 0 then .ok (d, .device)
  else if d.incoming ≠ consoleEOF then .error .assertion
  else if !poll then .ok (d, .device)
  else
    match d.input with
    | [] => .ok ({ d with scheduled := d.scheduled - 1, ended := true }, .callBack)
    | c :: input => .ok ({ d with scheduled := d.scheduled - 1, input := input, incoming := c }, .callBack)

def getChar (d : ConsoleInput) : ConsoleInput :=
  { d with
    scheduled := if d.incoming ≠ consoleEOF then d.scheduled + 1 else d.scheduled
    incoming := consoleEOF
    returned := d.returned ++ [d.incoming] }

end ConsoleInput

namespace SynchConsoleInput

def client : Client Unit ConsoleInput ConsoleChoice ConsolePoint where
  outer k _ l := match l, k with
    | .idle, .call => some (.acquire .wait)
    | .device, .interrupt poll => some (.act fun d => d.callBack poll)
    | .callBack, _ => some (.v () .device)
    | _, _ => none
  inner _ _ l := match l with
    | .wait => some (.p () .getChar)
    | .getChar => some (.act fun d => .ok (d.getChar, .leave))
    | .leave => some (.release .idle)
    | _ => none

abbrev State := Client.World Unit ConsoleInput ConsolePoint

def start (input : List Byte) (n : ℕ) : State :=
  Client.start (.new input) (fun _ => 0) (.device :: List.replicate n .idle)

def carries (c : MonitorPoint ConsolePoint) : Bool := c.rest = .callBack || c.rest = .getChar

/-- Where the input stands. `tokens` counts the characters on their way to a caller. -/
inductive Phase (input : List Byte) (d : ConsoleInput) (tokens : ℤ) : Prop
  | polling (hs : d.scheduled = 1) (hi : d.incoming = consoleEOF) (he : d.ended = false)
      (hr : d.returned ++ d.input = input) (ht : tokens = 0)
  | buffered (hs : d.scheduled = 0) (hi : d.incoming ≠ consoleEOF) (he : d.ended = false)
      (hr : d.returned ++ d.incoming :: d.input = input) (ht : tokens = 1)
  | ending (hs : d.scheduled = 0) (hi : d.incoming = consoleEOF) (he : d.ended = true) (hn : d.input = [])
      (hr : d.returned = input) (ht : tokens = 1)
  | finished (hs : d.scheduled = 0) (hi : d.incoming = consoleEOF) (he : d.ended = true) (hn : d.input = [])
      (hr : d.returned = input ++ [consoleEOF]) (ht : tokens = 0)

def Spares (σ : State) (o : ℕ × ConsoleChoice) : Prop :=
  ∀ poll, o.2 = .interrupt poll → σ.memory.data.input.head? ≠ some consoleEOF

def tokens (σ : State) : ℤ := σ.points.countP carries + σ.value (.other ())

variable {σ σ' : State} {input : List Byte} {o : ℕ × ConsoleChoice} {t : ℕ} {k : ConsoleChoice}
  {c c' : MonitorPoint ConsolePoint} {v₀ : Unit → ℤ}

def InPhase (input : List Byte) (σ : State) : Prop := Phase input σ.memory.data (tokens σ)

lemma InPhase.frame (h : InPhase input σ) (hp : σ.points[t]? = some c) (hp' : σ'.points = σ.points.set t c')
    (hd : σ'.memory.data = σ.memory.data) (hv : σ'.value (.other ()) = σ.value (.other ()))
    (hc : carries c' = carries c) : InPhase input σ' := by
  have hcount := Pool.countP_set (p := carries) hp c'
  rw [← hp', hc] at hcount
  have htokens : tokens σ' = tokens σ := by
    rw [tokens, tokens, hv]
    omega
  rw [InPhase, hd, htokens]
  exact h

lemma InPhase.pass (h : InPhase input σ) (hp : σ.points[t]? = some c) (hp' : σ'.points = σ.points.set t c')
    (hd : σ'.memory.data = σ.memory.data) (hv : σ'.value (.other ()) = σ.value (.other ()))
    (hc : c'.rest = c.rest) : InPhase input σ' :=
  h.frame hp hp' hd hv (by rw [carries, carries, hc])

lemma InPhase.interrupt (h : InPhase input σ) (hbyte : σ.memory.data.input.head? ≠ some consoleEOF) {poll : Bool}
    {d : ConsoleInput} {l : ConsolePoint} (hp : σ.points[t]? = some (.outside .device))
    (hp' : σ'.points = σ.points.set t (.outside l))
    (hv : σ'.value = σ.value) (hf : σ.memory.data.callBack poll = .ok (d, l)) (hd : σ'.memory.data = d) :
    InPhase input σ' := by
  have hv' : σ'.value (.other ()) = σ.value (.other ()) := by rw [hv]
  by_cases hs : σ.memory.data.scheduled = 0
  · rw [ConsoleInput.callBack, if_pos hs] at hf
    cases hf
    exact h.frame hp hp' hd hv' rfl
  · obtain ⟨hs, hi, he, hr, ht⟩ : σ.memory.data.scheduled = 1 ∧ σ.memory.data.incoming = consoleEOF ∧
        σ.memory.data.ended = false ∧ σ.memory.data.returned ++ σ.memory.data.input = input ∧ tokens σ = 0 := by
      cases h with
      | polling hs' hi he hr ht => exact ⟨hs', hi, he, hr, ht⟩
      | buffered hs' => exact absurd hs' hs
      | ending hs' => exact absurd hs' hs
      | finished hs' => exact absurd hs' hs
    rw [ConsoleInput.callBack, if_neg (by omega), if_neg (by rw [hi]; exact not_not.mpr rfl)] at hf
    cases poll with
    | false =>
      cases hf
      exact h.frame hp hp' hd hv' rfl
    | true =>
      have hone : l = .callBack → tokens σ' = 1 := by
        rintro rfl
        have hcount := Pool.countP_set (p := carries) hp (.outside .callBack)
        rw [← hp', show carries (.outside .callBack) = true from rfl,
          show carries (.outside .device) = false from rfl, if_neg Bool.false_ne_true, if_pos rfl] at hcount
        rw [tokens] at ht ⊢
        omega
      rw [if_neg (by simp)] at hf
      cases hin : σ.memory.data.input with
      | nil =>
        rw [hin] at hf hr
        cases hf
        rw [InPhase, hd, hone rfl]
        exact .ending (by dsimp only; omega) hi rfl rfl (by rw [← hr, List.append_nil]) rfl
      | cons b rest =>
        rw [hin] at hf hr hbyte
        cases hf
        rw [InPhase, hd, hone rfl]
        exact .buffered (by dsimp only; omega) (fun hb => hbyte (congrArg some hb)) he hr rfl

lemma InPhase.getChar (h : InPhase input σ) (hnn : 0 ≤ σ.value (.other ()))
    (hp : σ.points[t]? = some (.inside .getChar)) (hp' : σ'.points = σ.points.set t (.inside .leave))
    (hv : σ'.value = σ.value) (hd : σ'.memory.data = σ.memory.data.getChar) : InPhase input σ' := by
  have hcount := Pool.countP_set (p := carries) hp (.inside .leave)
  rw [← hp', show carries (.inside .leave) = false from rfl, show carries (.inside .getChar) = true from rfl,
    if_neg Bool.false_ne_true, if_pos rfl] at hcount
  have hlt : tokens σ' = tokens σ - 1 := by
    rw [tokens, tokens, hv]
    omega
  have hnonneg : 0 ≤ tokens σ' := by
    rw [tokens, hv]
    omega
  rw [InPhase, hd, hlt]
  cases h with
  | polling hs hi he hr ht => omega
  | buffered hs hi he hr ht =>
    refine .polling ?_ rfl he ?_ (by omega)
    · simp only [ConsoleInput.getChar, if_pos hi]
      omega
    · rw [ConsoleInput.getChar, ← hr]
      simp
  | ending hs hi he hn hr ht =>
    refine .finished ?_ rfl he hn ?_ (by omega)
    · simp only [ConsoleInput.getChar, if_neg (not_not.mpr hi)]
      exact hs
    · rw [ConsoleInput.getChar, hi]
      dsimp only
      rw [hr]
  | finished hs hi he hn hr ht => omega

lemma InPhase.acts (h : InPhase input σ) (hs : Sane client v₀ σ) (hspare : Spares σ (t, k))
    (hp : σ.points[t]? = some c) (hp' : σ'.points = σ.points.set t c') (hv : σ'.value = σ.value)
    (ha : client.Acts k t σ.memory c σ'.memory c') : InPhase input σ' := by
  have hv' : σ'.value (.other ()) = σ.value (.other ()) := by rw [hv]
  generalize hm : σ'.memory = m at ha
  cases ha with
  | outer hk hf =>
    rename_i l l' f d
    cases l with
    | device =>
      cases k with
      | call => cases hk
      | interrupt poll =>
        cases hk
        exact h.interrupt (hspare poll rfl) hp hp' hv hf (by rw [hm])
    | idle => cases k <;> cases hk
    | _ => cases hk
  | inner hk hf =>
    rename_i l l' f d
    cases l with
    | getChar =>
      cases hk
      cases hf
      exact h.getChar (hs.nonneg _) hp hp' hv (by rw [hm])
    | _ => cases hk
  | release hk hh =>
    rename_i l l'
    cases l <;> cases hk
    exact h.frame hp hp' (by rw [hm]) hv' rfl
  | wait hk hh =>
    rename_i l l'
    cases l <;> cases hk
  | signal hk hh =>
    rename_i l l'
    cases l <;> cases hk
  | broadcast hk =>
    rename_i l l'
    cases l <;> cases hk
  | signalTest =>
    refine h.pass hp hp' (by rw [hm]) hv' ?_
    split
    · exact MonitorPoint.rest_signalled _ _
    · rfl
  | broadcastTest => exact h.pass hp hp' (by rw [hm]) hv' (by split <;> rfl)
  | _ => exact h.pass hp hp' (by rw [hm]) hv' rfl

lemma InPhase.step (h : InPhase input σ) (hs : Sane client v₀ σ) (hspare : Spares σ o)
    (hm : σ.Moves client.code o σ') : InPhase input σ' := by
  cases hs.steady.turn hm with
  | act hp hc hf hp' hv' hr ht => exact h.acts hs hspare hp hp' hv' (acts_of_code hc hf)
  | sleep hp hc hz hm hp' hv' hr ht =>
    have htokens : tokens σ' = tokens σ := by rw [tokens, tokens, hp', hv']
    rw [InPhase, hm, htokens]
    exact h
  | take hp hc hpos hm hp' hv' hr ht =>
    cases takes_of_code hc with
    | acquire hk =>
      rename_i k l l'
      cases l with
      | idle =>
        cases k <;> cases hk
        exact h.frame hp hp' (by rw [hm]) (by simp [hv']) rfl
      | _ => cases k <;> cases hk
    | outer hk =>
      rename_i k l l' s
      cases l <;> cases k <;> cases hk
    | inner hk =>
      rename_i k l l' s
      cases l with
      | wait =>
        cases hk
        -- the caller takes the character from the semaphore
        have hcount := Pool.countP_set (p := carries) hp (.inside .getChar)
        rw [← hp', show carries (.inside .getChar) = true from rfl, show carries (.inside .wait) = false from rfl,
          if_neg Bool.false_ne_true, if_pos rfl] at hcount
        have htokens : tokens σ' = tokens σ := by
          rw [tokens, tokens, hv', Function.update_self]
          omega
        rw [InPhase, hm, htokens]
        exact h
      | _ => cases hk
    | waitP => exact h.pass hp hp' (by rw [hm]) (by simp [hv']) rfl
    | waitAcquire => exact h.pass hp hp' (by rw [hm]) (by simp [hv']) rfl
  | raise hp hc hm hp' hv' hr ht =>
    cases raises_of_code hc with
    | outer hk =>
      rename_i l l' s
      cases l with
      | callBack =>
        cases hk
        have hcount := Pool.countP_set (p := carries) hp (.outside .device)
        rw [← hp', show carries (.outside .device) = false from rfl,
          show carries (.outside .callBack) = true from rfl, if_neg Bool.false_ne_true, if_pos rfl] at hcount
        have htokens : tokens σ' = tokens σ := by
          rw [tokens, tokens, hv', Function.update_self]
          omega
        rw [InPhase, hm, htokens]
        exact h
      | _ => cases hk' : o.2 <;> rw [hk'] at hk <;> cases hk
    | inner hk =>
      rename_i l l' s
      cases l <;> cases hk
    | releaseV => exact h.pass hp hp' (by rw [hm]) (by simp [hv']) (MonitorPoint.rest_released _ _)
    | signalV => exact h.pass hp hp' (by rw [hm]) (by simp [hv']) (MonitorPoint.rest_signalled _ _)

lemma InPhase.start (input : List Byte) (n : ℕ) : InPhase input (start input n) := by
  refine .polling rfl rfl rfl rfl ?_
  have hzero : (SynchConsoleInput.start input n).points.countP carries = 0 := by
    rw [List.countP_eq_zero]
    intro c hc
    simp only [SynchConsoleInput.start, Client.start, Concurrent.start, points, List.map_cons, List.map_replicate,
      ThreadState.point, List.mem_cons, List.mem_replicate] at hc
    obtain rfl | ⟨-, rfl⟩ := hc
    · exact Bool.false_ne_true
    · exact Bool.false_ne_true
  rw [tokens, hzero]
  rfl

/-- What callers of `GetChar` rely on: no assertion fails, at most one console read interrupt is
scheduled, one is scheduled or a character is buffered until the end of the input, and the
characters returned are those of the input, with `EOF` after its end. -/
structure Delivers (input : List Byte) (σ : State) : Prop where
  asserts : ∀ o e, σ.move client.code o ≠ some (.error e)
  scheduled : σ.memory.data.scheduled ≤ 1
  supplied : σ.memory.data.ended = false → σ.memory.data.scheduled = 1 ∨ σ.memory.data.incoming ≠ consoleEOF
  returned : σ.memory.data.returned <+: input ++ [consoleEOF]

end SynchConsoleInput

end NachosFileSys
