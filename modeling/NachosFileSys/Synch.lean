import Mathlib.Data.List.Nodup
import NachosFileSys.Lib.Threads
import NachosFileSys.Lib.Runs
import NachosFileSys.Kernel

/-! `Semaphore::P` and `Semaphore::V` under every interleaving. Interrupts are off inside both, so that a
call is one move except where `P` sleeps: then the thread leaves the processor inside its loop, and its
next move tests the value again. Between any two moves any thread that is not asleep may run. -/

namespace NachosFileSys

open Lib.Runs Lib.Threads

structure Semaphore where
  value : ℤ
  queue : List ℕ

inductive ThreadState (S C : Type)
  | ready (c : C)
  -- in the queue of `s`, in the loop of the `P` that it called at `c`
  | asleep (c : C) (s : S) (next : C)
  -- taken from the queue of `s` by a `V`, not yet resumed
  | woken (c : C) (s : S) (next : C)

/-- The next statement of a thread: one that touches the shared memory only, or a call of `P` or `V`. -/
inductive Stmt (S M C : Type)
  | act (f : M → Except Fault (M × C))
  | p (s : S) (next : C)
  | v (s : S) (next : C)

/-- The machine, with the number of calls of `V` and of decrements of `P` so far. -/
structure Concurrent (S M C : Type) where
  memory : M
  semaphores : S → Semaphore
  threads : List (ThreadState S C)
  raised : S → ℕ
  taken : S → ℕ

variable {S M C K : Type} [DecidableEq S]

def ThreadState.wake : ThreadState S C → ThreadState S C
  | .asleep c s next => .woken c s next
  | st => st

def ThreadState.point : ThreadState S C → C
  | .ready c => c
  | .asleep c _ _ => c
  | .woken c _ _ => c

def ThreadState.wokenOn (s : S) : ThreadState S C → Bool
  | .woken _ s' _ => s' = s
  | _ => false

namespace Concurrent

/-- `Semaphore::P` of thread `t`, from the test of its loop on. `List::Append` asserts that the thread
is not in the queue. -/
def p (t : ℕ) (c : C) (s : S) (next : C) (σ : Concurrent S M C) : Except Fault (Concurrent S M C) :=
  if (σ.semaphores s).value = 0 then
    if t ∈ (σ.semaphores s).queue then .error .assertion
    else .ok { σ with
      semaphores := Function.update σ.semaphores s ⟨(σ.semaphores s).value, (σ.semaphores s).queue ++ [t]⟩
      threads := σ.threads.set t (.asleep c s next) }
  else .ok { σ with
    semaphores := Function.update σ.semaphores s ⟨(σ.semaphores s).value - 1, (σ.semaphores s).queue⟩
    threads := σ.threads.set t (.ready next)
    taken := Function.update σ.taken s (σ.taken s + 1) }

def v (t : ℕ) (s : S) (next : C) (σ : Concurrent S M C) : Concurrent S M C :=
  match (σ.semaphores s).queue with
  | [] => { σ with
    semaphores := Function.update σ.semaphores s ⟨(σ.semaphores s).value + 1, []⟩
    threads := σ.threads.set t (.ready next)
    raised := Function.update σ.raised s (σ.raised s + 1) }
  | u :: queue => { σ with
    semaphores := Function.update σ.semaphores s ⟨(σ.semaphores s).value + 1, queue⟩
    threads := (σ.threads.modify u .wake).set t (.ready next)
    raised := Function.update σ.raised s (σ.raised s + 1) }

/-- The move of thread `t`, which runs `code` with the choice `k`; none where the thread cannot run. -/
def move (code : K → ℕ → C → Option (Stmt S M C)) (o : ℕ × K) (σ : Concurrent S M C) :
    Option (Except Fault (Concurrent S M C)) :=
  match σ.threads[o.1]? with
  | none => none
  | some (.asleep _ _ _) => none
  | some (.woken c s next) => some (σ.p o.1 c s next)
  | some (.ready c) => (code o.2 o.1 c).map fun
    | .act f => (f σ.memory).map fun r => { σ with memory := r.1, threads := σ.threads.set o.1 (.ready r.2) }
    | .p s next => σ.p o.1 c s next
    | .v s next => .ok (σ.v o.1 s next)

def Moves (code : K → ℕ → C → Option (Stmt S M C)) (o : ℕ × K) (σ σ' : Concurrent S M C) : Prop :=
  σ.move code o = some (.ok σ')

def start (m : M) (v₀ : S → ℤ) (cs : List C) : Concurrent S M C :=
  ⟨m, fun s => ⟨v₀ s, []⟩, cs.map .ready, fun _ => 0, fun _ => 0⟩

def Wants (code : K → ℕ → C → Option (Stmt S M C)) (o : ℕ × K) (σ : Concurrent S M C) (c : C) (s : S) (next : C) :
    Prop :=
  σ.threads[o.1]? = some (.woken c s next) ∨
    σ.threads[o.1]? = some (.ready c) ∧ code o.2 o.1 c = some (.p s next)

/-- What the semaphores and the threads agree on in every state of a run. -/
structure Sound (v₀ : S → ℤ) (σ : Concurrent S M C) : Prop where
  nonneg (s : S) : 0 ≤ (σ.semaphores s).value
  balance (s : S) : (σ.semaphores s).value = v₀ s + σ.raised s - σ.taken s
  nodup (s : S) : (σ.semaphores s).queue.Nodup
  queued (s : S) (t : ℕ) : t ∈ (σ.semaphores s).queue ↔ ∃ c next, σ.threads[t]? = some (.asleep c s next)
  pending (s : S) (h : (σ.semaphores s).queue ≠ []) :
    (σ.semaphores s).value ≤ σ.threads.countP (ThreadState.wokenOn s)

inductive Effect (code : K → ℕ → C → Option (Stmt S M C)) (o : ℕ × K) (σ : Concurrent S M C) :
    Concurrent S M C → Prop
  | act {c c' : C} {f : M → Except Fault (M × C)} {m : M} (ht : σ.threads[o.1]? = some (.ready c))
      (hc : code o.2 o.1 c = some (.act f)) (hf : f σ.memory = .ok (m, c')) :
      Effect code o σ { σ with memory := m, threads := σ.threads.set o.1 (.ready c') }
  | sleep {c : C} {s : S} {next : C} (ht : σ.Wants code o c s next) (hv : (σ.semaphores s).value = 0) :
      Effect code o σ { σ with
        semaphores := Function.update σ.semaphores s ⟨(σ.semaphores s).value, (σ.semaphores s).queue ++ [o.1]⟩
        threads := σ.threads.set o.1 (.asleep c s next) }
  | take {c : C} {s : S} {next : C} (ht : σ.Wants code o c s next) (hv : 0 < (σ.semaphores s).value) :
      Effect code o σ { σ with
        semaphores := Function.update σ.semaphores s ⟨(σ.semaphores s).value - 1, (σ.semaphores s).queue⟩
        threads := σ.threads.set o.1 (.ready next)
        taken := Function.update σ.taken s (σ.taken s + 1) }
  | raise {c : C} {s : S} {next : C} (ht : σ.threads[o.1]? = some (.ready c))
      (hc : code o.2 o.1 c = some (.v s next)) (hq : (σ.semaphores s).queue = []) :
      Effect code o σ { σ with
        semaphores := Function.update σ.semaphores s ⟨(σ.semaphores s).value + 1, []⟩
        threads := σ.threads.set o.1 (.ready next)
        raised := Function.update σ.raised s (σ.raised s + 1) }
  | wake {c c' : C} {s : S} {next next' : C} {u : ℕ} {queue : List ℕ} (ht : σ.threads[o.1]? = some (.ready c))
      (hc : code o.2 o.1 c = some (.v s next)) (hq : (σ.semaphores s).queue = u :: queue)
      (hu : σ.threads[u]? = some (.asleep c' s next')) (hne : u ≠ o.1) :
      Effect code o σ { σ with
        semaphores := Function.update σ.semaphores s ⟨(σ.semaphores s).value + 1, queue⟩
        threads := (σ.threads.set u (.woken c' s next')).set o.1 (.ready next)
        raised := Function.update σ.raised s (σ.raised s + 1) }

section Sound

variable {code : K → ℕ → C → Option (Stmt S M C)} {o : ℕ × K}
  {v₀ : S → ℤ} {σ σ' : Concurrent S M C} {c : C} {s : S}
  {next : C}

lemma Sound.asleep_of_front (hs : σ.Sound v₀) {u : ℕ} {queue : List ℕ} (hq : (σ.semaphores s).queue = u :: queue) :
    ∃ c next, σ.threads[u]? = some (.asleep c s next) := by
  apply (hs.queued s u).mp
  simp [hq]

omit [DecidableEq S] in
lemma Wants.not_asleep (h : σ.Wants code o c s next) {c' next' : C} {s' : S} :
    σ.threads[o.1]? ≠ some (.asleep c' s' next') := by
  intro ha
  obtain h | ⟨h, -⟩ := h <;> simp [h] at ha

lemma Wants.move_eq (h : σ.Wants code o c s next) : σ.move code o = some (σ.p o.1 c s next) := by
  obtain h | ⟨h, hc⟩ := h
  · simp only [move, h]
  · simp only [move, h, hc, Option.map_some]

lemma Wants.not_queued (hs : σ.Sound v₀) (h : σ.Wants code o c s next) (s' : S) :
    o.1 ∉ (σ.semaphores s').queue := by
  intro hmem
  obtain ⟨c', next', ha⟩ := (hs.queued s' o.1).mp hmem
  exact h.not_asleep ha

lemma Sound.p_effect (hs : σ.Sound v₀) (h : σ.Wants code o c s next) (hp : σ.p o.1 c s next = .ok σ') :
    Effect code o σ σ' := by
  have hmem := h.not_queued hs s
  unfold Concurrent.p at hp
  rw [if_neg hmem] at hp
  split at hp
  · rename_i hv
    cases hp
    exact .sleep h hv
  · rename_i hv
    have := hs.nonneg s
    cases hp
    exact .take h (by omega)

lemma Sound.v_effect (hs : σ.Sound v₀) (ht : σ.threads[o.1]? = some (.ready c))
    (hc : code o.2 o.1 c = some (.v s next)) : Effect code o σ (σ.v o.1 s next) := by
  unfold Concurrent.v
  split
  · rename_i hq
    exact .raise ht hc hq
  · rename_i u queue hq
    obtain ⟨c', next', hu⟩ := hs.asleep_of_front hq
    have hne : u ≠ o.1 := by
      rintro rfl
      simp [hu] at ht
    have hmod : σ.threads.modify u ThreadState.wake = σ.threads.set u (.woken c' s next') := by
      rw [List.modify_eq_set_getElem?, hu]
      rfl
    rw [hmod]
    exact .wake ht hc hq hu hne

lemma Sound.effect (hs : σ.Sound v₀) (h : σ.Moves code o σ') : Effect code o σ σ' := by
  unfold Moves move at h
  split at h
  · cases h
  · cases h
  · rename_i c s next ht
    exact hs.p_effect (.inl ht) (Option.some.inj h)
  · rename_i c ht
    obtain ⟨stmt, hc, h⟩ := Option.map_eq_some_iff.mp h
    cases stmt with
    | act f =>
      cases hf : f σ.memory with
      | error e => simp [hf, Except.map] at h
      | ok r =>
        simp only [hf, Except.map, Except.ok.injEq] at h
        subst h
        exact .act ht hc hf
    | p s next => exact hs.p_effect (.inr ⟨ht, hc⟩) h
    | v s next =>
      cases h
      exact hs.v_effect ht hc

lemma Sound.fault (hs : σ.Sound v₀) {e : Fault} (h : σ.move code o = some (.error e)) :
    ∃ c f, σ.threads[o.1]? = some (.ready c) ∧ code o.2 o.1 c = some (.act f) ∧ f σ.memory = .error e := by
  have hp : ∀ {c s next}, σ.Wants code o c s next → σ.p o.1 c s next ≠ .error e := by
    intro c s next hw he
    have hmem := hw.not_queued hs s
    unfold Concurrent.p at he
    rw [if_neg hmem] at he
    split at he <;> cases he
  unfold move at h
  split at h
  · cases h
  · cases h
  · rename_i c s next ht
    exact absurd (Option.some.inj h) (hp (.inl ht))
  · rename_i c ht
    obtain ⟨stmt, hc, h⟩ := Option.map_eq_some_iff.mp h
    cases stmt with
    | act f =>
      cases hf : f σ.memory with
      | error e' =>
        simp only [hf, Except.map, Except.error.injEq] at h
        exact ⟨c, f, ht, hc, hf.trans (by rw [h])⟩
      | ok r => simp [hf, Except.map] at h
    | p s next => exact absurd h (hp (.inr ⟨ht, hc⟩))
    | v s next => cases h

lemma countP_wokenOn_set {t : ℕ} {st st' : ThreadState S C} (ht : σ.threads[t]? = some st)
    (h : st.wokenOn s = st'.wokenOn s) :
    (σ.threads.set t st').countP (ThreadState.wokenOn s) = σ.threads.countP (ThreadState.wokenOn s) := by
  have := Pool.countP_set (p := ThreadState.wokenOn s) ht st'
  rw [h] at this
  omega

lemma Wants.getElem? (h : σ.Wants code o c s next) :
    ∃ st, σ.threads[o.1]? = some st ∧ st.point = c ∧ ∀ s', st.wokenOn s' = true → s' = s := by
  obtain h | ⟨h, -⟩ := h
  · exact ⟨_, h, rfl, fun s' h' => by simpa [ThreadState.wokenOn, eq_comm] using h'⟩
  · exact ⟨_, h, rfl, fun s' h' => by simp [ThreadState.wokenOn] at h'⟩

lemma Sound.asleep_set (hs : σ.Sound v₀) {t : ℕ} (st : ThreadState S C)
    (ht : ∀ c s next, σ.threads[t]? ≠ some (.asleep c s next)) (hst : ∀ c s next, st ≠ .asleep c s next) (s : S)
    (u : ℕ) :
    u ∈ (σ.semaphores s).queue ↔ ∃ c next, (σ.threads.set t st)[u]? = some (.asleep c s next) := by
  rw [hs.queued s u]
  by_cases hu : u = t
  · subst hu
    have hno : ¬ ∃ c next, (σ.threads.set u st)[u]? = some (.asleep c s next) := by
      rintro ⟨c, next, h⟩
      rw [List.getElem?_set_self'] at h
      cases hx : σ.threads[u]? <;> simp [hx, hst] at h
    simp [ht, hno]
  · simp [List.getElem?_set_ne (Ne.symm hu)]

lemma Sound.sleep (hs : σ.Sound v₀) (h : σ.Wants code o c s next) (hv : (σ.semaphores s).value = 0) :
    Sound v₀ { σ with
      semaphores := Function.update σ.semaphores s ⟨(σ.semaphores s).value, (σ.semaphores s).queue ++ [o.1]⟩
      threads := σ.threads.set o.1 (.asleep c s next) } := by
  obtain ⟨st, ht, -, hst⟩ := h.getElem?
  have hlt : o.1 < σ.threads.length := (List.getElem?_eq_some_iff.mp ht).1
  refine ⟨fun s' => ?_, fun s' => ?_, fun s' => ?_, fun s' u => ?_, fun s' hq => ?_⟩
  · rcases eq_or_ne s' s with rfl | hne
    · simpa using hs.nonneg s'
    · simpa [hne] using hs.nonneg s'
  · rcases eq_or_ne s' s with rfl | hne
    · simpa using hs.balance s'
    · simpa [hne] using hs.balance s'
  · rcases eq_or_ne s' s with rfl | hne
    · have hmem := h.not_queued hs s'
      simpa using (hs.nodup s').concat hmem
    · simpa [hne] using hs.nodup s'
  · rcases eq_or_ne s' s with rfl | hne
    · rcases eq_or_ne u o.1 with rfl | hu
      · simp [hlt]
      · simp [hu, List.getElem?_set_ne hu.symm, hs.queued]
    · rcases eq_or_ne u o.1 with rfl | hu
      · have hmem := h.not_queued hs s'
        simp [hne, hlt, hmem, hne.symm]
      · simp [hne, List.getElem?_set_ne hu.symm, hs.queued]
  · rcases eq_or_ne s' s with rfl | hne
    · simp [hv]
    · have hold : st.wokenOn s' = false := by
        cases hw : st.wokenOn s' with
        | false => rfl
        | true => exact absurd (hst s' hw) hne
      simp only [countP_wokenOn_set ht (hold.trans rfl : _ = (ThreadState.asleep c s next).wokenOn s')]
      simpa [hne] using hs.pending s' (by simpa [hne] using hq)

lemma Sound.take (hs : σ.Sound v₀) (h : σ.Wants code o c s next) (hv : 0 < (σ.semaphores s).value) :
    Sound v₀ { σ with
      semaphores := Function.update σ.semaphores s ⟨(σ.semaphores s).value - 1, (σ.semaphores s).queue⟩
      threads := σ.threads.set o.1 (.ready next)
      taken := Function.update σ.taken s (σ.taken s + 1) } := by
  obtain ⟨st, ht, -, hst⟩ := h.getElem?
  have hcount := fun s' => Pool.countP_set (p := ThreadState.wokenOn s') ht (.ready next)
  refine ⟨fun s' => ?_, fun s' => ?_, fun s' => ?_, fun s' u => ?_, fun s' hq => ?_⟩
  · rcases eq_or_ne s' s with rfl | hne
    · simp
      omega
    · simpa [hne] using hs.nonneg s'
  · have := hs.balance s'
    rcases eq_or_ne s' s with rfl | hne
    · simp
      omega
    · simpa [hne] using this
  · rcases eq_or_ne s' s with rfl | hne
    · simpa using hs.nodup s'
    · simpa [hne] using hs.nodup s'
  · have hset := hs.asleep_set (.ready next) (fun _ _ _ => h.not_asleep) (by simp) s' u
    rcases eq_or_ne s' s with rfl | hne
    · simpa using hset
    · simpa [hne] using hset
  · have hcount := hcount s'
    rcases eq_or_ne s' s with rfl | hne
    · have hp := hs.pending s' (by simpa using hq)
      have hnew : (ThreadState.ready next : ThreadState S C).wokenOn s' = false := rfl
      rw [hnew] at hcount
      simp only [Function.update_self]
      split at hcount <;> simp at hcount <;> omega
    · have hp := hs.pending s' (by simpa [hne] using hq)
      have hold : st.wokenOn s' = false := by
        cases hw : st.wokenOn s' with
        | false => rfl
        | true => exact absurd (hst s' hw) hne
      simp only [countP_wokenOn_set ht (hold.trans rfl : _ = (ThreadState.ready next).wokenOn s')]
      simpa [hne] using hp

lemma Sound.act (hs : σ.Sound v₀) {c' : C} (ht : σ.threads[o.1]? = some (.ready c)) (m : M) :
    Sound v₀ { σ with memory := m, threads := σ.threads.set o.1 (.ready c') } where
  nonneg := hs.nonneg
  balance := hs.balance
  nodup := hs.nodup
  queued := hs.asleep_set _ (by simp [ht]) (by simp)
  pending s h := by
    simp only [countP_wokenOn_set ht (rfl : _ = (ThreadState.ready c').wokenOn s)]
    exact hs.pending s h

lemma Sound.raise (hs : σ.Sound v₀) (ht : σ.threads[o.1]? = some (.ready c))
    (hq : (σ.semaphores s).queue = []) :
    Sound v₀ { σ with
      semaphores := Function.update σ.semaphores s ⟨(σ.semaphores s).value + 1, []⟩
      threads := σ.threads.set o.1 (.ready next)
      raised := Function.update σ.raised s (σ.raised s + 1) } := by
  refine ⟨fun s' => ?_, fun s' => ?_, fun s' => ?_, fun s' u => ?_, fun s' h => ?_⟩
  · have := hs.nonneg s'
    rcases eq_or_ne s' s with rfl | hne
    · simp
      omega
    · simpa [hne] using this
  · have := hs.balance s'
    rcases eq_or_ne s' s with rfl | hne
    · simp
      omega
    · simpa [hne] using this
  · rcases eq_or_ne s' s with rfl | hne
    · simp
    · simpa [hne] using hs.nodup s'
  · have hset := hs.asleep_set (t := o.1) (.ready next) (by simp [ht]) (by simp) s' u
    rcases eq_or_ne s' s with rfl | hne
    · rw [hq] at hset
      simpa using hset
    · simpa [hne] using hset
  · rcases eq_or_ne s' s with rfl | hne
    · simp at h
    · simp only [countP_wokenOn_set ht (rfl : _ = (ThreadState.ready next).wokenOn s')]
      simpa [hne] using hs.pending s' (by simpa [hne] using h)

lemma Sound.wake (hs : σ.Sound v₀) {c' next' : C} {u : ℕ} {queue : List ℕ} (ht : σ.threads[o.1]? = some (.ready c))
    (hq : (σ.semaphores s).queue = u :: queue) (hu : σ.threads[u]? = some (.asleep c' s next')) (hne : u ≠ o.1) :
    Sound v₀ { σ with
      semaphores := Function.update σ.semaphores s ⟨(σ.semaphores s).value + 1, queue⟩
      threads := (σ.threads.set u (.woken c' s next')).set o.1 (.ready next)
      raised := Function.update σ.raised s (σ.raised s + 1) } := by
  have hlt : u < σ.threads.length := (List.getElem?_eq_some_iff.mp hu).1
  have ht' : (σ.threads.set u (.woken c' s next'))[o.1]? = some (.ready c) := by
    rw [List.getElem?_set_ne hne]
    exact ht
  have hnodup := hs.nodup s
  rw [hq, List.nodup_cons] at hnodup
  have hcount :
      ∀ s', ((σ.threads.set u (.woken c' s next')).set o.1 (.ready next)).countP (ThreadState.wokenOn s') =
      σ.threads.countP (ThreadState.wokenOn s') + if s' = s then 1 else 0 := by
    intro s'
    have h₁ := Pool.countP_set (p := ThreadState.wokenOn s') hu (.woken c' s next')
    have h₂ := Pool.countP_set (p := ThreadState.wokenOn s') ht' (.ready next)
    simp only [ThreadState.wokenOn, Bool.false_eq_true, if_false, decide_eq_true_eq] at h₁ h₂
    simp only [eq_comm (a := s')]
    omega
  refine ⟨fun s' => ?_, fun s' => ?_, fun s' => ?_, fun s' w => ?_, fun s' h => ?_⟩
  · have := hs.nonneg s'
    rcases eq_or_ne s' s with rfl | hne'
    · simp
      omega
    · simpa [hne'] using this
  · have := hs.balance s'
    rcases eq_or_ne s' s with rfl | hne'
    · simp
      omega
    · simpa [hne'] using this
  · rcases eq_or_ne s' s with rfl | hne'
    · simpa using hnodup.2
    · simpa [hne'] using hs.nodup s'
  · have hold := hs.queued s' w
    -- the thread that was taken is on no queue, and every other one stays where it was
    rcases eq_or_ne w o.1 with rfl | hwt
    · have hlt' : o.1 < σ.threads.length := (List.getElem?_eq_some_iff.mp ht).1
      rcases eq_or_ne s' s with rfl | hne'
      · simp only [hq, ht] at hold
        simp_all
      · simp_all
    · rw [List.getElem?_set_ne hwt.symm]
      rcases eq_or_ne w u with rfl | hwu
      · rcases eq_or_ne s' s with rfl | hne'
        · simp [hlt, hnodup.1]
        · simp only [hu] at hold
          simp [hlt, hne', hold, hne'.symm]
      · rw [List.getElem?_set_ne hwu.symm, ← hold]
        rcases eq_or_ne s' s with rfl | hne'
        · simp [hq, hwu]
        · simp [hne']
  · rw [hcount]
    rcases eq_or_ne s' s with rfl | hne'
    · have := hs.pending s' (by simp [hq])
      simp
      omega
    · simpa [hne'] using hs.pending s' (by simpa [hne'] using h)

lemma Effect.sound (h : Effect code o σ σ') (hs : σ.Sound v₀) : σ'.Sound v₀ := by
  cases h with
  | act ht hc hf => exact hs.act ht _
  | sleep ht hv => exact hs.sleep ht hv
  | take ht hv => exact hs.take ht hv
  | raise ht hc hq => exact hs.raise ht hq
  | wake ht hc hq hu hne => exact hs.wake ht hq hu hne

def Sited (code : K → ℕ → C → Option (Stmt S M C)) (σ : Concurrent S M C) : Prop :=
  ∀ t c s next, σ.threads[t]? = some (.asleep c s next) ∨ σ.threads[t]? = some (.woken c s next) →
    ∃ k, code k t c = some (.p s next)

omit [DecidableEq S] in
lemma Sited.set (hd : Sited code σ) {t : ℕ} {w : ThreadState S C}
    (hst : ∀ c s next, w = .asleep c s next ∨ w = .woken c s next → ∃ k, code k t c = some (.p s next)) :
    Sited code { σ with threads := σ.threads.set t w } := by
  intro u c s next h
  rcases eq_or_ne u t with rfl | hne
  · simp only [List.getElem?_set_self'] at h
    cases hx : σ.threads[u]? with
    | none => simp [hx] at h
    | some st' => exact hst c s next (by simpa [hx] using h)
  · simp only [List.getElem?_set_ne hne.symm] at h
    exact hd u c s next h

omit [DecidableEq S] in
lemma Wants.called (hd : Sited code σ) (h : σ.Wants code o c s next) : ∃ k, code k o.1 c = some (.p s next) := by
  obtain h | ⟨-, h⟩ := h
  · exact hd o.1 c s next (.inr h)
  · exact ⟨o.2, h⟩

lemma Effect.sited (h : Effect code o σ σ') (hd : Sited code σ) : Sited code σ' := by
  cases h with
  | act ht hc hf => exact hd.set (by simp)
  | sleep ht hv =>
    apply hd.set
    rintro c s next (h | h) <;> cases h
    exact ht.called hd
  | take ht hv => exact hd.set (by simp)
  | raise ht hc hq => exact hd.set (by simp)
  | @wake _ c' s _ next' u _ ht hc hq hu hne =>
    have hd' := hd.set (t := u) (w := .woken c' s next') (by
      rintro c s next (h | h) <;> cases h
      exact hd _ _ _ _ (.inl hu))
    exact hd'.set (by simp)

def points (σ : Concurrent S M C) : List C := σ.threads.map ThreadState.point

def value (σ : Concurrent S M C) (s : S) : ℤ := (σ.semaphores s).value

/-- What a move does, as far as the points of the threads and the values of the semaphores show it: a
thread that goes to sleep does not leave its point. -/
inductive Turn (code : K → ℕ → C → Option (Stmt S M C)) (o : ℕ × K) (σ σ' : Concurrent S M C) : Prop
  | act {c c' : C} {f : M → Except Fault (M × C)} (hp : σ.points[o.1]? = some c)
      (hc : code o.2 o.1 c = some (.act f)) (hf : f σ.memory = .ok (σ'.memory, c'))
      (hp' : σ'.points = σ.points.set o.1 c') (hv' : σ'.value = σ.value) (hr : σ'.raised = σ.raised)
      (ht : σ'.taken = σ.taken)
  | sleep {c next : C} {s : S} {k : K} (hp : σ.points[o.1]? = some c) (hc : code k o.1 c = some (.p s next))
      (hv : σ.value s = 0) (hm : σ'.memory = σ.memory) (hp' : σ'.points = σ.points) (hv' : σ'.value = σ.value)
      (hr : σ'.raised = σ.raised) (ht : σ'.taken = σ.taken)
  | take {c next : C} {s : S} {k : K} (hp : σ.points[o.1]? = some c) (hc : code k o.1 c = some (.p s next))
      (hv : 0 < σ.value s) (hm : σ'.memory = σ.memory) (hp' : σ'.points = σ.points.set o.1 next)
      (hv' : σ'.value = Function.update σ.value s (σ.value s - 1)) (hr : σ'.raised = σ.raised)
      (ht : σ'.taken = Function.update σ.taken s (σ.taken s + 1))
  | raise {c next : C} {s : S} (hp : σ.points[o.1]? = some c) (hc : code o.2 o.1 c = some (.v s next))
      (hm : σ'.memory = σ.memory) (hp' : σ'.points = σ.points.set o.1 next)
      (hv' : σ'.value = Function.update σ.value s (σ.value s + 1))
      (hr : σ'.raised = Function.update σ.raised s (σ.raised s + 1)) (ht : σ'.taken = σ.taken)

omit [DecidableEq S] in
lemma points_getElem? {t : ℕ} {st : ThreadState S C} (h : σ.threads[t]? = some st) :
    σ.points[t]? = some st.point := by
  simp [points, h]

lemma value_update {semaphores : S → Semaphore} {m : Semaphore} :
    (fun s' => (Function.update semaphores s m s').value) =
      Function.update (fun s' => (semaphores s').value) s m.value := by
  funext s'
  rcases eq_or_ne s' s with rfl | hne
  · simp
  · simp [hne]

omit [DecidableEq S] in
lemma map_point_set_self {t : ℕ} {st st' : ThreadState S C} (h : σ.threads[t]? = some st)
    (hp : st'.point = st.point) :
    (σ.threads.set t st').map ThreadState.point = σ.points := by
  obtain ⟨hlt, hget⟩ := List.getElem?_eq_some_iff.mp (points_getElem? h)
  rw [List.map_set, hp, ← hget]
  exact List.set_getElem_self hlt

lemma Effect.turn (h : Effect code o σ σ') (hd : Sited code σ) : Turn code o σ σ' := by
  cases h with
  | act ht hc hf => exact .act (points_getElem? ht) hc hf (by simp [points, ThreadState.point]) rfl rfl rfl
  | sleep ht hv =>
    obtain ⟨st, hst, hpoint, -⟩ := ht.getElem?
    obtain ⟨k, hk⟩ := ht.called hd
    have hp := points_getElem? hst
    rw [hpoint] at hp
    refine .sleep hp hk hv rfl (map_point_set_self hst hpoint.symm) ?_ rfl rfl
    exact value_update.trans (Function.update_eq_self _ _)
  | take ht hv =>
    obtain ⟨st, hst, hpoint, -⟩ := ht.getElem?
    obtain ⟨k, hk⟩ := ht.called hd
    have hp := points_getElem? hst
    rw [hpoint] at hp
    exact .take hp hk hv rfl (by simp [points, ThreadState.point]) value_update rfl rfl
  | raise ht hc hq =>
    exact .raise (points_getElem? ht) hc rfl (by simp [points, ThreadState.point]) value_update rfl rfl
  | wake ht hc hq hu hne =>
    rename_i c c' s next next' u queue
    have hself : (σ.threads.set u (.woken c' s next')).map ThreadState.point = σ.points :=
      map_point_set_self hu rfl
    refine .raise (points_getElem? ht) hc rfl ?_ value_update rfl rfl
    rw [points, List.map_set, hself]
    rfl

structure Steady (code : K → ℕ → C → Option (Stmt S M C)) (v₀ : S → ℤ) (σ : Concurrent S M C) : Prop
    extends Sound v₀ σ where
  sited : Sited code σ

lemma Steady.turn (hs : σ.Steady code v₀) (h : σ.Moves code o σ') : Turn code o σ σ' :=
  (hs.effect h).turn hs.sited

lemma Steady.step (hs : σ.Steady code v₀) (h : σ.Moves code o σ') : σ'.Steady code v₀ :=
  ⟨(hs.effect h).sound hs.toSound, (hs.effect h).sited hs.sited⟩

structure Guards (code : K → ℕ → C → Option (Stmt S M C)) (s : S) (holds : C → Bool) : Prop where
  act {k : K} {t : ℕ} {c c' : C} {f : M → Except Fault (M × C)} {m m' : M} (hc : code k t c = some (.act f))
    (hf : f m = .ok (m', c')) : holds c' = holds c
  take {k : K} {t : ℕ} {c next : C} (hc : code k t c = some (.p s next)) : holds c = false ∧ holds next = true
  give {k : K} {t : ℕ} {c next : C} (hc : code k t c = some (.v s next)) : holds c = true ∧ holds next = false
  p {k : K} {t : ℕ} {c next : C} {s' : S} (hc : code k t c = some (.p s' next)) (hne : s' ≠ s) :
      holds next = holds c
  v {k : K} {t : ℕ} {c next : C} {s' : S} (hc : code k t c = some (.v s' next)) (hne : s' ≠ s) :
      holds next = holds c

lemma Guards.turn {holds : C → Bool} (hg : Guards code s holds) (h : Turn code o σ σ') :
    σ'.value s + σ'.points.countP holds = σ.value s + σ.points.countP holds := by
  cases h with
  | act hp hc hf hp' hv' hr ht =>
    rename_i c c' f
    have hcount := Pool.countP_set (p := holds) hp c'
    rw [hg.act hc hf, ← hp'] at hcount
    rw [hv']
    omega
  | sleep hp hc hv hm hp' hv' hr ht => rw [hp', hv']
  | take hp hc hv hm hp' hv' hr ht =>
    rename_i c next s' k
    have hcount := Pool.countP_set (p := holds) hp next
    rw [← hp'] at hcount
    rcases eq_or_ne s' s with rfl | hne
    · obtain ⟨h₁, h₂⟩ := hg.take hc
      rw [hv', Function.update_self]
      simp [h₁, h₂] at hcount
      omega
    · rw [hg.p hc hne] at hcount
      rw [hv', Function.update_of_ne hne.symm]
      omega
  | raise hp hc hm hp' hv' hr ht =>
    rename_i c next s'
    have hcount := Pool.countP_set (p := holds) hp next
    rw [← hp'] at hcount
    rcases eq_or_ne s' s with rfl | hne
    · obtain ⟨h₁, h₂⟩ := hg.give hc
      rw [hv', Function.update_self]
      simp [h₁, h₂] at hcount
      omega
    · rw [hg.v hc hne] at hcount
      rw [hv', Function.update_of_ne hne.symm]
      omega

lemma Sound.start (m : M) {v₀ : S → ℤ} (h₀ : ∀ s, 0 ≤ v₀ s) (cs : List C) : (start m v₀ cs).Sound v₀ where
  nonneg s := h₀ s
  balance s := by simp [Concurrent.start]
  nodup s := List.nodup_nil
  queued s t := by
    simp only [Concurrent.start, List.not_mem_nil, false_iff]
    rintro ⟨c, next, h⟩
    simp at h
  pending s h := absurd rfl h

def run (code : K → ℕ → C → Option (Stmt S M C)) : List (ℕ × K) → Concurrent S M C → Option (Concurrent S M C)
  | [], σ => some σ
  | o :: os, σ => match σ.move code o with
    | some (.ok σ') => run code os σ'
    | _ => none

abbrev Run (code : K → ℕ → C → Option (Stmt S M C)) : Concurrent S M C → Concurrent S M C → Prop :=
  Reaches (Moves code) fun _ _ => True

lemma run_reaches {os : List (ℕ × K)} (h : run code os σ = some σ') : Run code σ σ' := by
  induction os generalizing σ with
  | nil =>
    cases h
    exact .refl
  | cons o os ih =>
    unfold run at h
    split at h
    · rename_i σ₁ hm
      exact (Reaches.step o .refl trivial hm).trans (ih h)
    · cases h

lemma Steady.start (m : M) {v₀ : S → ℤ} (h₀ : ∀ s, 0 ≤ v₀ s) (cs : List C) : (start m v₀ cs).Steady code v₀ where
  toSound := Sound.start m h₀ cs
  sited t c s next h := by simp [Concurrent.start] at h

lemma Sound.run (hs : σ.Sound v₀) (h : Run code σ σ') : σ'.Sound v₀ :=
  h.invariant (I := Sound v₀) (fun _ _ _ hs _ hm => (hs.effect hm).sound hs) hs

end Sound

/-- In every state of every run: the value is not negative and is what the calls so far add up to; no
thread is queued twice and every queued thread is asleep; and where a thread is queued, the value is at
most the number of threads that `V` has woken and that have not run since, so that there is no state in
which the value is positive, a thread is queued and no wakeup is on its way. -/
theorem semaphore_accounting (code : K → ℕ → C → Option (Stmt S M C)) (m : M) {v₀ : S → ℤ} (h₀ : ∀ s, 0 ≤ v₀ s)
    (cs : List C) {σ : Concurrent S M C} (h : Run code (start m v₀ cs) σ) (s : S) :
    0 ≤ (σ.semaphores s).value ∧
    (σ.semaphores s).value = v₀ s + σ.raised s - σ.taken s ∧
    (σ.semaphores s).queue.Nodup ∧
    (∀ t ∈ (σ.semaphores s).queue, ∃ c next, σ.threads[t]? = some (.asleep c s next)) ∧
    ((σ.semaphores s).queue ≠ [] → (σ.semaphores s).value ≤ σ.threads.countP (ThreadState.wokenOn s)) ∧
    ¬ (0 < (σ.semaphores s).value ∧ (σ.semaphores s).queue ≠ [] ∧
      ∀ (t : ℕ) (c next : C), σ.threads[t]? ≠ some (.woken c s next)) ∧
    -- `P` never trips over the assertion of `List::Append`
    ∀ (o : ℕ × K) (c next : C), σ.Wants code o c s next → ∃ σ', σ.move code o = some (.ok σ') := by
  have hs : σ.Sound v₀ := (Sound.start m h₀ cs).run h
  refine ⟨hs.nonneg s, hs.balance s, hs.nodup s, fun t => (hs.queued s t).mp,
      hs.pending s, ?_, fun o c next hw => ?_⟩
  · rintro ⟨hpos, hq, hnone⟩
    have hle := hs.pending s hq
    have hcount : 0 < σ.threads.countP (ThreadState.wokenOn s) := by omega
    obtain ⟨st, hst, hw⟩ := List.countP_pos_iff.mp hcount
    obtain ⟨t, ht⟩ := List.mem_iff_getElem?.mp hst
    cases st with
    | ready c => simp [ThreadState.wokenOn] at hw
    | asleep c s' next => simp [ThreadState.wokenOn] at hw
    | woken c s' next =>
      obtain rfl : s' = s := by simpa [ThreadState.wokenOn] using hw
      exact hnone t c next ht
  · cases hm : σ.move code o with
    | none => simp [hw.move_eq] at hm
    | some r =>
      cases r with
      | ok σ' => exact ⟨σ', rfl⟩
      | error e =>
        obtain ⟨c', f, ht, hc, -⟩ := hs.fault hm
        obtain hw | ⟨hw, hc'⟩ := hw
        · simp [hw] at ht
        · rw [hw] at ht
          cases ht
          simp [hc] at hc'

def anyCalls (call : Bool) (_ : ℕ) (_ : Unit) : Option (Stmt Unit Unit Unit) :=
  some (if call then .p () () else .v () ())

/-- Two threads sleep; a `V` wakes the first, and a fourth thread takes the value before it runs. -/
theorem semaphore_accounting_overtaken :
    ∃ σ, run anyCalls [(0, true), (1, true), (2, false), (3, true), (0, true)]
        (start () (fun _ => 0) [(), (), (), ()]) = some σ ∧
      (σ.semaphores ()).queue = [1, 0] ∧ (σ.semaphores ()).value = 0 + (σ.raised () : ℤ) - σ.taken () ∧
      (σ.semaphores ()).value ≤ σ.threads.countP (ThreadState.wokenOn ()) := by
  obtain ⟨σ, hσ, hq⟩ : ∃ σ, run anyCalls [(0, true), (1, true), (2, false), (3, true), (0, true)]
      (start () (fun _ => 0) [(), (), (), ()]) = some σ ∧ (σ.semaphores ()).queue = [1, 0] := ⟨_, rfl, rfl⟩
  obtain ⟨-, hbalance, -, -, hpending, -⟩ :=
    semaphore_accounting anyCalls () (fun _ => le_refl 0) _ (run_reaches hσ) ()
  exact ⟨σ, hσ, hq, hbalance, hpending (by simp [hq])⟩

end Concurrent

end NachosFileSys
