import NachosFileSys.Registers
import NachosFileSys.Synch

/-! `Scheduler` and `Thread`: one processor that the threads pass on through `Scheduler::Run`. A state stands
between two atomic sections, or at a place inside `Thread::Sleep` and `Scheduler::Run` where something else can
happen: while `Sleep` waits in `Interrupt::Idle`, right after `SWITCH`, and where `Run` has returned. `SWITCH`
resumes the chosen thread where it last switched out, or in `Thread::Begin`. -/

namespace NachosFileSys

open Lib.Runs

inductive ThreadStatus
  | justCreated | running | ready | blocked
  deriving DecidableEq

inductive Resume (S : Type)
  | begin
  | yielded
  | waiting (s : S)

inductive Mode (S : Type)
  -- the current thread runs, with interrupts on
  | running
  -- it is in the loop of `Sleep`, in `P` of a semaphore or in `Finish`
  | sleeping (reason : Option S)
  -- it has been switched to
  | switched
  -- it has returned from `Run`, or from `CheckToBeDestroyed` in `Begin`
  | returned

namespace Mode

variable {S : Type}

def awake : Mode S → Bool
  | .sleeping _ => false
  | _ => true

def finishing : Mode S → Bool
  | .sleeping none => true
  | _ => false

def isSwitched : Mode S → Bool
  | .switched => true
  | _ => false

end Mode

structure Space where
  pageTable : ℕ
  numPages : ℤ

/-- Threads are known by their PID; `left` holds the registers and the page table with which a thread last
called `Sleep` or gave up the processor in `Yield`, and `deleted` the threads deleted so far. -/
structure Processor (S : Type) where
  current : ℕ
  readyList : List ℕ
  toBeDestroyed : Option ℕ
  finishedThread : List ℕ
  threadNum : ℕ
  status : ℕ → ThreadStatus
  resumeAt : ℕ → Resume S
  semaphores : S → Semaphore
  mode : Mode S
  deleted : List ℕ
  registers : Registers
  userRegisters : ℕ → Registers
  space : ℕ → Option Space
  pageTable : Option Space
  left : ℕ → Option (Registers × Option Space)

inductive SchedulerOp (S : Type)
  | create
  | fork (thread : ℕ)
  | yield
  | finish
  | p (s : S)
  | v (s : S)
  -- what a thread does to the registers while it runs
  | compute (registers : Registers)
  | execute (space : Space)
  -- `Interrupt::CheckIfDue`, with the semaphores that its handlers raise
  | interrupt (raised : List S)
  -- `Sleep` has found a thread to run
  | dispatch
  | resume
  | proceed

namespace Processor

variable {S : Type} [DecidableEq S]

def boot (v₀ : S → ℤ) : Processor S where
  current := 0
  readyList := []
  toBeDestroyed := none
  finishedThread := []
  threadNum := 1
  status t := if t = 0 then .running else .justCreated
  resumeAt _ := .begin
  semaphores s := ⟨v₀ s, []⟩
  mode := .running
  deleted := []
  registers _ := 0
  userRegisters _ _ := 0
  space _ := none
  pageTable := none
  left _ := none

def setStatus (k : Processor S) (t : ℕ) (status : ThreadStatus) : Processor S :=
  { k with status := Function.update k.status t status }

omit [DecidableEq S] in
@[simp] lemma setStatus_current (k : Processor S) (t : ℕ) (status : ThreadStatus) :
    (k.setStatus t status).current = k.current := rfl

omit [DecidableEq S] in
@[simp] lemma setStatus_self (k : Processor S) (t : ℕ) (status : ThreadStatus) :
    (k.setStatus t status).status t = status := by
  simp [setStatus]

omit [DecidableEq S] in
lemma setStatus_of_ne (k : Processor S) {t u : ℕ} (status : ThreadStatus) (h : u ≠ t) :
    (k.setStatus t status).status u = k.status u := by
  simp [setStatus, h]

def readyToRun (t : ℕ) (k : Processor S) : Except Fault (Processor S) :=
  if t ∈ k.readyList then .error .assertion
  else .ok { k.setStatus t .ready with readyList := k.readyList ++ [t] }

/-- What `Scheduler::Run` does up to `SWITCH`; the old thread will go on at `next`. -/
def switchTo (thread : ℕ) (finishing : Bool) (next : Resume S) (k : Processor S) : Processor S :=
  { k with
    current := thread
    status := Function.update k.status thread .running
    toBeDestroyed := if finishing then some k.current else k.toBeDestroyed
    userRegisters := if (k.space k.current).isSome then Function.update k.userRegisters k.current k.registers
      else k.userRegisters
    resumeAt := Function.update k.resumeAt k.current next
    mode := .switched }

def run (thread : ℕ) (finishing : Bool) (next : Resume S) (k : Processor S) : Except Fault (Processor S) :=
  if finishing = true ∧ k.toBeDestroyed ≠ none then .error .assertion
  else .ok (k.switchTo thread finishing next)

def leave (k : Processor S) : Processor S :=
  { k with left := Function.update k.left k.current (some (k.registers, k.pageTable)) }

def sleep (reason : Option S) (k : Processor S) : Processor S :=
  { k.leave.setStatus k.current .blocked with mode := .sleeping reason }

def fork (t : ℕ) (k : Processor S) : Except Fault (Processor S) := k.readyToRun t

def yield (k : Processor S) : Except Fault (Processor S) :=
  match k.readyList with
  | [] => .ok k
  | next :: rest => do
    let k ← { k.leave with readyList := rest }.readyToRun k.current
    k.run next false .yielded

def yielding (rest : List ℕ) (k : Processor S) : Processor S :=
  { k.leave.setStatus k.current .ready with readyList := rest ++ [k.current] }

def finish (k : Processor S) : Except Fault (Processor S) :=
  if k.current ∈ k.finishedThread then .error .assertion
  else .ok ({ k with finishedThread := k.finishedThread ++ [k.current] }.sleep none)

def p (s : S) (k : Processor S) : Except Fault (Processor S) :=
  if (k.semaphores s).value = 0 then
    if k.current ∈ (k.semaphores s).queue then .error .assertion
    else .ok ({ k with
      semaphores := Function.update k.semaphores s
        ⟨(k.semaphores s).value, (k.semaphores s).queue ++ [k.current]⟩ }.sleep (some s))
  else .ok { k with
    semaphores := Function.update k.semaphores s ⟨(k.semaphores s).value - 1, (k.semaphores s).queue⟩
    mode := .running }

def v (s : S) (k : Processor S) : Except Fault (Processor S) :=
  match (k.semaphores s).queue with
  | [] => .ok { k with
    semaphores := Function.update k.semaphores s ⟨(k.semaphores s).value + 1, []⟩ }
  | t :: queue => { k with
    semaphores := Function.update k.semaphores s ⟨(k.semaphores s).value + 1, queue⟩ }.readyToRun t

def handlers : List S → Processor S → Except Fault (Processor S)
  | [], k => .ok k
  | s :: raised, k => do
    let k ← k.v s
    handlers raised k

def interrupt (raised : List S) (k : Processor S) : Except Fault (Processor S) :=
  handlers raised { k with registers := Registers.delayedLoad 0 0 k.registers }

def initRegisters (space : Space) : Registers :=
  let registers : Registers := fun _ => 0
  let registers := Registers.set registers Registers.pcReg 0
  let registers := Registers.set registers Registers.nextPCReg 4
  Registers.set registers Registers.stackReg (BitVec.ofInt 32 (space.numPages * 128 - 16))

def execute (space : Space) (k : Processor S) : Processor S :=
  { k with
    space := Function.update k.space k.current (some space)
    registers := initRegisters space
    pageTable := some space }

def checkToBeDestroyed (k : Processor S) : Except Fault (Processor S) :=
  match k.toBeDestroyed with
  | none => .ok k
  | some t =>
    if t = k.current then .error .assertion
    else .ok { k with toBeDestroyed := none, deleted := k.deleted ++ [t] }

def restore (k : Processor S) : Processor S :=
  match k.space k.current with
  | none => k
  | some space => { k with registers := k.userRegisters k.current, pageTable := some space }

def returnFrom (k : Processor S) : Processor S :=
  match k.resumeAt k.current with
  | .begin => { k with mode := .returned }
  | _ => { k.restore with mode := .returned }

def resume (k : Processor S) : Except Fault (Processor S) := k.checkToBeDestroyed.map returnFrom

def proceed (k : Processor S) : Except Fault (Processor S) :=
  match k.resumeAt k.current with
  | .waiting s => k.p s
  | _ => .ok { k with mode := .running }

def perform (k : Processor S) : SchedulerOp S → Option (Except Fault (Processor S))
  | .interrupt raised => match k.mode with
    | .running | .sleeping _ => some (k.interrupt raised)
    | _ => none
  | .dispatch => match k.mode, k.readyList with
    | .sleeping none, next :: rest => some ({ k with readyList := rest }.run next true .yielded)
    | .sleeping (some s), next :: rest => some ({ k with readyList := rest }.run next false (.waiting s))
    | _, _ => none
  | .resume => match k.mode with
    | .switched => some k.resume
    | _ => none
  | .proceed => match k.mode with
    | .returned => some k.proceed
    | _ => none
  | op => match k.mode with
    | .running => match op with
      | .create => some (.ok { k with threadNum := k.threadNum + 1 })
      | .fork t => some (k.fork t)
      | .yield => some k.yield
      | .finish => some k.finish
      | .p s => some (k.p s)
      | .v s => some (k.v s)
      | .compute registers => some (.ok { k with registers := registers })
      | .execute space => some (.ok (k.execute space))
      | _ => none
    | _ => none

def Performs (op : SchedulerOp S) (k k' : Processor S) : Prop := k.perform op = some (.ok k')

def Permitted (k : Processor S) : SchedulerOp S → Prop
  | .fork t => t < k.threadNum ∧ k.status t = .justCreated
  | _ => True

instance (k : Processor S) : (op : SchedulerOp S) → Decidable (k.Permitted op)
  | .fork t => inferInstanceAs (Decidable (t < k.threadNum ∧ k.status t = .justCreated))
  | .create | .yield | .finish | .p _ | .v _ | .compute _ | .execute _ | .interrupt _ | .dispatch | .resume
  | .proceed => .isTrue trivial

def follow : List (SchedulerOp S) → Processor S → Option (Processor S)
  | [], k => some k
  | op :: ops, k =>
    if k.Permitted op then
      match k.perform op with
      | some (.ok k') => follow ops k'
      | _ => none
    else none

abbrev Reachable (v₀ : S → ℤ) (k : Processor S) : Prop := Reaches Performs Permitted (boot v₀) k

/-- Which thread is where: `awake` where the current thread has the processor, `finishing` where it sleeps in
`Finish`, and `switched` right after `SWITCH`. -/
structure Arranged (awake finishing switched : Bool) (k : Processor S) : Prop where
  current_lt : k.current < k.threadNum
  unborn (t : ℕ) (h : k.threadNum ≤ t) : k.status t = .justCreated
  ready (t : ℕ) : t ∈ k.readyList ↔ k.status t = .ready
  ready_nodup : k.readyList.Nodup
  queued (s : S) (t : ℕ) (h : t ∈ (k.semaphores s).queue) : k.status t = .blocked ∧ t ∉ k.finishedThread
  queue_nodup (s : S) : (k.semaphores s).queue.Nodup
  queue_unique (s s' : S) (t : ℕ) (h : t ∈ (k.semaphores s).queue) (h' : t ∈ (k.semaphores s').queue) : s = s'
  running (t : ℕ) : k.status t = .running ↔ t = k.current ∧ awake = true
  finished (t : ℕ) : t ∈ k.finishedThread ↔
    t ∈ k.deleted ∨ k.toBeDestroyed = some t ∨ t = k.current ∧ finishing = true
  finished_blocked (t : ℕ) (h : t ∈ k.finishedThread) : k.status t = .blocked
  deleted_nodup : k.deleted.Nodup
  doomed (t : ℕ) (h : k.toBeDestroyed = some t) : switched = true ∧ t ∉ k.deleted
  current_live : k.current ∉ k.deleted

section Arranged

variable {k k' : Processor S} {awake finishing switched : Bool} {t : ℕ} {s : S}

omit [DecidableEq S] in
lemma Arranged.not_ready (h : Arranged awake finishing switched k) (ht : k.status t ≠ .ready) : t ∉ k.readyList :=
  fun hmem => ht ((h.ready t).mp hmem)

omit [DecidableEq S] in
lemma Arranged.current_unfinished (h : Arranged true finishing switched k) : k.current ∉ k.finishedThread := by
  intro hmem
  have hrun := (h.running k.current).mpr ⟨rfl, rfl⟩
  rw [h.finished_blocked _ hmem] at hrun
  cases hrun

omit [DecidableEq S] in
lemma Arranged.none_doomed (h : Arranged awake finishing false k) : k.toBeDestroyed = none := by
  cases hd : k.toBeDestroyed with
  | none => rfl
  | some t => cases (h.doomed t hd).1

omit [DecidableEq S] in
lemma Arranged.wakeUp (h : Arranged awake finishing switched k) (hlt : t < k.threadNum)
    (hst : k.status t = .justCreated ∨ k.status t = .blocked) (hf : t ∉ k.finishedThread)
    (hq : ∀ s, t ∉ (k.semaphores s).queue) :
    Arranged awake finishing switched { k.setStatus t .ready with readyList := k.readyList ++ [t] } := by
  have hready : k.status t ≠ .ready := by obtain hst | hst := hst <;> simp [hst]
  have hrunning : k.status t ≠ .running := by obtain hst | hst := hst <;> simp [hst]
  have hother : ∀ u, u ≠ t → (k.setStatus t .ready).status u = k.status u :=
    fun u hu => k.setStatus_of_ne .ready hu
  refine ⟨h.current_lt, fun u hu => ?_, fun u => ?_, ?_, fun s u hu => ?_, h.queue_nodup, h.queue_unique,
    fun u => ?_, h.finished, fun u hu => ?_, h.deleted_nodup, h.doomed, h.current_live⟩
  · have hne : u ≠ t := by
      rintro rfl
      exact absurd hlt (not_lt.mpr hu)
    exact (hother u hne).trans (h.unborn u hu)
  · rcases eq_or_ne u t with rfl | hne
    · simp
    · simp [hne, hother u hne, h.ready]
  · simpa using h.ready_nodup.concat (h.not_ready hready)
  · have hne : u ≠ t := by
      rintro rfl
      exact hq s hu
    exact ⟨(hother u hne).trans (h.queued s u hu).1, (h.queued s u hu).2⟩
  · rcases eq_or_ne u t with rfl | hne
    · have := (h.running u).not.mp hrunning
      simp [this]
    · simp [hother u hne, h.running]
  · have hne : u ≠ t := by
      rintro rfl
      exact hf hu
    exact (hother u hne).trans (h.finished_blocked u hu)

lemma Arranged.setSemaphore (h : Arranged awake finishing switched k) {m : Semaphore}
    (hm : m.queue.Sublist (k.semaphores s).queue) :
    Arranged awake finishing switched { k with semaphores := Function.update k.semaphores s m } := by
  have hsub : ∀ {s' u}, u ∈ (Function.update k.semaphores s m s').queue → u ∈ (k.semaphores s').queue := by
    intro s' u hu
    rcases eq_or_ne s' s with rfl | hne
    · exact hm.subset (by simpa using hu)
    · simpa [hne] using hu
  refine ⟨h.current_lt, h.unborn, h.ready, h.ready_nodup, fun s' u hu => h.queued s' u (hsub hu), fun s' => ?_,
    fun s₁ s₂ u h₁ h₂ => h.queue_unique s₁ s₂ u (hsub h₁) (hsub h₂), h.running, h.finished, h.finished_blocked,
    h.deleted_nodup, h.doomed, h.current_live⟩
  rcases eq_or_ne s' s with rfl | hne
  · simpa using (h.queue_nodup s').sublist hm
  · simpa [hne] using h.queue_nodup s'

lemma Arranged.v (h : Arranged awake finishing switched k) (s : S) :
    ∃ k', k.v s = .ok k' ∧ Arranged awake finishing switched k' := by
  unfold Processor.v
  split
  · exact ⟨_, rfl, h.setSemaphore (by simp)⟩
  · rename_i t queue hq
    have hmem : t ∈ (k.semaphores s).queue := by simp [hq]
    obtain ⟨hst, hf⟩ := h.queued s t hmem
    have hlt : t < k.threadNum := by
      by_contra hge
      rw [h.unborn t (not_lt.mp hge)] at hst
      cases hst
    have hnodup := h.queue_nodup s
    rw [hq, List.nodup_cons] at hnodup
    have h' := h.setSemaphore (s := s) (m := ⟨(k.semaphores s).value + 1, queue⟩) (by simp [hq])
    have hout : ∀ s', t ∉ (Function.update k.semaphores s ⟨(k.semaphores s).value + 1, queue⟩ s').queue := by
      intro s' ht
      rcases eq_or_ne s' s with rfl | hne
      · exact hnodup.1 (by simpa using ht)
      · exact hne (h.queue_unique s' s t (by simpa [hne] using ht) hmem)
    have hready : t ∉ k.readyList := h.not_ready (by simp [hst])
    refine ⟨_, ?_, h'.wakeUp hlt (.inr hst) hf hout⟩
    simp [readyToRun, hready]

lemma Arranged.handlers (h : Arranged awake finishing switched k) (raised : List S) :
    ∃ k', handlers raised k = .ok k' ∧ Arranged awake finishing switched k' := by
  induction raised generalizing k with
  | nil => exact ⟨k, rfl, h⟩
  | cons s raised ih =>
    obtain ⟨k₁, hv, h₁⟩ := h.v s
    obtain ⟨k', hk', h'⟩ := ih h₁
    refine ⟨k', ?_, h'⟩
    rw [Processor.handlers, hv]
    exact hk'

omit [DecidableEq S] in
lemma Arranged.yieldReady (h : Arranged true false switched k) :
    Arranged false false switched
    { k.setStatus k.current .ready with readyList := k.readyList ++ [k.current] } := by
  have hrun := (h.running k.current).mpr ⟨rfl, rfl⟩
  have hother : ∀ u, u ≠ k.current → (k.setStatus k.current .ready).status u = k.status u :=
    fun u hu => k.setStatus_of_ne .ready hu
  refine ⟨h.current_lt, fun u hu => ?_, fun u => ?_, ?_, fun s u hu => ?_, h.queue_nodup, h.queue_unique,
    fun u => ?_, h.finished, fun u hu => ?_, h.deleted_nodup, h.doomed, h.current_live⟩
  · have hne : u ≠ k.current := by
      rintro rfl
      exact absurd h.current_lt (not_lt.mpr hu)
    exact (hother u hne).trans (h.unborn u hu)
  · rcases eq_or_ne u k.current with rfl | hne
    · simp
    · simp [hne, hother u hne, h.ready]
  · simpa using h.ready_nodup.concat (h.not_ready (by simp [hrun]))
  · have hne : u ≠ k.current := by
      rintro rfl
      have := (h.queued s _ hu).1
      simp [hrun] at this
    exact ⟨(hother u hne).trans (h.queued s u hu).1, (h.queued s u hu).2⟩
  · rcases eq_or_ne u k.current with rfl | hne
    · simp
    · have := h.running u
      simp only [hne, false_and, iff_false] at this
      simp [hother u hne, this]
  · have hne : u ≠ k.current := by
      rintro rfl
      exact h.current_unfinished hu
    exact (hother u hne).trans (h.finished_blocked u hu)

omit [DecidableEq S] in
lemma Arranged.run {next : ℕ} (h : Arranged false finishing false { k with readyList := next :: k.readyList })
    (at_ : Resume S) : k.run next finishing at_ = .ok (k.switchTo next finishing at_) ∧
      Arranged true false true (k.switchTo next finishing at_) := by
  have hnone : k.toBeDestroyed = none := h.none_doomed
  have hready : k.status next = .ready := (h.ready next).mp (by simp)
  have hnodup := List.nodup_cons.mp h.ready_nodup
  have hother : ∀ u, u ≠ next → Function.update k.status next .running u = k.status u := fun u hu => by simp [hu]
  have hblocked : ∀ {u}, k.status u = .blocked → u ≠ next := by
    rintro u hu rfl
    simp [hready] at hu
  refine ⟨if_neg (by simp [hnone]), ⟨?_, fun u hu => ?_, fun u => ?_, hnodup.2,
    fun s u hu => ?_, h.queue_nodup, h.queue_unique, fun u => ?_, fun u => ?_, fun u hu => ?_, h.deleted_nodup,
    fun u hu => ?_, fun hmem => ?_⟩⟩
  · by_contra hge
    rw [h.unborn next (not_lt.mp hge)] at hready
    cases hready
  · have hne : u ≠ next := by
      rintro rfl
      rw [h.unborn u hu] at hready
      cases hready
    exact (hother u hne).trans (h.unborn u hu)
  · have := h.ready u
    rcases eq_or_ne u next with rfl | hne
    · simp [hnodup.1, switchTo]
    · simp only [List.mem_cons, hne, false_or] at this
      simpa [switchTo, hne] using this
  · have hq := h.queued s u hu
    exact ⟨(hother u (hblocked hq.1)).trans hq.1, hq.2⟩
  · have := h.running u
    rcases eq_or_ne u next with rfl | hne
    · simp [switchTo]
    · simp only [Bool.false_eq_true, and_false, iff_false] at this
      simp [switchTo, hne, this]
  · have := h.finished u
    cases finishing
    · simpa [switchTo, hnone] using this
    · have hcomm : k.current = u ↔ u = k.current := eq_comm
      simpa [switchTo, hnone, hcomm] using this
  · have hb := h.finished_blocked u hu
    exact (hother u (hblocked hb)).trans hb
  · cases finishing
    · simp [switchTo, hnone] at hu
    · obtain rfl : k.current = u := by simpa [switchTo] using hu
      exact ⟨rfl, h.current_live⟩
  · have hb := h.finished_blocked next ((h.finished next).mpr (.inl hmem))
    simp [hready] at hb

lemma Arranged.sleep (h : Arranged true false false k) {m : Semaphore}
    (hm : m.queue = (k.semaphores s).queue ++ [k.current]) :
    Arranged false false false
      ({ k with semaphores := Function.update k.semaphores s m }.sleep (some s)) := by
  have hrun := (h.running k.current).mpr ⟨rfl, rfl⟩
  have hother : ∀ u, u ≠ k.current → Function.update k.status k.current .blocked u = k.status u :=
    fun u hu => by simp [hu]
  have hfree : ∀ s', k.current ∉ (k.semaphores s').queue := by
    intro s' hmem
    have := (h.queued s' _ hmem).1
    simp [hrun] at this
  have hqueue : ∀ {s' u}, u ∈ (Function.update k.semaphores s m s').queue →
      u = k.current ∧ s' = s ∨ u ≠ k.current ∧ u ∈ (k.semaphores s').queue := by
    intro s' u hu
    rcases eq_or_ne s' s with rfl | hne
    · simp only [Function.update_self, hm, List.mem_append, List.mem_singleton] at hu
      obtain hu | rfl := hu
      · exact .inr ⟨fun he => hfree s' (he ▸ hu), hu⟩
      · exact .inl ⟨rfl, rfl⟩
    · simp only [Function.update_of_ne hne] at hu
      exact .inr ⟨fun he => hfree s' (he ▸ hu), hu⟩
  refine ⟨h.current_lt, fun u hu => ?_, fun u => ?_, h.ready_nodup, fun s' u hu => ?_, fun s' => ?_,
    fun s₁ s₂ u h₁ h₂ => ?_, fun u => ?_, h.finished, fun u hu => ?_, h.deleted_nodup, h.doomed, h.current_live⟩
  · have hne : u ≠ k.current := by
      rintro rfl
      exact absurd h.current_lt (not_lt.mpr hu)
    exact (hother u hne).trans (h.unborn u hu)
  · rcases eq_or_ne u k.current with rfl | hne
    · have := h.not_ready (t := k.current) (by simp [hrun])
      simp [Processor.sleep, leave, setStatus, this]
    · simpa [Processor.sleep, leave, setStatus, hne] using h.ready u
  · obtain ⟨rfl, -⟩ | ⟨hne, hu⟩ := hqueue hu
    · exact ⟨by simp [Processor.sleep, leave, setStatus], h.current_unfinished⟩
    · exact ⟨(hother u hne).trans (h.queued s' u hu).1, (h.queued s' u hu).2⟩
  · rcases eq_or_ne s' s with rfl | hne
    · have := (h.queue_nodup s').concat (hfree s')
      simpa [Processor.sleep, leave, setStatus, hm] using this
    · simpa [Processor.sleep, leave, setStatus, hne] using h.queue_nodup s'
  · obtain ⟨rfl, rfl⟩ | ⟨hne, h₁⟩ := hqueue h₁
    · obtain ⟨-, rfl⟩ | ⟨hne, -⟩ := hqueue h₂
      · rfl
      · exact absurd rfl hne
    · obtain ⟨he, -⟩ | ⟨-, h₂⟩ := hqueue h₂
      · exact absurd he hne
      · exact h.queue_unique s₁ s₂ u h₁ h₂
  · have := h.running u
    rcases eq_or_ne u k.current with rfl | hne
    · simp [Processor.sleep, leave, setStatus]
    · simp only [hne, false_and, iff_false] at this
      simp [Processor.sleep, leave, setStatus, hne, this]
  · have hne : u ≠ k.current := by
      rintro rfl
      exact h.current_unfinished hu
    exact (hother u hne).trans (h.finished_blocked u hu)

omit [DecidableEq S] in
lemma Arranged.finish (h : Arranged true false false k) :
    ∃ k', k.finish = .ok k' ∧ Arranged false true false k' ∧ k'.mode = .sleeping none := by
  have hrun := (h.running k.current).mpr ⟨rfl, rfl⟩
  have hother : ∀ u, u ≠ k.current → Function.update k.status k.current .blocked u = k.status u :=
    fun u hu => by simp [hu]
  refine ⟨_, if_neg h.current_unfinished, ⟨h.current_lt, fun u hu => ?_, fun u => ?_,
    h.ready_nodup, fun s' u hu => ?_, h.queue_nodup, h.queue_unique, fun u => ?_, fun u => ?_, fun u hu => ?_,
    h.deleted_nodup, h.doomed, h.current_live⟩, rfl⟩
  · have hne : u ≠ k.current := by
      rintro rfl
      exact absurd h.current_lt (not_lt.mpr hu)
    exact (hother u hne).trans (h.unborn u hu)
  · rcases eq_or_ne u k.current with rfl | hne
    · have := h.not_ready (t := k.current) (by simp [hrun])
      simp [Processor.sleep, leave, setStatus, this]
    · simpa [Processor.sleep, leave, setStatus, hne] using h.ready u
  · have hq := h.queued s' u hu
    have hne : u ≠ k.current := by
      rintro rfl
      simp [hrun] at hq
    exact ⟨(hother u hne).trans hq.1, by simp [Processor.sleep, leave, setStatus, hq.2, hne]⟩
  · have := h.running u
    rcases eq_or_ne u k.current with rfl | hne
    · simp [Processor.sleep, leave, setStatus]
    · simp only [hne, false_and, iff_false] at this
      simp [Processor.sleep, leave, setStatus, hne, this]
  · have := h.finished u
    simp only [Bool.false_eq_true, and_false, or_false] at this
    simp [Processor.sleep, leave, setStatus, this, or_assoc]
  · rcases eq_or_ne u k.current with rfl | hne
    · simp [Processor.sleep, leave, setStatus]
    · have hu' : u ∈ k.finishedThread := by simpa [Processor.sleep, leave, setStatus, hne] using hu
      exact (hother u hne).trans (h.finished_blocked u hu')

omit [DecidableEq S] in
lemma Arranged.checkToBeDestroyed (h : Arranged true false true k) :
    ∃ k', k.checkToBeDestroyed = .ok k' ∧ Arranged true false false k' ∧ k'.toBeDestroyed = none ∧
      k'.deleted = k.deleted ++ k.toBeDestroyed.toList := by
  unfold Processor.checkToBeDestroyed
  cases hd : k.toBeDestroyed with
  | none =>
    refine ⟨k, rfl, ⟨h.current_lt, h.unborn, h.ready, h.ready_nodup, h.queued, h.queue_nodup, h.queue_unique,
      h.running, h.finished, h.finished_blocked, h.deleted_nodup, fun t ht => ?_, h.current_live⟩, hd, by simp⟩
    simp [hd] at ht
  | some t =>
    have hmem : t ∈ k.finishedThread := (h.finished t).mpr (.inr (.inl hd))
    have hne : t ≠ k.current := by
      rintro rfl
      exact h.current_unfinished hmem
    have hnew := (h.doomed t hd).2
    refine ⟨_, if_neg hne, ⟨h.current_lt, h.unborn, h.ready, h.ready_nodup, h.queued,
      h.queue_nodup, h.queue_unique, h.running, fun u => ?_,
      h.finished_blocked, ?_, fun u hu => ?_, ?_⟩, rfl, by simp⟩
    · have := h.finished u
      simp only [hd, Option.some.injEq, Bool.false_eq_true, and_false, or_false] at this
      simp [this, eq_comm]
    · simpa using h.deleted_nodup.concat hnew
    · cases hu
    · simp [h.current_live, hne.symm]

omit [DecidableEq S] in
lemma Arranged.congr (h : Arranged awake finishing switched k) (hcurrent : k'.current = k.current)
    (hready : k'.readyList = k.readyList) (htbd : k'.toBeDestroyed = k.toBeDestroyed)
    (hfinished : k'.finishedThread = k.finishedThread) (hnum : k.threadNum ≤ k'.threadNum)
    (hstatus : k'.status = k.status) (hsem : k'.semaphores = k.semaphores) (hdeleted : k'.deleted = k.deleted) :
    Arranged awake finishing switched k' := by
  refine ⟨?_, fun t ht => ?_, ?_, ?_, ?_, ?_, ?_, ?_, ?_, ?_, ?_, ?_, ?_⟩
  · rw [hcurrent]
    exact h.current_lt.trans_le hnum
  · rw [hstatus]
    exact h.unborn t (hnum.trans ht)
  · rw [hready, hstatus]
    exact h.ready
  · rw [hready]
    exact h.ready_nodup
  · rw [hsem, hstatus, hfinished]
    exact h.queued
  · rw [hsem]
    exact h.queue_nodup
  · rw [hsem]
    exact h.queue_unique
  · rw [hstatus, hcurrent]
    exact h.running
  · rw [hfinished, hdeleted, htbd, hcurrent]
    exact h.finished
  · rw [hfinished, hstatus]
    exact h.finished_blocked
  · rw [hdeleted]
    exact h.deleted_nodup
  · rw [htbd, hdeleted]
    exact h.doomed
  · rw [hcurrent, hdeleted]
    exact h.current_live

lemma v_frame (h : k.v s = .ok k') :
    ∃ semaphores status readyList, k' = { k with
      semaphores := semaphores, status := status, readyList := readyList } := by
  unfold Processor.v at h
  split at h
  · cases h
    exact ⟨_, _, _, rfl⟩
  · unfold readyToRun at h
    split at h
    · cases h
    · cases h
      exact ⟨_, _, _, rfl⟩

lemma handlers_frame {raised : List S} (h : handlers raised k = .ok k') :
    ∃ semaphores status readyList, k' = { k with
      semaphores := semaphores, status := status, readyList := readyList } := by
  induction raised generalizing k with
  | nil =>
    cases h
    exact ⟨_, _, _, rfl⟩
  | cons s raised ih =>
    rw [Processor.handlers] at h
    cases hv : k.v s with
    | error e =>
      rw [hv] at h
      cases h
    | ok k₁ =>
      rw [hv] at h
      obtain ⟨_, _, _, rfl⟩ := v_frame hv
      obtain ⟨_, _, _, rfl⟩ := ih h
      exact ⟨_, _, _, rfl⟩

abbrev Orderly (k : Processor S) : Prop := Arranged k.mode.awake k.mode.finishing k.mode.isSwitched k

omit [DecidableEq S] in
lemma Orderly.boot (v₀ : S → ℤ) : Orderly (boot v₀) := by
  refine ⟨Nat.zero_lt_one, fun t ht => ?_, fun t => ?_, List.nodup_nil, fun s t ht => absurd ht List.not_mem_nil,
    fun s => List.nodup_nil, fun s s' t ht => absurd ht List.not_mem_nil, fun t => ?_, fun t => ?_,
    fun t ht => absurd ht List.not_mem_nil, List.nodup_nil, fun t ht => ?_, List.not_mem_nil⟩
  · have hne : t ≠ 0 := by
      rintro rfl
      cases ht
    simp [Processor.boot, hne]
  · by_cases h : t = 0 <;> simp [Processor.boot, h]
  · by_cases h : t = 0 <;> simp [Processor.boot, h, Mode.awake]
  · simp [Processor.boot, Mode.finishing]
  · cases ht

lemma Arranged.p (h : Arranged true false false k) (s : S) : ∃ k', k.p s = .ok k' ∧ Orderly k' := by
  have hfree : k.current ∉ (k.semaphores s).queue := by
    intro hmem
    have hb := (h.queued s _ hmem).1
    rw [(h.running k.current).mpr ⟨rfl, rfl⟩] at hb
    cases hb
  by_cases hv : (k.semaphores s).value = 0
  · have hok : k.p s = .ok _ := (if_pos hv).trans (if_neg hfree)
    exact ⟨_, hok, h.sleep rfl⟩
  · have hok : k.p s = .ok _ := if_neg hv
    refine ⟨_, hok, ?_⟩
    exact (h.setSemaphore (s := s) (m := ⟨(k.semaphores s).value - 1, (k.semaphores s).queue⟩)
      (List.Sublist.refl _)).congr rfl rfl rfl rfl le_rfl rfl rfl rfl

omit [DecidableEq S] in
lemma yield_eq {next : ℕ} {rest : List ℕ} (hr : k.readyList = next :: rest) (hc : k.current ∉ rest) :
    k.yield = (k.yielding rest).run next false .yielded := by
  simp only [Processor.yield, hr]
  rw [readyToRun, if_neg hc]
  rfl

omit [DecidableEq S] in
lemma Arranged.yield (h : Arranged true false false k) (hm : k.mode = .running) :
    ∃ k', k.yield = .ok k' ∧ Orderly k' := by
  cases hr : k.readyList with
  | nil =>
    have hok : k.yield = .ok k := by simp [Processor.yield, hr]
    refine ⟨k, hok, ?_⟩
    rw [Orderly, hm]
    exact h
  | cons next rest =>
    have hrun := (h.running k.current).mpr ⟨rfl, rfl⟩
    have hself : k.current ∉ rest := by
      intro hmem
      have := (h.ready k.current).mp (by simp [hr, hmem])
      simp [hrun] at this
    have hyield :
        Arranged false false false { k.yielding rest with readyList := next :: (k.yielding rest).readyList } :=
      h.yieldReady.congr rfl (by simp [yielding, hr]) rfl rfl le_rfl rfl rfl rfl
    obtain ⟨hok, harr⟩ := hyield.run .yielded
    exact ⟨_, (yield_eq hr hself).trans hok, harr⟩

lemma Orderly.interrupt (h : Orderly k) (raised : List S) : ∃ k', k.interrupt raised = .ok k' ∧ Orderly k' := by
  have h' : Orderly { k with registers := Registers.delayedLoad 0 0 k.registers } :=
    h.congr rfl rfl rfl rfl le_rfl rfl rfl rfl
  obtain ⟨k', hk', harr⟩ := h'.handlers raised
  refine ⟨k', hk', ?_⟩
  obtain ⟨_, _, _, rfl⟩ := handlers_frame hk'
  exact harr

lemma Orderly.v (h : Orderly k) (s : S) : ∃ k', k.v s = .ok k' ∧ Orderly k' := by
  obtain ⟨k', hk', harr⟩ := Arranged.v h s
  refine ⟨k', hk', ?_⟩
  obtain ⟨_, _, _, rfl⟩ := v_frame hk'
  exact harr

omit [DecidableEq S] in
lemma Orderly.fork (h : Orderly k) (hlt : t < k.threadNum) (hst : k.status t = .justCreated) :
    ∃ k', k.fork t = .ok k' ∧ Orderly k' := by
  have hready : t ∉ k.readyList := h.not_ready (by simp [hst])
  have hf : t ∉ k.finishedThread := fun hmem => by simp [h.finished_blocked t hmem] at hst
  have hq : ∀ s, t ∉ (k.semaphores s).queue := fun s hmem => by simp [(h.queued s t hmem).1] at hst
  have hok : k.fork t = .ok _ := if_neg hready
  exact ⟨_, hok, h.wakeUp hlt (.inl hst) hf hq⟩

omit [DecidableEq S] in
lemma Arranged.dispatch (h : Arranged false finishing false k) {next : ℕ} {rest : List ℕ}
    (hr : k.readyList = next :: rest) (at_ : Resume S) :
    ∃ k', Processor.run next finishing at_ { k with readyList := rest } = .ok k' ∧ Orderly k' := by
  have h' : Arranged false finishing false { k with readyList := next :: rest } :=
    h.congr rfl hr.symm rfl rfl le_rfl rfl rfl rfl
  obtain ⟨hok, harr⟩ := Arranged.run (k := { k with readyList := rest }) h' at_
  exact ⟨_, hok, harr⟩

omit [DecidableEq S] in
lemma Arranged.returnFrom (h : Arranged true false false k) : Orderly k.returnFrom := by
  unfold Processor.returnFrom
  split
  · exact h.congr rfl rfl rfl rfl le_rfl rfl rfl rfl
  · unfold restore
    split
    · exact h.congr rfl rfl rfl rfl le_rfl rfl rfl rfl
    · exact h.congr rfl rfl rfl rfl le_rfl rfl rfl rfl

omit [DecidableEq S] in
lemma Arranged.resume (h : Arranged true false true k) : ∃ k', k.resume = .ok k' ∧ Orderly k' := by
  obtain ⟨k₁, hk₁, h₁, -⟩ := h.checkToBeDestroyed
  have hok : k.resume = .ok k₁.returnFrom := by rw [Processor.resume, hk₁, Except.map]
  exact ⟨_, hok, h₁.returnFrom⟩

lemma Arranged.proceed (h : Arranged true false false k) : ∃ k', k.proceed = .ok k' ∧ Orderly k' := by
  unfold Processor.proceed
  split
  · rename_i s hr
    exact h.p s
  · exact ⟨_, rfl, h.congr rfl rfl rfl rfl le_rfl rfl rfl rfl⟩

lemma Orderly.performRunning (h : Orderly k) (hm : k.mode = .running) {op : SchedulerOp S} (hp : k.Permitted op)
    {r : Except Fault (Processor S)} (hr : k.perform op = some r) : ∃ k', r = .ok k' ∧ Orderly k' := by
  have h' : Arranged true false false k := by
    rw [Orderly, hm] at h
    exact h
  cases op with
  | create =>
    obtain rfl : _ = r := by simpa [Processor.perform, hm] using hr
    exact ⟨_, rfl, h'.congr rfl rfl rfl rfl (Nat.le_succ _) rfl rfl rfl⟩
  | fork t =>
    obtain rfl : _ = r := by simpa [Processor.perform, hm] using hr
    exact h.fork hp.1 hp.2
  | yield =>
    obtain rfl : _ = r := by simpa [Processor.perform, hm] using hr
    exact h'.yield hm
  | finish =>
    obtain rfl : _ = r := by simpa [Processor.perform, hm] using hr
    obtain ⟨k', hk', harr, hmode⟩ := h'.finish
    refine ⟨k', hk', ?_⟩
    rw [Orderly, hmode]
    exact harr
  | p s =>
    obtain rfl : _ = r := by simpa [Processor.perform, hm] using hr
    exact h'.p s
  | v s =>
    obtain rfl : _ = r := by simpa [Processor.perform, hm] using hr
    exact h.v s
  | compute registers =>
    obtain rfl : _ = r := by simpa [Processor.perform, hm] using hr
    exact ⟨_, rfl, h'.congr rfl rfl rfl rfl le_rfl rfl rfl rfl⟩
  | execute space =>
    obtain rfl : _ = r := by simpa [Processor.perform, hm] using hr
    exact ⟨_, rfl, h.congr rfl rfl rfl rfl le_rfl rfl rfl rfl⟩
  | interrupt raised =>
    obtain rfl : _ = r := by simpa [Processor.perform, hm] using hr
    exact h.interrupt raised
  | dispatch => simp [Processor.perform, hm] at hr
  | resume => simp [Processor.perform, hm] at hr
  | proceed => simp [Processor.perform, hm] at hr

lemma Orderly.perform (h : Orderly k) {op : SchedulerOp S} (hp : k.Permitted op) {r : Except Fault (Processor S)}
    (hr : k.perform op = some r) : ∃ k', r = .ok k' ∧ Orderly k' := by
  cases hm : k.mode with
  | running => exact h.performRunning hm hp hr
  | sleeping reason =>
    cases op with
    | interrupt raised =>
      obtain rfl : _ = r := by simpa [Processor.perform, hm] using hr
      exact h.interrupt raised
    | dispatch =>
      rw [Orderly, hm] at h
      cases hl : k.readyList with
      | nil => cases reason <;> simp [Processor.perform, hm, hl] at hr
      | cons next rest =>
        cases reason with
        | none =>
          obtain rfl : _ = r := by simpa [Processor.perform, hm, hl] using hr
          exact h.dispatch hl _
        | some s =>
          obtain rfl : _ = r := by simpa [Processor.perform, hm, hl] using hr
          exact h.dispatch hl _
    | _ => simp [Processor.perform, hm] at hr
  | switched =>
    cases op with
    | resume =>
      rw [Orderly, hm] at h
      obtain rfl : _ = r := by simpa [Processor.perform, hm] using hr
      exact h.resume
    | _ => simp [Processor.perform, hm] at hr
  | returned =>
    cases op with
    | proceed =>
      rw [Orderly, hm] at h
      obtain rfl : _ = r := by simpa [Processor.perform, hm] using hr
      exact h.proceed
    | _ => simp [Processor.perform, hm] at hr

lemma Orderly.reachable {v₀ : S → ℤ} (h : Reachable v₀ k) : Orderly k := by
  refine h.invariant (I := Orderly) (fun op k k' hk hp hr => ?_) (Orderly.boot v₀)
  obtain ⟨k₁, hok, h₁⟩ := hk.perform hp hr
  cases hok
  exact h₁

end Arranged

/-- In every state of every run: the current thread is the one that runs, or the one that waits in `Sleep`; the
ready list holds the ready threads, each once; every other thread is blocked or was never started; and a thread
that has finished is not run or made ready again, and is deleted once, by the next thread that runs, before
another thread's `Finish` comes to `Run`. No assertion of `Run`, `~Thread`, `Semaphore::P` or `List::Append`
fails. -/
theorem threads_partitioned (v₀ : S → ℤ) {k : Processor S} (h : Reachable v₀ k) :
    (∀ t, k.status t = .running ↔ t = k.current ∧ k.mode.awake = true) ∧
    (∀ t, t ∈ k.readyList ↔ k.status t = .ready) ∧ k.readyList.Nodup ∧
    (∀ t, t ≠ k.current → t ∉ k.readyList → k.status t = .justCreated ∨ k.status t = .blocked) ∧
    (∀ t ∈ k.finishedThread, t ∉ k.readyList ∧ k.status t ≠ .running ∧
      (t = k.current → k.mode = .sleeping none)) ∧
    k.deleted.Nodup ∧ (∀ t ∈ k.deleted, t ∈ k.finishedThread ∧ t ≠ k.current) ∧
    (k.mode.isSwitched = false → k.toBeDestroyed = none ∧
      ∀ t ∈ k.finishedThread, t ∈ k.deleted ∨ t = k.current ∧ k.mode = .sleeping none) ∧
    ∀ (op : SchedulerOp S) (e : Fault), k.Permitted op → k.perform op ≠ some (.error e) := by
  have hk := Orderly.reachable h
  have hfinishing : ∀ {t}, t = k.current ∧ k.mode.finishing = true → t = k.current ∧ k.mode = .sleeping none := by
    rintro t ⟨ht, hf⟩
    refine ⟨ht, ?_⟩
    cases hm : k.mode with
    | sleeping reason =>
      cases reason with
      | none => rfl
      | some s => simp [hm, Mode.finishing] at hf
    | _ => simp [hm, Mode.finishing] at hf
  have hlive : ∀ t ∈ k.deleted, t ∈ k.finishedThread := fun t ht => (hk.finished t).mpr (.inl ht)
  have hcurrent : ∀ t ∈ k.deleted, t ≠ k.current := by
    rintro t ht rfl
    exact hk.current_live ht
  refine ⟨hk.running, hk.ready, hk.ready_nodup, fun t hne hr => ?_, fun t ht => ?_, hk.deleted_nodup,
    fun t ht => ⟨hlive t ht, hcurrent t ht⟩, fun hs => ?_, fun op e hp he => ?_⟩
  · rw [hk.ready] at hr
    have hrun : k.status t ≠ .running := fun h => hne ((hk.running t).mp h).1
    cases hst : k.status t <;> simp_all
  · have hb := hk.finished_blocked t ht
    refine ⟨hk.not_ready (by simp [hb]), by simp [hb], fun htc => ?_⟩
    obtain hd | hd | hd := (hk.finished t).mp ht
    · exact absurd htc (hcurrent t hd)
    · -- it would run on while it waits to be deleted
      have hsw := (hk.doomed t hd).1
      have hawake : k.mode.awake = true := by
        cases hm : k.mode <;> simp_all [Mode.isSwitched, Mode.awake]
      have := (hk.running t).mpr ⟨htc, hawake⟩
      simp [hb] at this
    · exact (hfinishing hd).2
  · rw [Orderly, hs] at hk
    refine ⟨hk.none_doomed, fun t ht => ?_⟩
    obtain hd | hd | hd := (hk.finished t).mp ht
    · exact .inl hd
    · simp [hk.none_doomed] at hd
    · exact .inr (hfinishing hd)
  · obtain ⟨k', hok, -⟩ := hk.perform hp he
    cases hok

lemma follow_reaches {k k' : Processor S} {ops : List (SchedulerOp S)} (h : follow ops k = some k') :
    Reaches Performs Permitted k k' := by
  induction ops generalizing k with
  | nil =>
    cases h
    exact .refl
  | cons op ops ih =>
    unfold follow at h
    split at h
    · rename_i hp
      split at h
      · rename_i k₁ hk
        exact (Reaches.step op .refl hp hk).trans (ih h)
      · cases h
    · cases h

def forkFinish : List (SchedulerOp Unit) :=
  [.create, .fork 1, .yield, .resume, .proceed, .finish, .dispatch, .resume]

theorem threads_partitioned_finished :
    ∃ k, follow forkFinish (boot fun _ => 0) = some k ∧ k.deleted = [1] ∧
      (∀ t ∈ k.deleted, t ∈ k.finishedThread ∧ t ≠ k.current) ∧ k.toBeDestroyed = none := by
  obtain ⟨k, hk, hd, hm⟩ : ∃ k, follow forkFinish (boot fun _ => 0) = some k ∧ k.deleted = [1] ∧
      k.mode = .returned := ⟨_, rfl, rfl, rfl⟩
  obtain ⟨-, -, -, -, -, -, hdeleted, hdone, -⟩ := threads_partitioned (fun _ => 0) (follow_reaches hk)
  exact ⟨k, hk, hd, hdeleted, (hdone (by rw [hm]; rfl)).1⟩

end Processor

end NachosFileSys
