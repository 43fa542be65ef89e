import NachosFileSys.Synch

/-! `Lock` and `Condition`, statement by statement, for threads that use one lock and one condition. What
else the threads do is a parameter, the `Client`: outside the monitor it may acquire the lock, inside it may
release it, wait, signal and broadcast, and on both sides it may touch its own data and other semaphores. -/

namespace NachosFileSys

open Lib.Runs Lib.Threads Concurrent

/-- The semaphores: the one of the lock, those that `Condition::Wait` allocates, and those of the client. -/
inductive Sem (S : Type)
  | lock
  | waiter (w : ℕ)
  | other (s : S)
  deriving DecidableEq

structure Monitor where
  lockHolder : Option ℕ
  waitQueue : List ℕ
  -- how many semaphores `Wait` has allocated, and those that it has appended, in order
  allocated : ℕ
  appended : List ℕ

def Monitor.new : Monitor := ⟨none, [], 0, []⟩

structure Memory (D : Type) where
  monitor : Monitor
  data : D

inductive OuterCall (S D L : Type)
  | act (f : D → Except Fault (D × L))
  | acquire (next : L)
  | p (s : S) (next : L)
  | v (s : S) (next : L)

inductive InnerCall (S D L : Type)
  | act (f : D → Except Fault (D × L))
  | release (next : L)
  | wait (next : L)
  | signal (next : L)
  | broadcast (next : L)
  | p (s : S) (next : L)
  | v (s : S) (next : L)

structure Client (S D K L : Type) where
  outer : K → ℕ → L → Option (OuterCall S D L)
  inner : K → ℕ → L → Option (InnerCall S D L)

/-- Where a thread stands, with what the client does next. `Release` is also called by `Wait`, with the
waiter, and `Signal` also by `Broadcast`. -/
inductive MonitorPoint (L : Type)
  | outside (l : L)
  -- after the `P` of `Acquire`
  | acquired (l : L)
  | inside (l : L)
  | releaseAssert (w : ℕ) (l : L)
  | releaseClear (w : Option ℕ) (l : L)
  | releaseV (w : Option ℕ) (l : L)
  | waitNew (l : L)
  | waitAppend (w : ℕ) (l : L)
  | waitP (w : ℕ) (l : L)
  | waitAcquire (l : L)
  | signalAssert (l : L)
  | signalTest (broadcast : Bool) (l : L)
  | signalRemove (broadcast : Bool) (l : L)
  | signalV (w : ℕ) (broadcast : Bool) (l : L)
  | broadcastTest (l : L)

namespace MonitorPoint

variable {L : Type}

def rest : MonitorPoint L → L
  | .outside l | .acquired l | .inside l | .releaseAssert _ l | .releaseClear _ l | .releaseV _ l | .waitNew l
  | .waitAppend _ l | .waitP _ l | .waitAcquire l | .signalAssert l | .signalTest _ l | .signalRemove _ l
  | .signalV _ _ l | .broadcastTest l => l

def holds : MonitorPoint L → Bool
  | .outside _ | .waitP _ _ | .waitAcquire _ => false
  | _ => true

def settled : MonitorPoint L → Bool
  | .outside _ | .waitP _ _ | .waitAcquire _ | .acquired _ | .releaseV _ _ => false
  | _ => true

def waiter : MonitorPoint L → Option ℕ
  | .releaseAssert w _ | .waitP w _ => some w
  | .releaseClear w _ | .releaseV w _ => w
  | _ => none

def removed : MonitorPoint L → Option ℕ
  | .signalV w _ _ => some w
  | _ => none

def allocated : MonitorPoint L → Option ℕ
  | .waitAppend w _ => some w
  | _ => none

def removing : MonitorPoint L → Option Unit
  | .signalRemove _ _ => some ()
  | _ => none

def signalled (broadcast : Bool) (l : L) : MonitorPoint L := if broadcast then .broadcastTest l else .inside l

def released (w : Option ℕ) (l : L) : MonitorPoint L :=
  match w with
  | none => .outside l
  | some w => .waitP w l

lemma holds_of_removed (c : MonitorPoint L) (h : c.removed.isSome = true) : c.holds = true := by
  cases c <;> first | rfl | cases h

lemma holds_of_allocated (c : MonitorPoint L) (h : c.allocated.isSome = true) : c.holds = true := by
  cases c <;> first | rfl | cases h

lemma holds_of_removing (c : MonitorPoint L) (h : c.removing.isSome = true) : c.holds = true := by
  cases c <;> first | rfl | cases h

section After

variable (b : Bool) (w : Option ℕ) (l : L)

@[simp] lemma rest_signalled : (signalled b l).rest = l := by cases b <;> rfl
@[simp] lemma rest_released : (released w l).rest = l := by cases w <;> rfl
@[simp] lemma holds_signalled : (signalled b l).holds = true := by cases b <;> rfl
@[simp] lemma waiter_signalled : (signalled b l).waiter = none := by cases b <;> rfl
@[simp] lemma removed_signalled : (signalled b l).removed = none := by cases b <;> rfl
@[simp] lemma allocated_signalled : (signalled b l).allocated = none := by cases b <;> rfl
@[simp] lemma removing_signalled : (signalled b l).removing = none := by cases b <;> rfl
@[simp] lemma holds_released : (released w l).holds = false := by cases w <;> rfl
@[simp] lemma settled_released : (released w l).settled = false := by cases w <;> rfl
@[simp] lemma waiter_released : (released w l).waiter = w := by cases w <;> rfl
@[simp] lemma removed_released : (released w l).removed = none := by cases w <;> rfl
@[simp] lemma allocated_released : (released w l).allocated = none := by cases w <;> rfl
@[simp] lemma removing_released : (released w l).removing = none := by cases w <;> rfl

end After

end MonitorPoint

namespace Client

variable {S D K L : Type} (cl : Client S D K L) (k : K) (t : ℕ)

abbrev MonitorStmt (S D L : Type) := Stmt (Sem S) (Memory D) (MonitorPoint L)

def onData (f : D → Except Fault (D × L)) (next : L → MonitorPoint L) : MonitorStmt S D L :=
  .act fun m => (f m.data).map fun r => ({ m with data := r.1 }, next r.2)

def onMonitor (f : Monitor → Monitor × MonitorPoint L) : MonitorStmt S D L :=
  .act fun m => .ok ({ m with monitor := (f m.monitor).1 }, (f m.monitor).2)

def assertHeld (next : MonitorPoint L) : MonitorStmt S D L :=
  .act fun m => if m.monitor.lockHolder = some t then .ok (m, next) else .error .assertion

def broadcastLoop (l : L) : MonitorStmt S D L :=
  onMonitor fun m => (m, if m.waitQueue = [] then .inside l else .signalAssert l)

def code : MonitorPoint L → Option (MonitorStmt S D L)
  | .outside l => (cl.outer k t l).map fun
    | .act f => onData f .outside
    | .acquire next => .p .lock (.acquired next)
    | .p s next => .p (.other s) (.outside next)
    | .v s next => .v (.other s) (.outside next)
  | .inside l => (cl.inner k t l).map fun
    | .act f => onData f .inside
    | .release next => assertHeld t (.releaseClear none next)
    | .wait next => assertHeld t (.waitNew next)
    | .signal next => assertHeld t (.signalTest false next)
    | .broadcast next => broadcastLoop next
    | .p s next => .p (.other s) (.inside next)
    | .v s next => .v (.other s) (.inside next)
  | .acquired l => some (onMonitor fun m => ({ m with lockHolder := some t }, .inside l))
  | .releaseAssert w l => some (assertHeld t (.releaseClear (some w) l))
  | .releaseClear w l => some (onMonitor fun m => ({ m with lockHolder := none }, .releaseV w l))
  | .releaseV w l => some (.v .lock (.released w l))
  | .waitNew l => some (onMonitor fun m => ({ m with allocated := m.allocated + 1 }, .waitAppend m.allocated l))
  | .waitAppend w l => some (.act fun m =>
    if w ∈ m.monitor.waitQueue then .error .assertion
    else .ok ({ m with monitor := { m.monitor with
      waitQueue := m.monitor.waitQueue ++ [w], appended := m.monitor.appended ++ [w] } }, .releaseAssert w l))
  | .waitP w l => some (.p (.waiter w) (.waitAcquire l))
  | .waitAcquire l => some (.p .lock (.acquired l))
  | .signalAssert l => some (assertHeld t (.signalTest true l))
  | .signalTest b l =>
    some (onMonitor fun m => (m, if m.waitQueue = [] then .signalled b l else .signalRemove b l))
  | .signalRemove b l => some (.act fun m => match m.monitor.waitQueue with
    | [] => .error .assertion
    | w :: queue => .ok ({ m with monitor := { m.monitor with waitQueue := queue } }, .signalV w b l))
  | .signalV w b l => some (.v (.waiter w) (.signalled b l))
  | .broadcastTest l => some (broadcastLoop l)

inductive Acts (m : Memory D) : MonitorPoint L → Memory D → MonitorPoint L → Prop
  | outer {l l' : L} {f : D → Except Fault (D × L)} {d : D} (hk : cl.outer k t l = some (.act f))
      (hf : f m.data = .ok (d, l')) : Acts m (.outside l) { m with data := d } (.outside l')
  | inner {l l' : L} {f : D → Except Fault (D × L)} {d : D} (hk : cl.inner k t l = some (.act f))
      (hf : f m.data = .ok (d, l')) : Acts m (.inside l) { m with data := d } (.inside l')
  | release {l l' : L} (hk : cl.inner k t l = some (.release l')) (hh : m.monitor.lockHolder = some t) :
      Acts m (.inside l) m (.releaseClear none l')
  | wait {l l' : L} (hk : cl.inner k t l = some (.wait l')) (hh : m.monitor.lockHolder = some t) :
      Acts m (.inside l) m (.waitNew l')
  | signal {l l' : L} (hk : cl.inner k t l = some (.signal l')) (hh : m.monitor.lockHolder = some t) :
      Acts m (.inside l) m (.signalTest false l')
  | broadcast {l l' : L} (hk : cl.inner k t l = some (.broadcast l')) :
      Acts m (.inside l) m (if m.monitor.waitQueue = [] then .inside l' else .signalAssert l')
  | acquired {l : L} :
      Acts m (.acquired l) { m with monitor := { m.monitor with lockHolder := some t } } (.inside l)
  | releaseAssert {w : ℕ} {l : L} (hh : m.monitor.lockHolder = some t) :
      Acts m (.releaseAssert w l) m (.releaseClear (some w) l)
  | releaseClear {w : Option ℕ} {l : L} :
      Acts m (.releaseClear w l) { m with monitor := { m.monitor with lockHolder := none } } (.releaseV w l)
  | waitNew {l : L} :
      Acts m (.waitNew l) { m with monitor := { m.monitor with allocated := m.monitor.allocated + 1 } }
      (.waitAppend m.monitor.allocated l)
  | waitAppend {w : ℕ} {l : L} : Acts m (.waitAppend w l)
      { m with monitor := { m.monitor with
        waitQueue := m.monitor.waitQueue ++ [w], appended := m.monitor.appended ++ [w] } } (.releaseAssert w l)
  | signalAssert {l : L} (hh : m.monitor.lockHolder = some t) : Acts m (.signalAssert l) m (.signalTest true l)
  | signalTest {b : Bool} {l : L} : Acts m (.signalTest b l) m
      (if m.monitor.waitQueue = [] then .signalled b l else .signalRemove b l)
  | signalRemove {w : ℕ} {queue : List ℕ} {b : Bool} {l : L} (hq : m.monitor.waitQueue = w :: queue) :
      Acts m (.signalRemove b l) { m with monitor := { m.monitor with waitQueue := queue } } (.signalV w b l)
  | broadcastTest {l : L} : Acts m (.broadcastTest l) m
      (if m.monitor.waitQueue = [] then .inside l else .signalAssert l)

inductive Takes : MonitorPoint L → Sem S → MonitorPoint L → Prop
  | acquire {l l' : L} (hk : cl.outer k t l = some (.acquire l')) : Takes (.outside l) .lock (.acquired l')
  | outer {l l' : L} {s : S} (hk : cl.outer k t l = some (.p s l')) : Takes (.outside l) (.other s) (.outside l')
  | inner {l l' : L} {s : S} (hk : cl.inner k t l = some (.p s l')) : Takes (.inside l) (.other s) (.inside l')
  | waitP {w : ℕ} {l : L} : Takes (.waitP w l) (.waiter w) (.waitAcquire l)
  | waitAcquire {l : L} : Takes (.waitAcquire l) .lock (.acquired l)

inductive Raises : MonitorPoint L → Sem S → MonitorPoint L → Prop
  | outer {l l' : L} {s : S} (hk : cl.outer k t l = some (.v s l')) : Raises (.outside l) (.other s) (.outside l')
  | inner {l l' : L} {s : S} (hk : cl.inner k t l = some (.v s l')) : Raises (.inside l) (.other s) (.inside l')
  | releaseV {w : Option ℕ} {l : L} : Raises (.releaseV w l) .lock (.released w l)
  | signalV {w : ℕ} {b : Bool} {l : L} : Raises (.signalV w b l) (.waiter w) (.signalled b l)

section Inversion

variable {cl : Client S D K L} {k : K} {t : ℕ} {m m' : Memory D} {c c' : MonitorPoint L} {s : Sem S}
  {f : Memory D → Except Fault (Memory D × MonitorPoint L)}

lemma onData_ok {f : D → Except Fault (D × L)} {next : L → MonitorPoint L} {r : Memory D × MonitorPoint L}
    (h : ((f m.data).map fun r => (({ m with data := r.1 } : Memory D), next r.2)) = .ok r) :
    ∃ d l, f m.data = .ok (d, l) ∧ r = ({ m with data := d }, next l) := by
  cases hf : f m.data with
  | error e => simp [hf, Except.map] at h
  | ok r' =>
    simp only [hf, Except.map, Except.ok.injEq] at h
    exact ⟨r'.1, r'.2, rfl, h.symm⟩

lemma assertHeld_ok {next : MonitorPoint L} {r : Memory D × MonitorPoint L}
    (h : (if m.monitor.lockHolder = some t then .ok (m, next) else .error .assertion) = (.ok r : Except Fault _)) :
    m.monitor.lockHolder = some t ∧ r = (m, next) := by
  split at h
  · rename_i hh
    cases h
    exact ⟨hh, rfl⟩
  · cases h

lemma acts_of_code (hc : cl.code k t c = some (.act f)) (hf : f m = .ok (m', c')) : cl.Acts k t m c m' c' := by
  cases c with
  | outside l =>
    obtain ⟨call, hk, hcall⟩ := Option.map_eq_some_iff.mp hc
    cases call with
    | act g =>
      cases hcall
      obtain ⟨d, l', hg, hr⟩ := onData_ok hf
      cases hr
      exact .outer hk hg
    | acquire l' => cases hcall
    | p s l' => cases hcall
    | v s l' => cases hcall
  | inside l =>
    obtain ⟨call, hk, hcall⟩ := Option.map_eq_some_iff.mp hc
    cases call with
    | act g =>
      cases hcall
      obtain ⟨d, l', hg, hr⟩ := onData_ok hf
      cases hr
      exact .inner hk hg
    | release l' =>
      cases hcall
      obtain ⟨hh, hr⟩ := assertHeld_ok hf
      cases hr
      exact .release hk hh
    | wait l' =>
      cases hcall
      obtain ⟨hh, hr⟩ := assertHeld_ok hf
      cases hr
      exact .wait hk hh
    | signal l' =>
      cases hcall
      obtain ⟨hh, hr⟩ := assertHeld_ok hf
      cases hr
      exact .signal hk hh
    | broadcast l' =>
      cases hcall
      cases hf
      exact .broadcast hk
    | p s l' => cases hcall
    | v s l' => cases hcall
  | acquired l =>
    cases hc
    cases hf
    exact .acquired
  | releaseAssert w l =>
    cases hc
    obtain ⟨hh, hr⟩ := assertHeld_ok hf
    cases hr
    exact .releaseAssert hh
  | releaseClear w l =>
    cases hc
    cases hf
    exact .releaseClear
  | releaseV w l => cases hc
  | waitNew l =>
    cases hc
    cases hf
    exact .waitNew
  | waitAppend w l =>
    cases hc
    simp only at hf
    split at hf
    · cases hf
    · cases hf
      exact .waitAppend
  | waitP w l => cases hc
  | waitAcquire l => cases hc
  | signalAssert l =>
    cases hc
    obtain ⟨hh, hr⟩ := assertHeld_ok hf
    cases hr
    exact .signalAssert hh
  | signalTest b l =>
    cases hc
    cases hf
    exact .signalTest
  | signalRemove b l =>
    cases hc
    simp only at hf
    split at hf
    · cases hf
    · rename_i w queue hq
      cases hf
      exact .signalRemove hq
  | signalV w b l => cases hc
  | broadcastTest l =>
    cases hc
    cases hf
    exact .broadcastTest

lemma takes_of_code (hc : cl.code k t c = some (.p s c')) : cl.Takes k t c s c' := by
  cases c with
  | outside l =>
    obtain ⟨call, hk, hcall⟩ := Option.map_eq_some_iff.mp hc
    cases call <;> cases hcall
    · exact .acquire hk
    · exact .outer hk
  | inside l =>
    obtain ⟨call, hk, hcall⟩ := Option.map_eq_some_iff.mp hc
    cases call <;> cases hcall
    exact .inner hk
  | waitP w l =>
    cases hc
    exact .waitP
  | waitAcquire l =>
    cases hc
    exact .waitAcquire
  | _ => cases hc

lemma raises_of_code (hc : cl.code k t c = some (.v s c')) : cl.Raises k t c s c' := by
  cases c with
  | outside l =>
    obtain ⟨call, hk, hcall⟩ := Option.map_eq_some_iff.mp hc
    cases call <;> cases hcall
    exact .outer hk
  | inside l =>
    obtain ⟨call, hk, hcall⟩ := Option.map_eq_some_iff.mp hc
    cases call <;> cases hcall
    exact .inner hk
  | releaseV w l =>
    cases hc
    exact .releaseV
  | signalV w b l =>
    cases hc
    exact .signalV
  | _ => cases hc

lemma Acts.holds (h : cl.Acts k t m c m' c') : c'.holds = c.holds := by
  cases h <;> try rfl
  all_goals split <;> first | rfl | exact MonitorPoint.holds_signalled _ _

lemma guards (cl : Client S D K L) [DecidableEq S] : Guards cl.code .lock MonitorPoint.holds where
  act hc hf := (acts_of_code hc hf).holds
  take hc := by cases takes_of_code hc <;> exact ⟨rfl, rfl⟩
  give hc := by
    cases raises_of_code hc
    exact ⟨rfl, MonitorPoint.holds_released _ _⟩
  p hc hne := by
    cases takes_of_code hc with
    | acquire => exact absurd rfl hne
    | waitAcquire => exact absurd rfl hne
    | outer => rfl
    | inner => rfl
    | waitP => rfl
  v hc hne := by
    cases raises_of_code hc with
    | releaseV => exact absurd rfl hne
    | outer => rfl
    | inner => rfl
    | signalV => exact MonitorPoint.holds_signalled _ _

end Inversion

end Client

namespace Client

variable {S D K L : Type}

abbrev World (S D L : Type) := Concurrent (Sem S) (Memory D) (MonitorPoint L)

def Shows {α : Type} (σ : World S D L) (view : MonitorPoint L → Option α) (t : ℕ) (a : α) : Prop :=
  σ.points[t]?.bind view = some a

structure Locked (σ : World S D L) : Prop where
  token : σ.value .lock + σ.points.countP MonitorPoint.holds = 1
  holder (t : ℕ) (c : MonitorPoint L) (h : σ.points[t]? = some c) (hc : c.settled = true) :
    σ.memory.monitor.lockHolder = some t

structure Queued (σ : World S D L) : Prop where
  nodup : σ.memory.monitor.appended.Nodup
  bounded (w : ℕ) (h : w ∈ σ.memory.monitor.appended) : w < σ.memory.monitor.allocated
  fifo : σ.memory.monitor.waitQueue <:+ σ.memory.monitor.appended
  fresh (t w : ℕ) (h : Shows σ MonitorPoint.allocated t w) :
    w < σ.memory.monitor.allocated ∧ w ∉ σ.memory.monitor.appended
  untouched (w : ℕ) (h : w ∉ σ.memory.monitor.appended) : σ.raised (.waiter w) = 0 ∧ σ.taken (.waiter w) = 0
  unsignalled (w : ℕ) (h : w ∈ σ.memory.monitor.waitQueue) : σ.raised (.waiter w) = 0
  removed (t w : ℕ) (h : Shows σ MonitorPoint.removed t w) :
    w ∈ σ.memory.monitor.appended ∧ w ∉ σ.memory.monitor.waitQueue ∧ σ.raised (.waiter w) = 0
  signalled (w : ℕ) (h : w ∈ σ.memory.monitor.appended) :
    w ∈ σ.memory.monitor.waitQueue ∨ σ.raised (.waiter w) = 1 ∨ ∃ t, Shows σ MonitorPoint.removed t w
  waiting (t w : ℕ) (h : Shows σ MonitorPoint.waiter t w) :
    w ∈ σ.memory.monitor.appended ∧ σ.taken (.waiter w) = 0
  distinct (t u w : ℕ) (ht : Shows σ MonitorPoint.waiter t w) (hu : Shows σ MonitorPoint.waiter u w) : t = u
  parked (w : ℕ) (h : w ∈ σ.memory.monitor.appended) (hr : σ.raised (.waiter w) = 0) :
      ∃ t, Shows σ MonitorPoint.waiter t w
  removing (t : ℕ) (h : Shows σ MonitorPoint.removing t ()) : σ.memory.monitor.waitQueue ≠ []

section Views

variable {cl : Client S D K L} {k : K} {o : ℕ × K} {t u : ℕ} {σ σ' : World S D L} {m m' : Memory D}
  {c c' : MonitorPoint L} {s : Sem S} {α : Type} {view : MonitorPoint L → Option α} {a : α}

lemma shows_of_point (hp : σ.points[t]? = some c) : Shows σ view t a ↔ view c = some a := by
  simp [Shows, hp]

lemma shows_set (hp : σ.points[t]? = some c) (hp' : σ'.points = σ.points.set t c') :
    Shows σ' view u a ↔ if u = t then view c' = some a else Shows σ view u a := by
  have hlt : t < σ.points.length := (List.getElem?_eq_some_iff.mp hp).1
  split
  · subst u
    simp [Shows, hp', hlt]
  · rename_i hne
    simp [Shows, hp', List.getElem?_set_ne (Ne.symm hne)]

lemma shows_set_eq (hp : σ.points[t]? = some c) (hp' : σ'.points = σ.points.set t c') (hview : view c' = view c) :
    Shows σ' view u a ↔ Shows σ view u a := by
  rw [shows_set hp hp', hview, ← shows_of_point (σ := σ) hp]
  split
  · subst u
    rfl
  · rfl

lemma Locked.exclusive (h : Locked σ) (hv : 0 ≤ σ.value .lock) (ht : σ.points[t]? = some c)
    (hu : σ.points[u]? = some c') (hc : c.holds = true) (hc' : c'.holds = true) : t = u := by
  by_contra hne
  have hcount := Pool.two_le_countP (p := MonitorPoint.holds) ht hu hne hc hc'
  have := h.token
  omega

lemma holds_of_settled (h : c.settled = true) : c.holds = true := by
  cases c <;> first | rfl | cases h

lemma Acts.lockHolder (h : cl.Acts k t m c m' c') :
    (c.holds = false → m'.monitor.lockHolder = m.monitor.lockHolder) ∧
    ((c.settled = true → m.monitor.lockHolder = some t) → c'.settled = true → m'.monitor.lockHolder = some t) := by
  cases h with
  | outer => exact ⟨fun _ => rfl, fun _ h => by cases h⟩
  | acquired => exact ⟨fun h => (by cases h), fun _ _ => rfl⟩
  | releaseClear => exact ⟨fun h => (by cases h), fun _ h => (by cases h)⟩
  | _ => exact ⟨fun h => (by cases h), fun h _ => h rfl⟩

lemma Takes.settled (h : cl.Takes k t c s c') (hc : c'.settled = true) : c.settled = true := by
  cases h <;> exact hc

lemma Raises.settled (h : cl.Raises k t c s c') (hc : c'.settled = true) : c.settled = true := by
  cases h with
  | releaseV => simp at hc
  | signalV => rfl
  | outer => exact hc
  | inner => exact hc

variable [DecidableEq S]

lemma Locked.turn (h : Locked σ) (hv : 0 ≤ σ.value .lock) (ht : Turn cl.code o σ σ') : Locked σ' := by
  refine ⟨((guards cl).turn ht).trans h.token, fun u d hu hd => ?_⟩
  -- the other threads keep what they have, and the holder is theirs only if they hold the lock
  have hset : ∀ {c c'}, σ.points[o.1]? = some c → σ'.points = σ.points.set o.1 c' →
      (c.holds = false → σ'.memory.monitor.lockHolder = σ.memory.monitor.lockHolder) →
      (c'.settled = true → σ'.memory.monitor.lockHolder = some o.1) →
      σ'.memory.monitor.lockHolder = some u := by
    intro c c' hp hp' hkeep hown
    have hlt : o.1 < σ.points.length := (List.getElem?_eq_some_iff.mp hp).1
    rcases eq_or_ne u o.1 with rfl | hne
    · obtain rfl : c' = d := by simpa [hp', hlt] using hu
      exact hown hd
    · rw [hp', List.getElem?_set_ne hne.symm] at hu
      have hfree : c.holds = false := by
        cases hc : c.holds with
        | false => rfl
        | true => exact absurd (h.exclusive hv hu hp (holds_of_settled hd) hc) hne
      rw [hkeep hfree]
      exact h.holder u d hu hd
  cases ht with
  | act hp hc hf hp' =>
    have hl := (acts_of_code hc hf).lockHolder
    exact hset hp hp' hl.1 (hl.2 (h.holder o.1 _ hp))
  | sleep hp hc hv hm hp' =>
    rw [hm]
    exact h.holder u d (hp' ▸ hu) hd
  | take hp hc hv hm hp' =>
    exact hset hp hp' (fun _ => by rw [hm]) fun hc' => hm ▸ h.holder o.1 _ hp ((takes_of_code hc).settled hc')
  | raise hp hc hm hp' =>
    exact hset hp hp' (fun _ => by rw [hm]) fun hc' => hm ▸ h.holder o.1 _ hp ((raises_of_code hc).settled hc')

end Views

section Queue

variable {cl : Client S D K L} {k : K} {o : ℕ × K} {t u w : ℕ} {σ σ' : World S D L} {m m' : Memory D}
  {c c' : MonitorPoint L} {s : Sem S} {l : L} {b : Bool}

lemma Queued.congr (h : Queued σ) (hq : σ'.memory.monitor.waitQueue = σ.memory.monitor.waitQueue)
    (ha : σ'.memory.monitor.appended = σ.memory.monitor.appended)
    (hn : σ'.memory.monitor.allocated = σ.memory.monitor.allocated)
    (hr : ∀ w, σ'.raised (.waiter w) = σ.raised (.waiter w)) (ht : ∀ w, σ'.taken (.waiter w) = σ.taken (.waiter w))
    (hall : ∀ t w, Shows σ' MonitorPoint.allocated t w ↔ Shows σ MonitorPoint.allocated t w)
    (hrem : ∀ t w, Shows σ' MonitorPoint.removed t w ↔ Shows σ MonitorPoint.removed t w)
    (hwait : ∀ t w, Shows σ' MonitorPoint.waiter t w ↔ Shows σ MonitorPoint.waiter t w)
    (hing : ∀ t, Shows σ' MonitorPoint.removing t () → σ.memory.monitor.waitQueue ≠ []) : Queued σ' where
  nodup := by rw [ha]; exact h.nodup
  bounded := by rw [ha, hn]; exact h.bounded
  fifo := by rw [hq, ha]; exact h.fifo
  fresh := by simp only [hall, hn, ha]; exact h.fresh
  untouched := by simp only [ha, hr, ht]; exact h.untouched
  unsignalled := by simp only [hq, hr]; exact h.unsignalled
  removed := by simp only [hrem, ha, hq, hr]; exact h.removed
  signalled := by simp only [hrem, ha, hq, hr]; exact h.signalled
  waiting := by simp only [hwait, ha, ht]; exact h.waiting
  distinct := by simp only [hwait]; exact h.distinct
  parked := by simp only [hwait, ha, hr]; exact h.parked
  removing := by rw [hq]; exact hing

lemma Queued.frame (h : Queued σ) (hp : σ.points[t]? = some c) (hp' : σ'.points = σ.points.set t c')
    (hq : σ'.memory.monitor.waitQueue = σ.memory.monitor.waitQueue)
    (ha : σ'.memory.monitor.appended = σ.memory.monitor.appended)
    (hn : σ'.memory.monitor.allocated = σ.memory.monitor.allocated)
    (hr : ∀ w, σ'.raised (.waiter w) = σ.raised (.waiter w)) (ht : ∀ w, σ'.taken (.waiter w) = σ.taken (.waiter w))
    (hall : c'.allocated = c.allocated) (hrem : c'.removed = c.removed) (hwait : c'.waiter = c.waiter)
    (hing : c'.removing = c.removing) : Queued σ' :=
  h.congr hq ha hn hr ht (fun _ _ => shows_set_eq hp hp' hall) (fun _ _ => shows_set_eq hp hp' hrem)
    (fun _ _ => shows_set_eq hp hp' hwait) fun u hu => h.removing u ((shows_set_eq hp hp' hing).mp hu)

lemma Locked.shows_unique (h : Locked σ) (hv : 0 ≤ σ.value .lock)
    (hp : σ.points[t]? = some c) (hc : c.holds = true)
    {α : Type} {view : MonitorPoint L → Option α} (hview : ∀ d, (view d).isSome = true → d.holds = true) {a : α}
    (hu : Shows σ view u a) : u = t := by
  obtain ⟨d, hd, hda⟩ := Option.bind_eq_some_iff.mp hu
  exact h.exclusive hv hd hp (hview d (by rw [hda]; rfl)) hc

lemma Queued.waitNew (h : Queued σ) (hp : σ.points[t]? = some (.waitNew l))
    (hp' : σ'.points = σ.points.set t (.waitAppend σ.memory.monitor.allocated l))
    (hm : σ'.memory.monitor = { σ.memory.monitor with allocated := σ.memory.monitor.allocated + 1 })
    (hr : σ'.raised = σ.raised) (ht : σ'.taken = σ.taken) : Queued σ' := by
  have hrem : ∀ u w, Shows σ' MonitorPoint.removed u w ↔ Shows σ MonitorPoint.removed u w :=
    fun u w => shows_set_eq hp hp' rfl
  have hwait : ∀ u w, Shows σ' MonitorPoint.waiter u w ↔ Shows σ MonitorPoint.waiter u w :=
    fun u w => shows_set_eq hp hp' rfl
  constructor <;> simp only [hm, hr, ht, hrem, hwait]
  · exact h.nodup
  · intro w hw
    exact Nat.lt_succ_of_lt (h.bounded w hw)
  · exact h.fifo
  · intro u w hu
    rw [shows_set hp hp'] at hu
    split at hu
    · obtain rfl : σ.memory.monitor.allocated = w := by simpa [MonitorPoint.allocated] using hu
      exact ⟨Nat.lt_succ_self _, fun hw => absurd (h.bounded _ hw) (lt_irrefl _)⟩
    · have := h.fresh u w hu
      exact ⟨Nat.lt_succ_of_lt this.1, this.2⟩
  · exact h.untouched
  · exact h.unsignalled
  · exact h.removed
  · exact h.signalled
  · exact h.waiting
  · exact h.distinct
  · exact h.parked
  · intro u hu
    exact h.removing u ((shows_set_eq hp hp' rfl).mp hu)

lemma Queued.waitAppend (h : Queued σ) (hl : Locked σ) (hv : 0 ≤ σ.value .lock)
    (hp : σ.points[t]? = some (.waitAppend w l)) (hp' : σ'.points = σ.points.set t (.releaseAssert w l))
    (hm : σ'.memory.monitor = { σ.memory.monitor with
      waitQueue := σ.memory.monitor.waitQueue ++ [w], appended := σ.memory.monitor.appended ++ [w] })
    (hr : σ'.raised = σ.raised) (ht : σ'.taken = σ.taken) : Queued σ' := by
  obtain ⟨hlt, hnew⟩ := h.fresh t w ((shows_of_point hp).mpr rfl)
  have hrem : ∀ u w, Shows σ' MonitorPoint.removed u w ↔ Shows σ MonitorPoint.removed u w :=
    fun u w => shows_set_eq hp hp' rfl
  have hwait : ∀ u x, Shows σ' MonitorPoint.waiter u x ↔
      if u = t then w = x else Shows σ MonitorPoint.waiter u x := by
    intro u x
    rw [shows_set hp hp']
    simp [MonitorPoint.waiter]
  have hother : ∀ {u x}, Shows σ MonitorPoint.waiter u x → u ≠ t := by
    rintro u x hu rfl
    simp [shows_of_point hp, MonitorPoint.waiter] at hu
  constructor <;> try simp only [hm, hr, ht, hrem, List.mem_append, List.mem_singleton]
  · simpa using h.nodup.concat hnew
  · rintro x (hx | rfl)
    · exact h.bounded x hx
    · exact hlt
  · obtain ⟨gone, hgone⟩ := h.fifo
    exact ⟨gone, by rw [← hgone, List.append_assoc]⟩
  · intro u x hu
    rw [shows_set hp hp'] at hu
    split at hu
    · cases hu
    · rename_i hne
      exact absurd (hl.shows_unique hv hp rfl MonitorPoint.holds_of_allocated hu) hne
  · intro x hx
    exact h.untouched x fun hmem => hx (.inl hmem)
  · rintro x (hx | rfl)
    · exact h.unsignalled x hx
    · exact (h.untouched x hnew).1
  · intro u x hu
    obtain ⟨h₁, h₂, h₃⟩ := h.removed u x hu
    refine ⟨.inl h₁, ?_, h₃⟩
    rintro (hx | rfl)
    · exact h₂ hx
    · exact hnew h₁
  · rintro x (hx | rfl)
    · obtain hq | hx := h.signalled x hx
      · exact .inl (.inl hq)
      · exact .inr hx
    · exact .inl (.inr rfl)
  · intro u x hu
    rw [hwait] at hu
    split at hu
    · subst hu
      exact ⟨.inr rfl, (h.untouched w hnew).2⟩
    · have := h.waiting u x hu
      exact ⟨.inl this.1, this.2⟩
  · intro u v x hu hv
    rw [hwait] at hu hv
    split at hu <;> split at hv
    · simp_all
    · subst hu
      exact absurd (h.waiting v w hv).1 hnew
    · subst hv
      exact absurd (h.waiting u w hu).1 hnew
    · exact h.distinct u v x hu hv
  · rintro x (hx | rfl) hx₀
    · obtain ⟨u, hu⟩ := h.parked x hx hx₀
      exact ⟨u, by rw [hwait, if_neg (hother hu)]; exact hu⟩
    · exact ⟨t, by rw [hwait, if_pos rfl]⟩
  · exact fun _ _ => by simp

lemma Queued.signalRemove (h : Queued σ) (hl : Locked σ) (hv : 0 ≤ σ.value .lock) {queue : List ℕ}
    (hp : σ.points[t]? = some (.signalRemove b l)) (hp' : σ'.points = σ.points.set t (.signalV w b l))
    (hq : σ.memory.monitor.waitQueue = w :: queue)
    (hm : σ'.memory.monitor = { σ.memory.monitor with waitQueue := queue })
    (hr : σ'.raised = σ.raised) (ht : σ'.taken = σ.taken) : Queued σ' := by
  have hwait : ∀ u w, Shows σ' MonitorPoint.waiter u w ↔ Shows σ MonitorPoint.waiter u w :=
    fun u w => shows_set_eq hp hp' rfl
  have hall : ∀ u w, Shows σ' MonitorPoint.allocated u w ↔ Shows σ MonitorPoint.allocated u w :=
    fun u w => shows_set_eq hp hp' rfl
  have hrem : ∀ u x, Shows σ' MonitorPoint.removed u x ↔
      if u = t then w = x else Shows σ MonitorPoint.removed u x := by
    intro u x
    rw [shows_set hp hp']
    simp [MonitorPoint.removed]
  have hother : ∀ {u x}, Shows σ MonitorPoint.removed u x → u ≠ t := by
    rintro u x hu rfl
    simp [shows_of_point hp, MonitorPoint.removed] at hu
  have hsub : ∀ x, x ∈ queue → x ∈ σ.memory.monitor.waitQueue := fun x hx => by simp [hq, hx]
  have hnodup : (w :: queue).Nodup := hq ▸ h.nodup.sublist h.fifo.sublist
  have hmem : w ∈ σ.memory.monitor.waitQueue := by simp [hq]
  constructor <;> try simp only [hm, hr, ht, hall, hwait]
  · exact h.nodup
  · exact h.bounded
  · exact (List.suffix_cons w queue).trans (hq ▸ h.fifo)
  · exact h.fresh
  · exact h.untouched
  · exact fun x hx => h.unsignalled x (hsub x hx)
  · intro u x hu
    rw [hrem] at hu
    split at hu
    · subst hu
      exact ⟨h.fifo.subset hmem, (List.nodup_cons.mp hnodup).1, h.unsignalled w hmem⟩
    · obtain ⟨h₁, h₂, h₃⟩ := h.removed u x hu
      exact ⟨h₁, fun hx => h₂ (hsub x hx), h₃⟩
  · intro x hx
    obtain hx | hx | ⟨u, hu⟩ := h.signalled x hx
    · rw [hq, List.mem_cons] at hx
      obtain rfl | hx := hx
      · exact .inr (.inr ⟨t, by rw [hrem, if_pos rfl]⟩)
      · exact .inl hx
    · exact .inr (.inl hx)
    · exact .inr (.inr ⟨u, by rw [hrem, if_neg (hother hu)]; exact hu⟩)
  · exact h.waiting
  · exact h.distinct
  · exact h.parked
  · intro u hu
    rw [shows_set hp hp'] at hu
    split at hu
    · cases hu
    · rename_i hne
      exact absurd (hl.shows_unique hv hp rfl MonitorPoint.holds_of_removing hu) hne

lemma Queued.waitP (h : Queued σ) (hb : σ.value (.waiter w) = σ.raised (.waiter w) - σ.taken (.waiter w))
    (hpos : 0 < σ.value (.waiter w)) (hp : σ.points[t]? = some (.waitP w l))
    (hp' : σ'.points = σ.points.set t (.waitAcquire l)) (hm : σ'.memory = σ.memory) (hr : σ'.raised = σ.raised)
    (ht : ∀ x, x ≠ w → σ'.taken (.waiter x) = σ.taken (.waiter x)) : Queued σ' := by
  have hown : Shows σ MonitorPoint.waiter t w := (shows_of_point hp).mpr rfl
  obtain ⟨hmem, htaken⟩ := h.waiting t w hown
  have hall : ∀ u w, Shows σ' MonitorPoint.allocated u w ↔ Shows σ MonitorPoint.allocated u w :=
    fun u w => shows_set_eq hp hp' rfl
  have hrem : ∀ u w, Shows σ' MonitorPoint.removed u w ↔ Shows σ MonitorPoint.removed u w :=
    fun u w => shows_set_eq hp hp' rfl
  have hwait : ∀ u x, Shows σ' MonitorPoint.waiter u x ↔ u ≠ t ∧ Shows σ MonitorPoint.waiter u x := by
    intro u x
    rw [shows_set hp hp']
    by_cases hu : u = t <;> simp [hu, MonitorPoint.waiter]
  constructor <;> try simp only [hm, hr, hall, hrem, hwait]
  · exact h.nodup
  · exact h.bounded
  · exact h.fifo
  · exact h.fresh
  · intro x hx
    rw [ht x fun hxw => hx (hxw ▸ hmem)]
    exact h.untouched x hx
  · exact h.unsignalled
  · exact h.removed
  · exact h.signalled
  · rintro u x ⟨hne, hu⟩
    rw [ht x fun hxw => hne (h.distinct u t w (hxw ▸ hu) hown)]
    exact h.waiting u x hu
  · exact fun u v x hu hv => h.distinct u v x hu.2 hv.2
  · intro x hx hx₀
    obtain ⟨u, hu⟩ := h.parked x hx hx₀
    refine ⟨u, fun hut => ?_, hu⟩
    -- the waiter that the thread passes has been signalled
    subst hut
    obtain rfl : w = x := by simpa [shows_of_point hp, MonitorPoint.waiter] using hu
    omega
  · exact fun u hu => h.removing u ((shows_set_eq hp hp' rfl).mp hu)

lemma Queued.acts (h : Queued σ) (hl : Locked σ) (hv : 0 ≤ σ.value .lock) (hp : σ.points[t]? = some c)
    (hp' : σ'.points = σ.points.set t c') (hr : σ'.raised = σ.raised) (ht : σ'.taken = σ.taken)
    (ha : cl.Acts k t σ.memory c σ'.memory c') : Queued σ' := by
  have hr' : ∀ w, σ'.raised (.waiter w) = σ.raised (.waiter w) := fun w => by rw [hr]
  have ht' : ∀ w, σ'.taken (.waiter w) = σ.taken (.waiter w) := fun w => by rw [ht]
  generalize hm : σ'.memory = m at ha
  cases ha with
  | waitNew => exact h.waitNew hp hp' (by rw [hm]) hr ht
  | waitAppend => exact h.waitAppend hl hv hp hp' (by rw [hm]) hr ht
  | signalRemove hq => exact h.signalRemove hl hv hp hp' hq (by rw [hm]) hr ht
  | signalTest =>
    split at hp'
    · exact h.frame hp hp' (by rw [hm]) (by rw [hm]) (by rw [hm]) hr' ht' (MonitorPoint.allocated_signalled _ _)
        (MonitorPoint.removed_signalled _ _) (MonitorPoint.waiter_signalled _ _)
        (MonitorPoint.removing_signalled _ _)
    · rename_i hq
      exact h.congr (by rw [hm]) (by rw [hm]) (by rw [hm]) hr' ht' (fun _ _ => shows_set_eq hp hp' rfl)
        (fun _ _ => shows_set_eq hp hp' rfl) (fun _ _ => shows_set_eq hp hp' rfl) fun _ _ => hq
  | broadcast hk =>
    exact h.frame hp hp' (by rw [hm]) (by rw [hm]) (by rw [hm]) hr' ht' (by split <;> rfl) (by split <;> rfl)
      (by split <;> rfl) (by split <;> rfl)
  | broadcastTest =>
    exact h.frame hp hp' (by rw [hm]) (by rw [hm]) (by rw [hm]) hr' ht' (by split <;> rfl) (by split <;> rfl)
      (by split <;> rfl) (by split <;> rfl)
  | _ => exact h.frame hp hp' (by rw [hm]) (by rw [hm]) (by rw [hm]) hr' ht' rfl rfl rfl rfl

variable [DecidableEq S]

lemma Queued.signalV (h : Queued σ) (hl : Locked σ) (hv : 0 ≤ σ.value .lock)
    (hp : σ.points[t]? = some (.signalV w b l)) (hp' : σ'.points = σ.points.set t (.signalled b l))
    (hm : σ'.memory = σ.memory) (hr : σ'.raised = Function.update σ.raised (.waiter w) (σ.raised (.waiter w) + 1))
    (ht : σ'.taken = σ.taken) : Queued σ' := by
  obtain ⟨hmem, hout, hzero⟩ := h.removed t w ((shows_of_point hp).mpr rfl)
  have hself : σ'.raised (.waiter w) = 1 := by simp [hr, hzero]
  have hoth : ∀ x, x ≠ w → σ'.raised (.waiter x) = σ.raised (.waiter x) := fun x hx => by simp [hr, hx]
  have hall : ∀ u w, Shows σ' MonitorPoint.allocated u w ↔ Shows σ MonitorPoint.allocated u w :=
    fun u w => shows_set_eq hp hp' (MonitorPoint.allocated_signalled _ _)
  have hwait : ∀ u w, Shows σ' MonitorPoint.waiter u w ↔ Shows σ MonitorPoint.waiter u w :=
    fun u w => shows_set_eq hp hp' (MonitorPoint.waiter_signalled _ _)
  have hrem : ∀ u x, ¬ Shows σ' MonitorPoint.removed u x := by
    intro u x hu
    rw [shows_set hp hp'] at hu
    split at hu
    · simp at hu
    · rename_i hne
      exact absurd (hl.shows_unique hv hp rfl MonitorPoint.holds_of_removed hu) hne
  constructor <;> try simp only [hm, ht, hall, hwait]
  · exact h.nodup
  · exact h.bounded
  · exact h.fifo
  · exact h.fresh
  · intro x hx
    rw [hoth x fun hxw => hx (hxw ▸ hmem)]
    exact h.untouched x hx
  · intro x hx
    rw [hoth x fun hxw => hout (hxw ▸ hx)]
    exact h.unsignalled x hx
  · exact fun u x hu => absurd hu (hrem u x)
  · intro x hx
    rcases eq_or_ne x w with rfl | hne
    · exact .inr (.inl hself)
    · obtain hx | hx | ⟨u, hu⟩ := h.signalled x hx
      · exact .inl hx
      · exact .inr (.inl ((hoth x hne).trans hx))
      · have hut := hl.shows_unique hv hp rfl MonitorPoint.holds_of_removed hu
        subst hut
        have hxw : w = x := by simpa [shows_of_point hp, MonitorPoint.removed] using hu
        exact absurd hxw.symm hne
  · exact h.waiting
  · exact h.distinct
  · intro x hx hx₀
    have hne : x ≠ w := by
      rintro rfl
      omega
    exact h.parked x hx ((hoth x hne).symm.trans hx₀)
  · intro u hu
    rw [shows_set hp hp'] at hu
    split at hu
    · simp at hu
    · exact h.removing u hu

lemma Queued.turn (h : Queued σ) (hl : Locked σ) (hv : 0 ≤ σ.value .lock)
    (hb : ∀ w, σ.value (.waiter w) = σ.raised (.waiter w) - σ.taken (.waiter w)) (ht : Turn cl.code o σ σ') :
    Queued σ' := by
  cases ht with
  | act hp hc hf hp' hv' hr ht => exact h.acts hl hv hp hp' hr ht (acts_of_code hc hf)
  | sleep hp hc hz hm hp' hv' hr ht =>
    have hshows : ∀ {α : Type} {view : MonitorPoint L → Option α} {t a}, Shows σ' view t a ↔ Shows σ view t a := by
      intro α view t a
      rw [Shows, Shows, hp']
    exact h.congr (by rw [hm]) (by rw [hm]) (by rw [hm]) (by simp [hr]) (by simp [ht]) (fun _ _ => hshows)
      (fun _ _ => hshows) (fun _ _ => hshows) fun u hu => h.removing u (hshows.mp hu)
  | take hp hc hpos hm hp' hv' hr ht =>
    have ha := takes_of_code hc
    cases ha with
    | waitP => exact h.waitP (hb _) hpos hp hp' hm hr fun x hx => by simp [ht, hx]
    | _ =>
      exact h.frame hp hp' (by rw [hm]) (by rw [hm]) (by rw [hm]) (by simp [hr]) (by simp [ht]) rfl rfl rfl rfl
  | raise hp hc hm hp' hv' hr ht =>
    have ha := raises_of_code hc
    cases ha with
    | signalV => exact h.signalV hl hv hp hp' hm hr ht
    | releaseV =>
      exact h.frame hp hp' (by rw [hm]) (by rw [hm]) (by rw [hm]) (by simp [hr]) (by simp [ht])
        (MonitorPoint.allocated_released _ _) (MonitorPoint.removed_released _ _)
        (MonitorPoint.waiter_released _ _)
        (MonitorPoint.removing_released _ _)
    | _ =>
      exact h.frame hp hp' (by rw [hm]) (by rw [hm]) (by rw [hm]) (by simp [hr]) (by simp [ht]) rfl rfl rfl rfl

end Queue

section Runs

variable {cl : Client S D K L} {k : K} {o : ℕ × K} {t u w : ℕ} {σ σ' : World S D L} {c c' : MonitorPoint L}
  {s : Sem S} {l : L} {b : Bool} {v₀ : S → ℤ} {e : Fault}

def initial (v₀ : S → ℤ) : Sem S → ℤ
  | .lock => 1
  | .waiter _ => 0
  | .other s => v₀ s

def start (d : D) (v₀ : S → ℤ) (ls : List L) : World S D L :=
  Concurrent.start ⟨Monitor.new, d⟩ (initial v₀) (ls.map .outside)

def Fails (cl : Client S D K L) (o : ℕ × K) (σ : World S D L) (e : Fault) : Prop :=
  ∃ l f, f σ.memory.data = .error e ∧
    (σ.points[o.1]? = some (.outside l) ∧ cl.outer o.2 o.1 l = some (.act f) ∨
      σ.points[o.1]? = some (.inside l) ∧ cl.inner o.2 o.1 l = some (.act f))

variable [DecidableEq S]

structure Sane (cl : Client S D K L) (v₀ : S → ℤ) (σ : World S D L) : Prop where
  steady : σ.Steady cl.code (initial v₀)
  locked : Locked σ
  queued : Queued σ

lemma Sane.nonneg (h : Sane cl v₀ σ) (s : Sem S) : 0 ≤ σ.value s := h.steady.nonneg s

lemma Sane.waiter_value (h : Sane cl v₀ σ) (w : ℕ) :
    σ.value (.waiter w) = σ.raised (.waiter w) - σ.taken (.waiter w) := by
  have := h.steady.balance (.waiter w)
  simpa [initial, value] using this

lemma Sane.step (h : Sane cl v₀ σ) (hm : σ.Moves cl.code o σ') : Sane cl v₀ σ' :=
  have hturn := h.steady.turn hm
  ⟨h.steady.step hm, h.locked.turn (h.nonneg _) hturn, h.queued.turn h.locked (h.nonneg _) h.waiter_value hturn⟩

lemma Sane.start (d : D) (h₀ : ∀ s, 0 ≤ v₀ s) (ls : List L) : Sane cl v₀ (start d v₀ ls) := by
  have hpoint : ∀ {t : ℕ} {c : MonitorPoint L}, (Client.start d v₀ ls).points[t]? = some c →
      ∃ l, c = .outside l := by
    intro t c hc
    simp only [Client.start, Concurrent.start, points, List.map_map,
        List.getElem?_map, Option.map_eq_some_iff] at hc
    obtain ⟨l, -, rfl⟩ := hc
    exact ⟨l, rfl⟩
  have hshows : ∀ {α : Type} {view : MonitorPoint L → Option α} {t : ℕ} {a : α}, (∀ l, view (.outside l) = none) →
      ¬ Shows (Client.start d v₀ ls) view t a := by
    intro α view t a hview h
    obtain ⟨c, hc, ha⟩ := Option.bind_eq_some_iff.mp h
    obtain ⟨l, rfl⟩ := hpoint hc
    simp [hview] at ha
  refine ⟨.start _ (by rintro (_ | w | s) <;> simp [initial, h₀]) _, ⟨?_, ?_⟩, ?_⟩
  · have hzero : (Client.start d v₀ ls).points.countP MonitorPoint.holds = 0 := by
      rw [List.countP_eq_zero]
      intro c hc
      obtain ⟨t, ht⟩ := List.mem_iff_getElem?.mp hc
      obtain ⟨l, rfl⟩ := hpoint ht
      simp [MonitorPoint.holds]
    rw [hzero]
    rfl
  · intro t c hc hset
    obtain ⟨l, rfl⟩ := hpoint hc
    cases hset
  · constructor
    · exact List.nodup_nil
    · exact fun w hw => absurd hw List.not_mem_nil
    · exact List.suffix_refl _
    · exact fun t w h => absurd h (hshows fun _ => rfl)
    · exact fun w hw => ⟨rfl, rfl⟩
    · exact fun w hw => absurd hw List.not_mem_nil
    · exact fun t w h => absurd h (hshows fun _ => rfl)
    · exact fun w hw => absurd hw List.not_mem_nil
    · exact fun t w h => absurd h (hshows fun _ => rfl)
    · exact fun t u w h => absurd h (hshows fun _ => rfl)
    · exact fun w hw => absurd hw List.not_mem_nil
    · exact fun t h => absurd h (hshows fun _ => rfl)

lemma Sane.run (h : Sane cl v₀ σ) (hr : Run cl.code σ σ') : Sane cl v₀ σ' :=
  hr.invariant (I := Sane cl v₀) (fun _ _ _ h _ hm => h.step hm) h

lemma Sane.fault (h : Sane cl v₀ σ) (hm : σ.move cl.code o = some (.error e)) : Fails cl o σ e := by
  obtain ⟨c, f, ht, hc, hf⟩ := h.steady.fault hm
  have hp : σ.points[o.1]? = some c := points_getElem? ht
  have hheld : ∀ {next : MonitorPoint L}, c.settled = true →
      (if σ.memory.monitor.lockHolder = some o.1 then .ok (σ.memory, next) else .error .assertion) ≠
        (.error e : Except Fault _) := by
    intro next hs he
    rw [if_pos (h.locked.holder o.1 c hp hs)] at he
    cases he
  have hdata : ∀ {g : D → Except Fault (D × L)} {next : L → MonitorPoint L},
      ((g σ.memory.data).map fun r => (({ σ.memory with data := r.1 } : Memory D), next r.2)) = .error e →
        g σ.memory.data = .error e := by
    intro g next hg
    cases hd : g σ.memory.data with
    | ok r => simp [hd, Except.map] at hg
    | error e' => simpa [hd, Except.map] using hg
  cases c with
  | outside l =>
    obtain ⟨call, hk, hcall⟩ := Option.map_eq_some_iff.mp hc
    cases call <;> cases hcall
    exact ⟨l, _, hdata hf, .inl ⟨hp, hk⟩⟩
  | inside l =>
    obtain ⟨call, hk, hcall⟩ := Option.map_eq_some_iff.mp hc
    cases call with
    | act g =>
      cases hcall
      exact ⟨l, _, hdata hf, .inr ⟨hp, hk⟩⟩
    | broadcast l' =>
      cases hcall
      cases hf
    | p s l' => cases hcall
    | v s l' => cases hcall
    | _ =>
      cases hcall
      exact absurd hf (hheld rfl)
  | releaseAssert w l =>
    cases hc
    exact absurd hf (hheld rfl)
  | signalAssert l =>
    cases hc
    exact absurd hf (hheld rfl)
  | waitAppend w l =>
    cases hc
    have hnew := (h.queued.fresh o.1 w ((shows_of_point hp).mpr rfl)).2
    simp only at hf
    split at hf
    · rename_i hmem
      exact absurd (h.queued.fifo.subset hmem) hnew
    · cases hf
  | signalRemove b l =>
    cases hc
    have hne := h.queued.removing o.1 ((shows_of_point hp).mpr rfl)
    simp only at hf
    split at hf
    · rename_i hq
      exact absurd hq hne
    · cases hf
  | releaseV w l => cases hc
  | waitP w l => cases hc
  | waitAcquire l => cases hc
  | signalV w b l => cases hc
  | _ =>
    cases hc
    cases hf

end Runs

end Client

end NachosFileSys
