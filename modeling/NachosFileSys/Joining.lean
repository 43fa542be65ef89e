import NachosFileSys.Kernel
import NachosFileSys.Lib.Runs

/-! `SC_JOIN` of one thread and `SC_Exit` of its children. The interrupts are off in `SC_Exit` up to
`Finish` and in `SC_JOIN` from the assignment of `waitingFor` to `Sleep`; elsewhere another thread
may run. -/

namespace NachosFileSys

open Lib.Runs

/-- Where the parent is in `SC_JOIN`: outside it, after a search of `childrenResult` that found
nothing, in `Sleep`, or on the ready list with the `at` still to come. -/
inductive JoinPoint
  | idle
  | searched (id : ℤ)
  | asleep (id : ℤ)
  | ready (id : ℤ)
  deriving DecidableEq

/-- The fields of a parent that its children share with it, and the kernel's list of waiting
threads. The children are given by their PIDs. -/
structure Family where
  PID : ℤ
  childList : List ℤ
  childrenResult : ℤ → Option ℤ
  finishedChild : List ℤ
  waitingFor : ℤ
  waitingChildrenList : List ℤ
  point : JoinPoint

namespace Family

def append (list : List ℤ) (item : ℤ) : Except Fault (List ℤ) :=
  if item ∈ list then .error .assertion else .ok (list ++ [item])

/-- Stops at the second assertion where the item was on the list twice. -/
def remove (list : List ℤ) (item : ℤ) : Except Fault (List ℤ) :=
  if item ∈ list ∧ item ∉ list.erase item then .ok (list.erase item) else .error .assertion

def insert (m : ℤ → Option ℤ) (key value : ℤ) : ℤ → Option ℤ :=
  if m key = none then Function.update m key (some value) else m

def mapAt (m : ℤ → Option ℤ) (key : ℤ) : Except Fault ℤ :=
  match m key with
  | some value => .ok value
  | none => .error .index

def readyToRun (f : Family) : Family :=
  match f.point with
  | .asleep id => { f with point := .ready id }
  | _ => f

def exit (f : Family) (cur status : ℤ) : Except Fault Family := do
  let childList ← remove f.childList cur
  let finishedChild ← append f.finishedChild cur
  let f := { f with
    childrenResult := insert f.childrenResult cur status,
    childList := childList,
    finishedChild := finishedChild }
  if f.waitingFor = cur then
    let waitingChildrenList ← remove f.waitingChildrenList f.PID
    return readyToRun { f with waitingChildrenList := waitingChildrenList }
  else
    return f

/-- `SC_JOIN` up to the end of the search: it returns, or goes on to wait. -/
def join (f : Family) (id : ℤ) : Except Fault (Family × Option ℤ) :=
  if id ∉ f.childList ∨ f.waitingFor ≠ -1 then
    .ok (f, some (-1))
  else if f.childrenResult id = none then
    .ok ({ f with point := .searched id }, none)
  else do
    let result ← mapAt f.childrenResult id
    return (f, some result)

def sleep (f : Family) (id : ℤ) : Except Fault Family := do
  let waitingChildrenList ← append f.waitingChildrenList f.PID
  return { f with waitingFor := id, waitingChildrenList := waitingChildrenList, point := .asleep id }

def resume (f : Family) (id : ℤ) : Except Fault (Family × ℤ) := do
  let result ← mapAt f.childrenResult id
  return ({ f with point := .idle }, result)

end Family

namespace Joining

/-- The family with what has happened so far: the status that each child has passed to `Exit`, and
the calls of `Join` that have returned, with their results. -/
structure State where
  family : Family
  children : List ℤ
  exited : ℤ → Option ℤ
  joined : List (ℤ × ℤ)

def start (PID : ℤ) (children waiting : List ℤ) : State :=
  ⟨⟨PID, children, fun _ => none, [], -1, waiting, .idle⟩, children, fun _ => none, []⟩

inductive Act
  | exit (child status : ℤ)
  | join (id : ℤ)
  | sleep (id : ℤ)
  | resume (id : ℤ)

def Enabled (s : State) : Act → Prop
  | .exit child _ => child ∈ s.children ∧ s.exited child = none
  | .join _ => s.family.point = .idle
  | .sleep id => s.family.point = .searched id
  | .resume id => s.family.point = .ready id

def step (s : State) : Act → Except Fault State
  | .exit child status => do
    let f ← s.family.exit child status
    return { s with family := f, exited := Function.update s.exited child (some status) }
  | .join id => do
    let (f, result) ← s.family.join id
    return { s with family := f, joined := s.joined ++ (result.map (id, ·)).toList }
  | .sleep id => do
    let f ← s.family.sleep id
    return { s with family := f }
  | .resume id => do
    let (f, result) ← s.family.resume id
    return { s with family := f, joined := s.joined ++ [(id, result)] }

def Next (a : Act) (s s' : State) : Prop := Enabled s a ∧ step s a = .ok s'

abbrev Reach (ok : State → Act → Prop) := Reaches Next ok

/-- A child is joined before it exits and before any call of `Join` has waited, and it does not exit
between the search and `Sleep`. -/
def Timely (s : State) : Act → Prop
  | .exit child _ => s.family.point ≠ .searched child
  | .join id => id ∈ s.children → s.exited id = none ∧ s.family.waitingFor = -1
  | .sleep _ => True
  | .resume _ => True

/-- Every `Join` of a child returned the status that the child passed to `Exit`; a parent that
waits, waits for a child that has not exited and whose exit wakes it; a woken one has a status to
return; and nothing stops. -/
structure Agrees (s : State) : Prop where
  joined (id result : ℤ) (h : (id, result) ∈ s.joined) (hc : id ∈ s.children) : s.exited id = some result
  asleep (id : ℤ) (h : s.family.point = .asleep id) : id ∈ s.children ∧ s.exited id = none ∧
    ∀ status, ∃ s', step s (.exit id status) = .ok s' ∧ s'.family.point = .ready id
  ready (id : ℤ) (h : s.family.point = .ready id) : ∃ status, s.exited id = some status ∧
    ∃ s', step s (.resume id) = .ok s' ∧ s'.joined = s.joined ++ [(id, status)]
  safe (a : Act) (h : Enabled s a) : ∃ s', step s a = .ok s'

end Joining

def JoinPoint.isAsleep : JoinPoint → Bool
  | .asleep _ => true
  | _ => false

namespace Joining

structure Shared (s : State) : Prop where
  named (c : ℤ) (h : c ∈ s.children) : c ≠ -1
  nodup : s.family.childList.Nodup
  live (c : ℤ) : c ∈ s.family.childList ↔ c ∈ s.children ∧ s.exited c = none
  results : s.family.childrenResult = s.exited
  finished (c : ℤ) (h : c ∈ s.family.finishedChild) : s.exited c ≠ none
  counted : s.family.waitingChildrenList.count s.family.PID = if s.family.point.isAsleep then 1 else 0
  searched (id : ℤ) (h : s.family.point = .searched id) : id ∈ s.children ∧ s.family.waitingFor = -1
  asleep (id : ℤ) (h : s.family.point = .asleep id) : id ∈ s.children ∧ s.family.waitingFor = id
  ready (id : ℤ) (h : s.family.point = .ready id) : s.exited id ≠ none
  waiting (c : ℤ) (h : s.family.waitingFor = c) (hc : c ∈ s.children) (hn : s.exited c = none) :
    s.family.point = .asleep c

variable {s s' : State} {PID c id status : ℤ} {children waiting : List ℤ} {a : Act}

lemma Shared.start (hnodup : children.Nodup) (hnamed : ∀ c ∈ children, c ≠ -1) (hw : PID ∉ waiting) :
    Shared (start PID children waiting) where
  named := hnamed
  nodup := hnodup
  live c := by simp [Joining.start]
  results := rfl
  finished c h := by simp [Joining.start] at h
  counted := List.count_eq_zero.mpr hw
  searched id h := by cases h
  asleep id h := by cases h
  ready id h := by cases h
  waiting c h hc _ := absurd h.symm (hnamed c hc)

def exitState (s : State) (child status : ℤ) : State :=
  { s with
    exited := Function.update s.exited child (some status),
    family := { s.family with
      childrenResult := Function.update s.exited child (some status),
      childList := s.family.childList.erase child,
      finishedChild := s.family.finishedChild ++ [child],
      waitingChildrenList := if s.family.waitingFor = child
        then s.family.waitingChildrenList.erase s.family.PID else s.family.waitingChildrenList,
      point := if s.family.waitingFor = child then .ready child else s.family.point } }

lemma Shared.exit (h : Shared s) (hc : c ∈ s.children) (hn : s.exited c = none) (status : ℤ) :
    step s (.exit c status) = .ok (exitState s c status) := by
  have hrem : Family.remove s.family.childList c = .ok (s.family.childList.erase c) :=
    if_pos ⟨(h.live c).mpr ⟨hc, hn⟩, h.nodup.not_mem_erase⟩
  have happ : Family.append s.family.finishedChild c = .ok (s.family.finishedChild ++ [c]) :=
    if_neg fun hf => h.finished c hf hn
  have hins : Family.insert s.family.childrenResult c status = Function.update s.exited c (some status) := by
    rw [Family.insert, h.results, if_pos hn]
  rw [step, Family.exit, hrem, happ, hins]
  by_cases hw : s.family.waitingFor = c
  · have hp := h.waiting c hw hc hn
    have hcount : s.family.waitingChildrenList.count s.family.PID = 1 := by
      rw [h.counted, hp]
      rfl
    have hlist : Family.remove s.family.waitingChildrenList s.family.PID =
        .ok (s.family.waitingChildrenList.erase s.family.PID) := by
      refine if_pos ⟨List.count_pos_iff.mp (by omega), List.count_eq_zero.mp ?_⟩
      rw [List.count_erase_self, hcount]
    simp [exitState, hw, hlist, Family.readyToRun, hp, bind, Except.bind, pure, Except.pure]
  · simp [exitState, hw, bind, Except.bind, pure, Except.pure]

lemma Shared.join_refused (h : Shared s)
    (hr : ¬(id ∈ s.children ∧ s.exited id = none ∧ s.family.waitingFor = -1)) :
    step s (.join id) = .ok { s with joined := s.joined ++ [(id, -1)] } := by
  have hr' : id ∉ s.family.childList ∨ s.family.waitingFor ≠ -1 := by
    rw [h.live]
    tauto
  rw [step, Family.join, if_pos hr']
  rfl

lemma Shared.join_searched (h : Shared s) (hc : id ∈ s.children) (hn : s.exited id = none)
    (hw : s.family.waitingFor = -1) :
    step s (.join id) = .ok { s with family := { s.family with point := .searched id } } := by
  have hl := (h.live id).mpr ⟨hc, hn⟩
  rw [step, Family.join, if_neg (by tauto), if_pos (by rw [h.results, hn])]
  simp [bind, Except.bind, pure, Except.pure]

lemma Shared.sleep (h : Shared s) (ha : s.family.point = .searched id) :
    step s (.sleep id) = .ok { s with family := { s.family with
      waitingFor := id, waitingChildrenList := s.family.waitingChildrenList ++ [s.family.PID], point :=
        .asleep id } } := by
  have happ : Family.append s.family.waitingChildrenList s.family.PID =
      .ok (s.family.waitingChildrenList ++ [s.family.PID]) := by
    refine if_neg (List.count_eq_zero.mp ?_)
    rw [h.counted, ha]
    rfl
  rw [step, Family.sleep, happ]
  rfl

lemma Shared.resume (h : Shared s) (ha : s.family.point = .ready id) : ∃ status, s.exited id = some status ∧
    step s (.resume id) = .ok { s with
      family := { s.family with point := .idle }, joined := s.joined ++ [(id, status)] } := by
  obtain ⟨status, hs⟩ := Option.ne_none_iff_exists'.mp (h.ready id ha)
  have hmap : Family.mapAt s.family.childrenResult id = .ok status := by
    rw [Family.mapAt, h.results, hs]
  refine ⟨status, hs, ?_⟩
  rw [step, Family.resume, hmap]
  rfl

inductive Goes (s : State) : Act → State → Prop
  | exit {c status : ℤ} (hc : c ∈ s.children) (hn : s.exited c = none) :
      Goes s (.exit c status) (exitState s c status)
  | refuse {id : ℤ} (hp : s.family.point = .idle)
      (hr : ¬(id ∈ s.children ∧ s.exited id = none ∧ s.family.waitingFor = -1)) :
      Goes s (.join id) { s with joined := s.joined ++ [(id, -1)] }
  | search {id : ℤ} (hp : s.family.point = .idle) (hc : id ∈ s.children) (hn : s.exited id = none)
      (hw : s.family.waitingFor = -1) :
      Goes s (.join id) { s with family := { s.family with point := .searched id } }
  | sleep {id : ℤ} (hp : s.family.point = .searched id) :
      Goes s (.sleep id) { s with family := { s.family with
        waitingFor := id, waitingChildrenList := s.family.waitingChildrenList ++ [s.family.PID], point :=
          .asleep id } }
  | resume {id status : ℤ} (hp : s.family.point = .ready id) (hs : s.exited id = some status) :
      Goes s (.resume id)
      { s with family := { s.family with point := .idle }, joined := s.joined ++ [(id, status)] }

lemma Shared.goes (h : Shared s) (ha : Enabled s a) : ∃ s', step s a = .ok s' ∧ Goes s a s' := by
  cases a with
  | exit c status => exact ⟨_, h.exit ha.1 ha.2 status, .exit ha.1 ha.2⟩
  | join id =>
    by_cases hr : id ∈ s.children ∧ s.exited id = none ∧ s.family.waitingFor = -1
    · exact ⟨_, h.join_searched hr.1 hr.2.1 hr.2.2, .search ha hr.1 hr.2.1 hr.2.2⟩
    · exact ⟨_, h.join_refused hr, .refuse ha hr⟩
  | sleep id => exact ⟨_, h.sleep ha, .sleep ha⟩
  | resume id =>
    obtain ⟨status, hs, hstep⟩ := h.resume ha
    exact ⟨_, hstep, .resume ha hs⟩

lemma Shared.goes_of_next (h : Shared s) (hn : Next a s s') : Goes s a s' := by
  obtain ⟨t, hs, hg⟩ := h.goes hn.1
  rw [hn.2] at hs
  cases hs
  exact hg

lemma exited_update (hk : s.exited id ≠ none) : Function.update s.exited c (some status) id ≠ none := by
  rcases eq_or_ne id c with rfl | hne
  · simp
  · rwa [Function.update_of_ne hne]

lemma Shared.next_exit (h : Shared s) (hc : c ∈ s.children) (hn : s.exited c = none) :
    Shared (exitState s c status) where
  named := h.named
  nodup := h.nodup.erase c
  live x := by
    rw [exitState, h.nodup.mem_erase_iff, h.live]
    rcases eq_or_ne x c with rfl | hne
    · simp
    · simp [hne]
  results := rfl
  finished x hx := by
    rcases List.mem_append.mp hx with hx | hx
    · exact exited_update (h.finished x hx)
    · rw [List.mem_singleton.mp hx]
      simp [exitState]
  counted := by
    have hcount := h.counted
    by_cases hw : s.family.waitingFor = c
    · rw [h.waiting c hw hc hn] at hcount
      simp [exitState, hw, JoinPoint.isAsleep, hcount]
    · simpa [exitState, hw] using hcount
  searched id hp := by
    by_cases hw : s.family.waitingFor = c
    · simp [exitState, hw] at hp
    · exact h.searched id (by simpa [exitState, hw] using hp)
  asleep id hp := by
    by_cases hw : s.family.waitingFor = c
    · simp [exitState, hw] at hp
    · exact h.asleep id (by simpa [exitState, hw] using hp)
  ready id hp := by
    by_cases hw : s.family.waitingFor = c
    · obtain rfl : c = id := by simpa [exitState, hw] using hp
      simp [exitState]
    · exact exited_update (h.ready id (by simpa [exitState, hw] using hp))
  waiting x hx hxc hxn := by
    have hne : x ≠ c := by
      rintro rfl
      simp [exitState] at hxn
    have hw : s.family.waitingFor ≠ c := fun hw => hne (hx.symm.trans hw)
    have hold : s.exited x = none := by simpa [exitState, Function.update_of_ne hne] using hxn
    simpa [exitState, hw] using h.waiting x hx hxc hold

lemma Shared.next (h : Shared s) (hg : Goes s a s') : Shared s' := by
  cases hg with
  | exit hc hn => exact h.next_exit hc hn
  | refuse hp hr => exact { h with }
  | search hp hc hn hw =>
    have hcount := h.counted
    rw [hp] at hcount
    refine { h with counted := hcount, searched := ?_, asleep := ?_, ready := ?_, waiting := ?_ }
    · intro id hid
      cases hid
      exact ⟨hc, hw⟩
    · intro id hid
      cases hid
    · intro id hid
      cases hid
    · intro c hx hxc _
      exact absurd (hx.symm.trans hw) (h.named c hxc)
  | sleep hp =>
    have hcount := h.counted
    rw [hp] at hcount
    refine { h with counted := ?_, searched := ?_, asleep := ?_, ready := ?_, waiting := ?_ }
    · simp [hcount, JoinPoint.isAsleep]
    · intro id hid
      cases hid
    · intro id hid
      cases hid
      exact ⟨(h.searched _ hp).1, rfl⟩
    · intro id hid
      cases hid
    · intro c hx _ _
      cases hx
      rfl
  | resume hp hs =>
    have hcount := h.counted
    rw [hp] at hcount
    refine { h with counted := hcount, searched := ?_, asleep := ?_, ready := ?_, waiting := ?_ }
    · intro id hid
      cases hid
    · intro id hid
      cases hid
    · intro id hid
      cases hid
    · intro c hx hxc hxn
      have hold := h.waiting c hx hxc hxn
      rw [hp] at hold
      cases hold

structure Kept (s : State) : Prop extends Shared s where
  joined (id result : ℤ) (h : (id, result) ∈ s.joined) (hc : id ∈ s.children) : s.exited id = some result
  unmissed (id : ℤ) (h : s.family.point = .searched id ∨ s.family.point = .asleep id) : s.exited id = none

lemma Kept.next (h : Kept s) (ht : Timely s a) (hg : Goes s a s') : Kept s' := by
  refine { h.toShared.next hg with joined := ?_, unmissed := ?_ }
  · cases hg with
    | @exit c status hc hn =>
      intro id result hj hid
      have hold := h.joined id result hj hid
      have hne : id ≠ c := by
        rintro rfl
        rw [hn] at hold
        cases hold
      exact (Function.update_of_ne hne _ _).trans hold
    | @refuse id' hp hr =>
      intro id result hj hid
      rcases List.mem_append.mp hj with hj | hj
      · exact h.joined id result hj hid
      · cases List.mem_singleton.mp hj
        exact absurd ⟨hid, ht hid⟩ hr
    | search hp hc hn hw => exact h.joined
    | sleep hp => exact h.joined
    | resume hp hs =>
      intro id result hj hid
      rcases List.mem_append.mp hj with hj | hj
      · exact h.joined id result hj hid
      · cases List.mem_singleton.mp hj
        exact hs
  · cases hg with
    | @exit c status hc hn =>
      intro id hp
      by_cases hw : s.family.waitingFor = c
      · simp [exitState, hw] at hp
      · have hp' : s.family.point = .searched id ∨ s.family.point = .asleep id := by simpa [exitState, hw] using hp
        have hne : id ≠ c := by
          rintro rfl
          rcases hp' with hp' | hp'
          · exact ht hp'
          · exact hw (h.asleep id hp').2
        exact (Function.update_of_ne hne _ _).trans (h.unmissed id hp')
    | refuse hp hr => exact h.unmissed
    | search hp hc hn hw =>
      intro id hid
      rcases hid with hid | hid
      · cases hid
        exact hn
      · cases hid
    | sleep hp =>
      intro id hid
      rcases hid with hid | hid
      · cases hid
      · cases hid
        exact h.unmissed _ (.inl hp)
    | resume hp hs =>
      intro id hid
      rcases hid with hid | hid <;> cases hid

lemma Kept.agrees (h : Kept s) : Agrees s where
  joined := h.joined
  asleep id hp := by
    have hn := h.unmissed id (.inr hp)
    obtain ⟨hc, hw⟩ := h.asleep id hp
    refine ⟨hc, hn, fun status => ⟨exitState s id status, h.exit hc hn status, ?_⟩⟩
    simp [exitState, hw]
  ready id hp := by
    obtain ⟨status, hs, hstep⟩ := h.toShared.resume hp
    exact ⟨status, hs, _, hstep, rfl⟩
  safe a ha := by
    obtain ⟨s', hs, -⟩ := h.goes ha
    exact ⟨s', hs⟩

lemma Kept.start (hnodup : children.Nodup) (hnamed : ∀ c ∈ children, c ≠ -1) (hw : PID ∉ waiting) :
    Kept (start PID children waiting) where
  toShared := Shared.start hnodup hnamed hw
  joined id result h _ := by simp [Joining.start] at h
  unmissed id h := by simp [Joining.start] at h

lemma kept_of_reach (hnodup : children.Nodup) (hnamed : ∀ c ∈ children, c ≠ -1) (hw : PID ∉ waiting)
    (h : Reach Timely (start PID children waiting) s) : Kept s := by
  have hstep : ∀ a t u, Kept t → Timely t a → Next a t u → Kept u :=
    fun a t u ht hta hn => ht.next hta (ht.goes_of_next hn)
  exact h.invariant (I := Kept) hstep (.start hnodup hnamed hw)

lemma shared_of_reach {ok : State → Act → Prop} (hnodup : children.Nodup) (hnamed : ∀ c ∈ children, c ≠ -1)
    (hw : PID ∉ waiting) (h : Reach ok (start PID children waiting) s) : Shared s := by
  have hstep : ∀ a t u, Shared t → ok t a → Next a t u → Shared u :=
    fun a t u ht _ hn => ht.next (ht.goes_of_next hn)
  exact h.invariant (I := Shared) hstep (.start hnodup hnamed hw)

/-- Where every `Join` of a child comes before its exit and before any `Join` that has waited, and
no child exits between the search and `Sleep`, parent and children agree; in any run, a `Join` of a
child that comes later returns -1 at once. -/
theorem joins_agree (hnodup : children.Nodup) (hnamed : ∀ c ∈ children, c ≠ -1) (hw : PID ∉ waiting) :
    (Reach Timely (start PID children waiting) s → Agrees s) ∧
    (Reach (fun _ _ => True) (start PID children waiting) s → ∀ id ∈ s.children, ¬Timely s (.join id) →
      step s (.join id) = .ok { s with joined := s.joined ++ [(id, -1)] }) := by
  refine ⟨fun h => (kept_of_reach hnodup hnamed hw h).agrees, fun h id _ hid => ?_⟩
  exact (shared_of_reach hnodup hnamed hw h).join_refused fun hr => hid fun _ => hr.2

lemma Reach.take {ok : State → Act → Prop} {s₀ : State} (h : Reach ok s₀ s) (a : Act) (hok : ok s a)
    (ha : Enabled s a) (hs : step s a = .ok s') : Reach ok s₀ s' :=
  Reaches.step a h hok ⟨ha, hs⟩

theorem joins_agree_twins : ∃ s, s.joined = [(1, 7)] ∧ s.exited 2 = some 5 ∧ Agrees s := by
  have h₀ : Reach Timely (start 0 [1, 2] []) (start 0 [1, 2] []) := .refl
  have h₁ := Reach.take h₀ (.join 1) (fun _ => ⟨rfl, rfl⟩) rfl rfl
  have h₂ := Reach.take h₁ (.exit 2 5) (by simp [Timely]) ⟨by decide, rfl⟩ rfl
  have h₃ := Reach.take h₂ (.sleep 1) trivial rfl rfl
  have h₄ := Reach.take h₃ (.exit 1 7) (by simp [Timely]) ⟨by decide, rfl⟩ rfl
  have h₅ := Reach.take h₄ (.resume 1) trivial rfl rfl
  exact ⟨_, rfl, rfl, (joins_agree (by decide) (by decide) (by decide)).1 h₅⟩

/-- A child that exits first is joined with -1, and so is the second of two that are joined while they run. -/
theorem joins_disagree :
    (¬∀ PID children waiting s, children.Nodup → (∀ c ∈ children, c ≠ -1) → PID ∉ waiting →
      Reach (fun _ _ => True) (start PID children waiting) s → Agrees s) ∧
    ¬∀ s, Reach (fun s a => ∀ id, a = .join id → s.exited id = none) (start 0 [1, 2] []) s → Agrees s := by
  constructor
  · intro hall
    have h₀ : Reach (fun _ _ => True) (start 0 [1] []) (start 0 [1] []) := .refl
    have h₁ := Reach.take h₀ (.exit 1 7) trivial ⟨by decide, rfl⟩ rfl
    have h₂ := Reach.take h₁ (.join 1) trivial rfl rfl
    have hagrees := hall _ _ _ _ (by decide) (by decide) (by decide) h₂
    have hstatus := hagrees.joined 1 (-1) (by decide) (by decide)
    cases hstatus
  · intro hall
    have h₀ :
        Reach (fun s a => ∀ id, a = .join id → s.exited id = none) (start 0 [1, 2] []) (start 0 [1, 2] []) := .refl
    have h₁ := Reach.take h₀ (.join 1) (by rintro id ⟨⟩; rfl) rfl rfl
    have h₂ := Reach.take h₁ (.sleep 1) (by rintro id ⟨⟩) rfl rfl
    have h₃ := Reach.take h₂ (.exit 1 7) (by rintro id ⟨⟩) ⟨by decide, rfl⟩ rfl
    have h₄ := Reach.take h₃ (.resume 1) (by rintro id ⟨⟩) rfl rfl
    have h₅ := Reach.take h₄ (.join 2) (by rintro id ⟨⟩; rfl) rfl rfl
    have h₆ := Reach.take h₅ (.exit 2 5) (by rintro id ⟨⟩) ⟨by decide, rfl⟩ rfl
    have hstatus := (hall _ h₆).joined 2 (-1) (by decide) (by decide)
    cases hstatus

end Joining

end NachosFileSys
