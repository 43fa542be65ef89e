import NachosFileSys.Conditions
import NachosFileSys.Goals

/-! `SynchList`: producers that call `Append` and consumers that call `RemoveFront`, on one list with its lock
and its condition `listEmpty`. -/

namespace NachosFileSys

open Lib.Runs Lib.Threads Concurrent Client

structure Channel (T : Type) where
  list : List T
  added : List T
  taken : List T

/-- The points of `Append` and `RemoveFront` outside the calls on the lock and the condition. -/
inductive ListPoint (T : Type)
  -- between two calls, with what `RemoveFront` has returned
  | idle (item : Option T)
  | append (item : T)
  | signal
  -- the test of the loop, for the first time or after `Wait`
  | test (again : Bool)
  | wait
  | remove
  | leave (item : Option T)

namespace SynchList

variable {T : Type}

def client (T : Type) [DecidableEq T] : Client Empty (Channel T) (Option T) (ListPoint T) where
  outer call _ l := match l, call with
    | .idle _, some item => some (.acquire (.append item))
    | .idle _, none => some (.acquire (.test false))
    | _, _ => none
  inner _ _ l := match l with
    | .append item => some (.act fun d =>
      if item ∈ d.list then .error .assertion
      else .ok ({ d with list := d.list ++ [item], added := d.added ++ [item] }, .signal))
    | .signal => some (.signal (.leave none))
    | .test _ => some (.act fun d => .ok (d, if d.list = [] then .wait else .remove))
    | .wait => some (.wait (.test true))
    | .remove => some (.act fun d => match d.list with
      | [] => .error .assertion
      | item :: rest => .ok ({ d with list := rest, taken := d.taken ++ [item] }, .leave (some item)))
    | .leave item => some (.release (.idle item))
    | .idle _ => none

abbrev State (T : Type) := Client.World Empty (Channel T) (ListPoint T)

/-- The thread has been signalled in `Wait` and not tested the list since. -/
def rechecks (raised : Sem Empty → ℕ) (c : MonitorPoint (ListPoint T)) : Bool :=
  match c with
  | .acquired (.test true) | .inside (.test true) | .waitAcquire _ => true
  | c => c.waiter.any fun w => raised (.waiter w) ≠ 0

def busy : MonitorPoint (ListPoint T) → Bool
  | .inside .signal | .signalTest _ _ | .signalRemove _ _ | .signalV _ _ _ | .inside .remove => true
  | _ => false

def attends (raised : Sem Empty → ℕ) (c : MonitorPoint (ListPoint T)) : Bool := rechecks raised c || busy c

def shaped : MonitorPoint (ListPoint T) → Bool
  | .acquired (.append _) | .acquired (.test _) => true
  | .acquired _ => false
  | .waitNew l | .waitAppend _ l | .releaseAssert _ l | .releaseClear (some _) l | .releaseV (some _) l
  | .waitP _ l | .waitAcquire l => match l with
    | .test again => again
    | _ => false
  | .signalTest b l | .signalRemove b l | .signalV _ b l => match l with
    | .leave _ => !b
    | _ => false
  | .signalAssert _ | .broadcastTest _ => false
  | _ => true

def starved : MonitorPoint (ListPoint T) → Bool
  | .inside .wait | .waitNew _ | .waitAppend _ _ => true
  | _ => false

structure Good (σ : State T) : Prop where
  fifo : σ.memory.data.added = σ.memory.data.taken ++ σ.memory.data.list
  shaped (t : ℕ) (c : MonitorPoint (ListPoint T)) (h : σ.points[t]? = some c) : shaped c = true
  starved (t : ℕ) (c : MonitorPoint (ListPoint T)) (h : σ.points[t]? = some c) (hc : starved c = true) :
    σ.memory.data.list = []
  remove (t : ℕ) (h : σ.points[t]? = some (.inside .remove)) : σ.memory.data.list ≠ []
  attended (h : σ.memory.monitor.waitQueue ≠ []) :
    σ.memory.data.list.length ≤ σ.points.countP (attends σ.raised)

variable {σ σ' : State T} {o : ℕ × Option T} {t w : ℕ} {k : Option T} {c c' : MonitorPoint (ListPoint T)}
  {v₀ : Empty → ℤ} {r r' : Sem Empty → ℕ} {b : Bool} {l : ListPoint T}

lemma attends_congr (h : ∀ w, r' (.waiter w) = r (.waiter w)) :
    attends r' = (attends r : MonitorPoint (ListPoint T) → Bool) := by
  funext c
  simp only [attends, rechecks, h]

lemma holds_of_starved (h : starved c = true) : c.holds = true := by
  cases c <;> first | rfl | cases h

lemma holds_of_busy (h : busy c = true) : c.holds = true := by
  cases c <;> first | rfl | cases h

lemma attends_mono (h : ∀ s, r s ≤ r' s) (hc : attends r c = true) : attends r' c = true := by
  simp only [attends, rechecks, Bool.or_eq_true] at hc ⊢
  refine hc.imp_left fun hc => ?_
  split at hc <;> try rfl
  cases hw : c.waiter with
  | none => simp [hw] at hc
  | some w =>
    have := h (.waiter w)
    simp only [hw, Option.any_some, decide_eq_true_eq] at hc ⊢
    omega

lemma attends_waiter (hc : c.waiter = some w) (hw : r (.waiter w) ≠ 0) : attends r c = true := by
  cases c <;> simp_all [attends, rechecks, MonitorPoint.waiter]

lemma attends_waiter_false (hc : c.waiter = some w) (hw : r (.waiter w) = 0) : attends r c = false := by
  cases c <;> simp_all [attends, rechecks, busy, MonitorPoint.waiter]

lemma Good.frame (h : Good σ) (hp : σ.points[t]? = some c) (hp' : σ'.points = σ.points.set t c')
    (hd : σ'.memory.data = σ.memory.data) (hr : ∀ w, σ'.raised (.waiter w) = σ.raised (.waiter w))
    (hq : σ'.memory.monitor.waitQueue ≠ [] → σ.memory.monitor.waitQueue ≠ [] ∧
      (attends σ.raised c = true → attends σ.raised c' = true))
    (hl : SynchList.shaped c' = true) (hs : SynchList.starved c' = true → SynchList.starved c = true)
    (hm : c' = .inside .remove → c = .inside .remove) : Good σ' := by
  have hlt : t < σ.points.length := (List.getElem?_eq_some_iff.mp hp).1
  have hcases : ∀ {u d}, σ'.points[u]? = some d → u = t ∧ d = c' ∨ σ.points[u]? = some d := by
    intro u d hu
    rcases eq_or_ne u t with rfl | hne
    · left
      simpa [hp', hlt, eq_comm] using hu
    · right
      rwa [hp', List.getElem?_set_ne hne.symm] at hu
  constructor
  · rw [hd]
    exact h.fifo
  · intro u d hu
    obtain ⟨-, rfl⟩ | hu := hcases hu
    · exact hl
    · exact h.shaped u d hu
  · intro u d hu hst
    rw [hd]
    obtain ⟨-, rfl⟩ | hu := hcases hu
    · exact h.starved t c hp (hs hst)
    · exact h.starved u d hu hst
  · intro u hu
    rw [hd]
    obtain ⟨-, he⟩ | hu := hcases hu
    · exact h.remove t (by rw [hp, hm he.symm])
    · exact h.remove u hu
  · intro hne
    obtain ⟨hne', hatt⟩ := hq hne
    have hcount := Pool.countP_set (p := attends σ.raised) hp c'
    have hold := h.attended hne'
    rw [hd, attends_congr hr, hp']
    split at hcount
    · rename_i hc
      simp only [hatt hc, if_true] at hcount
      omega
    · omega

lemma Good.attended_set (h : Good σ) (hp : σ.points[t]? = some c) (hp' : σ'.points = σ.points.set t c')
    (hr : σ'.raised = σ.raised) (hq : σ.memory.monitor.waitQueue ≠ [])
    (hle : σ'.memory.data.list.length + (if attends σ.raised c then 1 else 0) ≤
      σ.memory.data.list.length + (if attends σ.raised c' then 1 else 0)) :
    σ'.memory.data.list.length ≤ σ'.points.countP (attends σ'.raised) := by
  have hcount := Pool.countP_set (p := attends σ.raised) hp c'
  have hold := h.attended hq
  rw [hr, hp']
  omega

lemma Good.change [DecidableEq T] (h : Good σ) (hs : Sane (client T) v₀ σ)
    (hp : σ.points[t]? = some c) (hc : c.holds = true)
    (hp' : σ'.points = σ.points.set t c')
    (hfifo : σ'.memory.data.added = σ'.memory.data.taken ++ σ'.memory.data.list)
    (hl : SynchList.shaped c' = true) (hst : SynchList.starved c' = true → σ'.memory.data.list = [])
    (hm : c' = .inside .remove → σ'.memory.data.list ≠ [])
    (hatt : σ'.memory.monitor.waitQueue ≠ [] → σ'.memory.data.list.length ≤ σ'.points.countP (attends σ'.raised)) :
    Good σ' := by
  have hlt : t < σ.points.length := (List.getElem?_eq_some_iff.mp hp).1
  have hcases : ∀ {u d}, σ'.points[u]? = some d → u = t ∧ d = c' ∨ σ.points[u]? = some d ∧ d.holds = false := by
    intro u d hu
    rcases eq_or_ne u t with rfl | hne
    · left
      simpa [hp', hlt, eq_comm] using hu
    · right
      rw [hp', List.getElem?_set_ne hne.symm] at hu
      refine ⟨hu, ?_⟩
      cases hd : d.holds with
      | false => rfl
      | true => exact absurd (hs.locked.exclusive (hs.nonneg _) hu hp hd hc) hne
  constructor
  · exact hfifo
  · intro u d hu
    obtain ⟨-, rfl⟩ | ⟨hu, -⟩ := hcases hu
    · exact hl
    · exact h.shaped u d hu
  · intro u d hu hd
    obtain ⟨-, rfl⟩ | ⟨-, hfree⟩ := hcases hu
    · exact hst hd
    · rw [holds_of_starved hd] at hfree
      cases hfree
  · intro u hu
    obtain ⟨-, he⟩ | ⟨-, hfree⟩ := hcases hu
    · exact hm he.symm
    · cases hfree
  · exact hatt

lemma Good.signalV [DecidableEq T] (h : Good σ) (hs : Sane (client T) v₀ σ)
    (hp : σ.points[t]? = some (.signalV w b l))
    (hp' : σ'.points = σ.points.set t (.signalled b l)) (hm : σ'.memory = σ.memory)
    (hr : σ'.raised = Function.update σ.raised (.waiter w) (σ.raised (.waiter w) + 1)) : Good σ' := by
  obtain ⟨hmem, -, hzero⟩ := hs.queued.removed t w ((shows_of_point hp).mpr rfl)
  obtain ⟨u, hu⟩ := hs.queued.parked w hmem hzero
  obtain ⟨d, hd, hw⟩ := Option.bind_eq_some_iff.mp hu
  have hraised : ∀ s, σ.raised s ≤ σ'.raised s := by
    intro s
    rw [hr]
    rcases eq_or_ne s (.waiter w) with rfl | hne
    · simp
    · simp [hne]
  have hmore : σ.points.countP (attends σ.raised) + 1 ≤ σ.points.countP (attends σ'.raised) := by
    apply Pool.countP_succ_le (fun e _ he => attends_mono hraised he) (List.mem_of_getElem? hd)
    · exact attends_waiter_false hw hzero
    · exact attends_waiter hw (by simp [hr])
  obtain ⟨item, rfl, rfl⟩ : ∃ item, l = .leave item ∧ b = false := by
    have := h.shaped t _ hp
    cases l <;> cases b <;> simp_all [SynchList.shaped]
  refine h.change hs hp rfl hp' (by rw [hm]; exact h.fifo) rfl (fun hc => by cases hc) (fun hc => by cases hc)
    fun hne => ?_
  have hcount := Pool.countP_set (p := attends σ'.raised) hp (.signalled false (.leave item))
  have hold := h.attended (by rwa [hm] at hne)
  have hbusy : attends σ'.raised (.signalV w false (.leave item)) = true := by simp [attends, busy]
  rw [hm, hp']
  simp only [hbusy, if_true] at hcount
  omega

variable [DecidableEq T]

lemma outer_acquire {call : OuterCall Empty (Channel T) (ListPoint T)} (h : (client T).outer k t l = some call) :
    (∃ item, call = .acquire (.append item)) ∨ call = .acquire (.test false) := by
  unfold client at h
  cases l <;> cases k <;> simp at h
  · exact .inr h.symm
  · exact .inl ⟨_, h.symm⟩

lemma Good.inner (h : Good σ) (hs : Sane (client T) v₀ σ) {f : Channel T → Except Fault (Channel T × ListPoint T)}
    {d : Channel T} {l l' : ListPoint T} (hp : σ.points[t]? = some (.inside l))
    (hp' : σ'.points = σ.points.set t (.inside l')) (hr : σ'.raised = σ.raised)
    (hk : (client T).inner k t l = some (.act f)) (hf : f σ.memory.data = .ok (d, l'))
    (hm : σ'.memory = { σ.memory with data := d }) : Good σ' := by
  have hfifo := h.fifo
  cases l with
  | idle item => cases hk
  | signal => cases hk
  | wait => cases hk
  | leave item => cases hk
  | append item =>
    cases hk
    simp only at hf
    split at hf
    · cases hf
    · cases hf
      refine h.change hs hp rfl hp' (by simp [hm, hfifo]) rfl (fun hc => by cases hc) (fun hc => by cases hc)
        fun hq => h.attended_set hp hp' hr (by simpa [hm] using hq) ?_
      simp [hm, attends, rechecks, busy, MonitorPoint.waiter]
  | test again =>
    cases hk
    cases hf
    refine h.change hs hp rfl hp' (by rw [hm]; exact hfifo) (by split <;> rfl) ?_ ?_ fun hq => ?_
    · intro hc
      rw [hm]
      by_contra hne
      rw [if_neg hne] at hc
      cases hc
    · intro hc
      rw [hm]
      intro hnil
      rw [if_pos hnil] at hc
      cases hc
    · by_cases hnil : σ.memory.data.list = []
      · simp [hm, hnil]
      · rw [if_neg hnil] at hp'
        apply h.attended_set hp hp' hr (by simpa [hm] using hq)
        have hremove : attends σ.raised (.inside .remove : MonitorPoint (ListPoint T)) = true := rfl
        simp only [hm, hremove, if_true]
        split <;> omega
  | remove =>
    cases hk
    simp only at hf
    split at hf
    · cases hf
    · rename_i item rest hlist
      cases hf
      refine h.change hs hp rfl hp' (by simp [hm, hfifo, hlist]) rfl
          (fun hc => by cases hc) (fun hc => by cases hc)
        fun hq => h.attended_set hp hp' hr (by simpa [hm] using hq) ?_
      simp [hm, hlist, attends, rechecks, busy, MonitorPoint.waiter]

lemma Good.acts (h : Good σ) (hs : Sane (client T) v₀ σ) (hp : σ.points[t]? = some c)
    (hp' : σ'.points = σ.points.set t c') (hr : σ'.raised = σ.raised)
    (ha : (client T).Acts k t σ.memory c σ'.memory c') : Good σ' := by
  have hr' : ∀ w, σ'.raised (.waiter w) = σ.raised (.waiter w) := fun w => by rw [hr]
  have hshape := h.shaped t c hp
  generalize hm : σ'.memory = m at ha
  cases ha with
  | outer hk hf => obtain ⟨item, h⟩ | h := outer_acquire hk <;> cases h
  | inner hk hf => exact h.inner hs hp hp' hr hk hf hm
  | release hk hh =>
    rename_i l l'
    cases l <;> cases hk
    exact h.frame hp hp' (by rw [hm]) hr' (fun hq => ⟨by rwa [hm] at hq, fun hc => by cases hc⟩) rfl
      (fun hc => by cases hc) (fun hc => by cases hc)
  | wait hk hh =>
    rename_i l l'
    cases l <;> cases hk
    exact h.frame hp hp' (by rw [hm]) hr' (fun hq => ⟨by rwa [hm] at hq, fun hc => by cases hc⟩) rfl
      (fun _ => rfl) (fun hc => by cases hc)
  | signal hk hh =>
    rename_i l l'
    cases l <;> cases hk
    exact h.frame hp hp' (by rw [hm]) hr' (fun hq => ⟨by rwa [hm] at hq, fun _ => rfl⟩) rfl
      (fun hc => by cases hc) (fun hc => by cases hc)
  | broadcast hk =>
    rename_i l l'
    cases l <;> cases hk
  | acquired =>
    rename_i l
    cases l with
    | append item =>
      exact h.frame hp hp' (by rw [hm]) hr' (fun hq => ⟨by rwa [hm] at hq, fun hc => by cases hc⟩) rfl
        (fun hc => by cases hc) (fun hc => by cases hc)
    | test again =>
      exact h.frame hp hp' (by rw [hm]) hr'
        (fun hq => ⟨by rwa [hm] at hq, fun hc => by cases again <;> exact hc⟩) rfl
        (fun hc => by cases hc) (fun hc => by cases hc)
    | _ => cases hshape
  | releaseAssert hh =>
    exact h.frame hp hp' (by rw [hm]) hr' (fun hq => ⟨by rwa [hm] at hq, fun hc => hc⟩) hshape
      (fun hc => by cases hc) (fun hc => by cases hc)
  | releaseClear =>
    rename_i w l
    exact h.frame hp hp' (by rw [hm]) hr' (fun hq => ⟨by rwa [hm] at hq, fun hc => hc⟩)
      (by cases w <;> exact hshape)
      (fun hc => by cases hc) (fun hc => by cases hc)
  | waitNew =>
    exact h.frame hp hp' (by rw [hm]) hr' (fun hq => ⟨by rwa [hm] at hq, fun hc => by cases hc⟩) hshape
      (fun _ => rfl) (fun hc => by cases hc)
  | waitAppend =>
    have hnil := h.starved t _ hp rfl
    exact h.change hs hp rfl hp' (by rw [hm]; exact h.fifo) hshape (fun hc => by cases hc) (fun hc => by cases hc)
      fun _ => by simp [hm, hnil]
  | signalAssert hh => cases hshape
  | signalTest =>
    rename_i b l
    split at hp'
    · rename_i hq
      cases l with
      | leave item =>
        cases b with
        | true => cases hshape
        | false =>
          exact h.frame hp hp' (by rw [hm]) hr' (fun hne => absurd hq (by rwa [hm] at hne)) rfl
            (fun hc => by cases hc) (fun hc => by cases hc)
      | _ => cases hshape
    · exact h.frame hp hp' (by rw [hm]) hr' (fun hq => ⟨by rwa [hm] at hq, fun _ => rfl⟩) hshape
        (fun hc => by cases hc) (fun hc => by cases hc)
  | signalRemove hq =>
    exact h.frame hp hp' (by rw [hm]) hr' (fun _ => ⟨by simp [hq], fun _ => rfl⟩) hshape
      (fun hc => by cases hc) (fun hc => by cases hc)
  | broadcastTest => cases hshape

lemma Good.step (h : Good σ) (hs : Sane (client T) v₀ σ) (hm : σ.Moves (client T).code o σ') : Good σ' := by
  cases hs.steady.turn hm with
  | act hp hc hf hp' hv' hr ht => exact h.acts hs hp hp' hr (acts_of_code hc hf)
  | sleep hp hc hz hm hp' hv' hr ht =>
    exact ⟨by rw [hm]; exact h.fifo, by rw [hp']; exact h.shaped, by rw [hp', hm]; exact h.starved,
      by rw [hp', hm]; exact h.remove, by rw [hp', hm, hr]; exact h.attended⟩
  | take hp hc hpos hm hp' hv' hr ht =>
    rename_i c next s k
    have hr' : ∀ w, σ'.raised (.waiter w) = σ.raised (.waiter w) := fun w => by rw [hr]
    have hshape := h.shaped o.1 c hp
    cases takes_of_code hc with
    | acquire hk =>
      obtain ⟨item, h'⟩ | h' := outer_acquire hk <;> cases h'
      all_goals
        exact h.frame hp hp' (by rw [hm]) hr' (fun hq => ⟨by rwa [hm] at hq, fun hc => by cases hc⟩) rfl
          (fun hc => by cases hc) (fun hc => by cases hc)
    | outer hk => obtain ⟨item, h'⟩ | h' := outer_acquire hk <;> cases h'
    | inner hk =>
      rename_i l l' s
      exact s.elim
    | waitP =>
      exact h.frame hp hp' (by rw [hm]) hr' (fun hq => ⟨by rwa [hm] at hq, fun _ => rfl⟩) hshape
        (fun hc => by cases hc) (fun hc => by cases hc)
    | waitAcquire =>
      rename_i l
      cases l with
      | test again =>
        obtain rfl : again = true := hshape
        exact h.frame hp hp' (by rw [hm]) hr' (fun hq => ⟨by rwa [hm] at hq, fun _ => rfl⟩) rfl
          (fun hc => by cases hc) (fun hc => by cases hc)
      | _ => cases hshape
  | raise hp hc hm hp' hv' hr ht =>
    rename_i c next s
    have hshape := h.shaped o.1 c hp
    cases raises_of_code hc with
    | outer hk => obtain ⟨item, h'⟩ | h' := outer_acquire hk <;> cases h'
    | inner hk =>
      rename_i l l' s
      exact s.elim
    | signalV => exact h.signalV hs hp hp' hm hr
    | releaseV =>
      rename_i w l
      have hr' : ∀ w, σ'.raised (.waiter w) = σ.raised (.waiter w) := fun w => by simp [hr]
      cases w with
      | none =>
        exact h.frame hp hp' (by rw [hm]) hr' (fun hq => ⟨by rwa [hm] at hq, fun hc => by cases hc⟩) rfl
          (fun hc => by cases hc) (fun hc => by cases hc)
      | some w =>
        exact h.frame hp hp' (by rw [hm]) hr' (fun hq => ⟨by rwa [hm] at hq, fun hc => hc⟩) hshape
          (fun hc => by cases hc) (fun hc => by cases hc)

def offering : MonitorPoint (ListPoint T) → List T
  | c => match c.rest with
    | .append item => [item]
    | _ => []

def holding : MonitorPoint (ListPoint T) → List T
  | c => match c.rest with
    | .leave item | .idle item => item.toList
    | _ => []

section Moves

variable {call : Option T} {g g' : MonitorPoint (ListPoint T)}

def Under (t : ℕ) (σ : State T) : Prop := ∀ item, σ.threads[t]? ≠ some (.ready (.outside (.idle item)))

inductive ListGoes (t : ℕ) (call : Option T) (σ σ' : State T) : Prop
  | enter {item : Option T} {g' : MonitorPoint (ListPoint T)}
      (ht : σ.threads[t]? = some (.ready (.outside (.idle item))))
      (hd : σ'.memory.data = σ.memory.data) (hg' : σ'.goals = σ.goals.set t g') (ho : offering g' = call.toList)
      (hh : holding g' = [])
  | pass {g g' : MonitorPoint (ListPoint T)} (hr : Under t σ)
      (hg : σ.goals[t]? = some g) (hd : σ'.memory.data = σ.memory.data)
      (hg' : σ'.goals = σ.goals.set t g') (ho : offering g' = offering g) (hh : holding g' = holding g)
  | append {g g' : MonitorPoint (ListPoint T)} {item : T} (hr : Under t σ)
      (hg : σ.goals[t]? = some g) (ho : offering g = [item])
      (hh : holding g = []) (hlist : σ'.memory.data.list = σ.memory.data.list ++ [item])
      (hadded : σ'.memory.data.added = σ.memory.data.added ++ [item])
      (htaken : σ'.memory.data.taken = σ.memory.data.taken)
      (hg' : σ'.goals = σ.goals.set t g') (ho' : offering g' = []) (hh' : holding g' = [])
  | remove {g g' : MonitorPoint (ListPoint T)} {item : T} (hr : Under t σ)
      (hg : σ.goals[t]? = some g) (ho : offering g = [])
      (hh : holding g = []) (hlist : σ.memory.data.list = item :: σ'.memory.data.list)
      (hadded : σ'.memory.data.added = σ.memory.data.added)
      (htaken : σ'.memory.data.taken = σ.memory.data.taken ++ [item])
      (hg' : σ'.goals = σ.goals.set t g') (ho' : offering g' = []) (hh' : holding g' = [item])

omit [DecidableEq T] in
lemma offering_of_rest (h : g'.rest = g.rest) : offering g' = offering g := by rw [offering, offering, h]

omit [DecidableEq T] in
lemma holding_of_rest (h : g'.rest = g.rest) : holding g' = holding g := by rw [holding, holding, h]

omit [DecidableEq T] in
lemma listGoes_of_rest (hr : Under t σ) (hg : σ.goals[t]? = some g)
    (hd : σ'.memory.data = σ.memory.data) (hg' : σ'.goals = σ.goals.set t g')
    (hrest : g'.rest = g.rest) : ListGoes t call σ σ' :=
  .pass hr hg hd hg' (offering_of_rest hrest) (holding_of_rest hrest)

lemma listGoes (h : σ.Moves (client T).code (t, call) σ') : ListGoes t call σ σ' := by
  cases goes h with
  | again ht hm hg =>
    refine .pass (fun item h => by simp [ht] at h) (goals_getElem? ht) (by rw [hm]) ?_ rfl rfl
    obtain ⟨hlt, hget⟩ := List.getElem?_eq_some_iff.mp (goals_getElem? ht)
    rw [hg, ← hget]
    exact (List.set_getElem_self hlt).symm
  | act ht hc hf hg =>
    have hgoal := goals_getElem? ht
    have hunder : Under t σ := by
      intro item h
      cases Option.some.inj (ht.symm.trans h)
      cases call <;> cases hc
    generalize hm : σ'.memory = m at hf
    cases acts_of_code hc hf with
    | outer hk hf' =>
      rename_i l l' f d
      cases l <;> cases call <;> cases hk
    | inner hk hf' =>
      rename_i l l' f d
      cases l with
      | append item =>
        cases hk
        dsimp only at hf'
        split at hf'
        · cases hf'
        · cases hf'
          exact .append hunder hgoal rfl rfl (by rw [hm]) (by rw [hm]) (by rw [hm]) hg rfl rfl
      | test again =>
        cases hk
        cases hf'
        refine .pass hunder hgoal (by rw [hm]) hg ?_ ?_
        · split <;> rfl
        · split <;> rfl
      | remove =>
        cases hk
        dsimp only at hf'
        split at hf'
        · cases hf'
        · rename_i item rest hlist
          cases hf'
          exact .remove hunder hgoal rfl rfl (by rw [hm, hlist]) (by rw [hm]) (by rw [hm]) hg rfl rfl
      | _ => cases hk
    | release hk hh =>
      rename_i l l'
      cases l <;> cases hk
      exact .pass hunder hgoal (by rw [hm]) hg rfl rfl
    | wait hk hh =>
      rename_i l l'
      cases l <;> cases hk
      exact .pass hunder hgoal (by rw [hm]) hg rfl rfl
    | signal hk hh =>
      rename_i l l'
      cases l <;> cases hk
      exact .pass hunder hgoal (by rw [hm]) hg rfl rfl
    | broadcast hk =>
      rename_i l l'
      cases l <;> cases hk
    | signalTest =>
      refine listGoes_of_rest hunder hgoal (by rw [hm]) hg ?_
      split
      · exact MonitorPoint.rest_signalled _ _
      · rfl
    | broadcastTest => exact listGoes_of_rest hunder hgoal (by rw [hm]) hg (by split <;> rfl)
    | _ => exact listGoes_of_rest hunder hgoal (by rw [hm]) hg rfl
  | p ht hc hm hg =>
    have hgoal := goals_getElem? ht
    cases takes_of_code hc with
    | acquire hk =>
      rename_i l l'
      cases l with
      | idle item =>
        cases call with
        | none =>
          cases hk
          exact .enter ht (by rw [hm]) hg rfl rfl
        | some item =>
          cases hk
          exact .enter ht (by rw [hm]) hg rfl rfl
      | _ => cases call <;> cases hk
    | outer hk =>
      rename_i l l' s
      cases s
    | inner hk =>
      rename_i l l' s
      cases s
    | waitP => exact listGoes_of_rest (fun item h => by simp [ht] at h) hgoal (by rw [hm]) hg rfl
    | waitAcquire => exact listGoes_of_rest (fun item h => by simp [ht] at h) hgoal (by rw [hm]) hg rfl
  | v ht hc hm hg =>
    have hgoal := goals_getElem? ht
    cases raises_of_code hc with
    | outer hk =>
      rename_i l l' s
      cases s
    | inner hk =>
      rename_i l l' s
      cases s
    | releaseV =>
      exact listGoes_of_rest (fun item h => by simp [ht] at h) hgoal
          (by rw [hm]) hg (MonitorPoint.rest_released _ _)
    | signalV =>
      exact listGoes_of_rest (fun item h => by simp [ht] at h) hgoal
          (by rw [hm]) hg (MonitorPoint.rest_signalled _ _)

end Moves

/-! What the threads take from the list in a run, and what their calls return. -/

section Items

def removed : List (ℕ × Option T) → State T → List (ℕ × T)
  | [], _ => []
  | o :: os, σ => match σ.move (client T).code o with
    | some (.ok σ') =>
      (σ'.memory.data.taken.drop σ.memory.data.taken.length).map (fun item => (o.1, item)) ++ removed os σ'
    | _ => []

def received (σ : State T) (t : ℕ) : List T :=
  match σ.threads[t]? with
  | some (.ready (.outside (.idle item))) => item.toList
  | _ => []

/-- What the calls of thread `t` return in a run, as far as the thread has gone on since. -/
def results (t : ℕ) : List (ℕ × Option T) → State T → List T
  | [], _ => []
  | o :: os, σ => match σ.move (client T).code o with
    | some (.ok σ') => (if o.1 = t then received σ t else []) ++ results t os σ'
    | _ => []

/-- The item that thread `t` has taken and not yet returned, or that its last call has returned. -/
def held (σ : State T) (t : ℕ) : List T := (σ.goals[t]?.map holding).getD []

omit [DecidableEq T] in
lemma received_of_under (h : Under t σ) : received σ t = [] := by
  rw [received]
  split
  · rename_i item ht
    exact absurd ht (h item)
  · rfl

omit [DecidableEq T] in
lemma held_of_ne {u : ℕ} {g' : MonitorPoint (ListPoint T)} (hg : σ'.goals = σ.goals.set t g') (hne : u ≠ t) :
    held σ' u = held σ u := by
  rw [held, held, hg, List.getElem?_set_ne hne.symm]

omit [DecidableEq T] in
lemma held_of_set {g g' : MonitorPoint (ListPoint T)} (hg : σ.goals[t]? = some g)
    (hg' : σ'.goals = σ.goals.set t g') :
    held σ t = holding g ∧ held σ' t = holding g' := by
  have hlt := (List.getElem?_eq_some_iff.mp hg).1
  rw [held, held, hg', hg, List.getElem?_set_self hlt]
  exact ⟨rfl, rfl⟩

lemma held_step (h : σ.Moves (client T).code o σ') :
    ∃ items, σ'.memory.data.taken = σ.memory.data.taken ++ items ∧
    held σ o.1 ++ items = received σ o.1 ++ held σ' o.1 ∧
      ∀ u ≠ o.1, held σ' u = held σ u := by
  cases listGoes h with
  | enter ht hd hg' ho hh =>
    obtain ⟨h₁, h₂⟩ := held_of_set (goals_getElem? ht) hg'
    refine ⟨[], by rw [hd, List.append_nil], ?_, fun u hu => held_of_ne hg' hu⟩
    rw [h₁, h₂, hh, received, ht]
    rfl
  | pass hr hg hd hg' ho hh =>
    obtain ⟨h₁, h₂⟩ := held_of_set hg hg'
    refine ⟨[], by rw [hd, List.append_nil], ?_, fun u hu => held_of_ne hg' hu⟩
    rw [h₁, h₂, hh, received_of_under hr, List.append_nil, List.nil_append]
  | append hr hg ho hh hlist hadded htaken hg' ho' hh' =>
    obtain ⟨h₁, h₂⟩ := held_of_set hg hg'
    refine ⟨[], by rw [htaken, List.append_nil], ?_, fun u hu => held_of_ne hg' hu⟩
    rw [h₁, h₂, hh, hh', received_of_under hr]
  | @remove g g' item hr hg ho hh hlist hadded htaken hg' ho' hh' =>
    obtain ⟨h₁, h₂⟩ := held_of_set hg hg'
    refine ⟨[item], htaken, ?_, fun u hu => held_of_ne hg' hu⟩
    rw [h₁, h₂, hh, hh', received_of_under hr]

lemma held_run (os : List (ℕ × Option T)) : ∀ {σ σ' : State T}, run (client T).code os σ = some σ' →
    σ'.memory.data.taken = σ.memory.data.taken ++ (removed os σ).map Prod.snd ∧
    ∀ t, held σ t ++ ((removed os σ).filter (·.1 = t)).map Prod.snd = results t os σ ++ held σ' t := by
  induction os with
  | nil =>
    intro σ σ' h
    cases h
    simp [removed, results]
  | cons o os ih =>
    intro σ σ' h
    rw [run] at h
    cases hm : σ.move (client T).code o with
    | none => simp [hm] at h
    | some r =>
      cases r with
      | error e => simp [hm] at h
      | ok σ₁ =>
        simp only [hm] at h
        obtain ⟨htaken, hheld⟩ := ih h
        obtain ⟨items, hitems, hself, hothers⟩ := held_step (o := o) hm
        have hdrop : σ₁.memory.data.taken.drop σ.memory.data.taken.length = items := by rw [hitems, List.drop_left]
        refine ⟨?_, fun t => ?_⟩
        · rw [htaken, hitems, removed, hm]
          simp [hdrop, Function.comp_def]
        · rw [removed, results, hm]
          simp only [hdrop, List.filter_append, List.map_append]
          rcases eq_or_ne o.1 t with rfl | hne
          · have hall : (items.map fun item => (o.1, item)).filter (·.1 = o.1) =
                items.map fun item => (o.1, item) :=
              List.filter_eq_self.mpr (by simp)
            rw [if_pos rfl, List.append_assoc, ← hheld, ← List.append_assoc, ← List.append_assoc, ← hself, hall]
            simp [Function.comp_def]
          · rw [if_neg hne, List.nil_append, ← hheld, hothers t hne.symm]
            simp [hne]

end Items

def start (T : Type) (n : ℕ) : State T := Client.start ⟨[], [], []⟩ Empty.elim (List.replicate n (.idle none))

omit [DecidableEq T] in
lemma Good.start (n : ℕ) : Good (start T n) := by
  have hpoint : ∀ {t : ℕ} {c : MonitorPoint (ListPoint T)}, (SynchList.start T n).points[t]? = some c →
      c = .outside (.idle none) := by
    intro t c hc
    simp only [SynchList.start, Client.start, Concurrent.start,
      points, List.map_replicate, List.getElem?_replicate,
      ThreadState.point] at hc
    split at hc
    · exact (Option.some.inj hc).symm
    · cases hc
  constructor
  · rfl
  · intro t c hc
    rw [hpoint hc]
    rfl
  · intro t c hc hst
    rw [hpoint hc] at hst
    cases hst
  · intro t hc
    cases hpoint hc
  · intro hne
    exact absurd rfl hne

omit [DecidableEq T] in
lemma held_start (n t : ℕ) : held (start T n) t = [] := by
  rw [held, start, Client.start, goals_start, List.map_replicate, List.getElem?_replicate]
  split <;> rfl

/-- In every state of every run: the items taken are a prefix of the items added, and what is left
is the list; every thread returns the items that it takes; `List::RemoveFront` is never called on an
empty list, and only an `Append` of an item that is in the list fails; and where the lock is free
and a thread waits unsignalled, the list is no longer than the signalled threads that have not
tested it again. -/
theorem synchList_channel (n : ℕ) (os : List (ℕ × Option T)) {σ : State T}
    (h : run (client T).code os (start T n) = some σ) :
    σ.memory.data.added = (removed os (start T n)).map Prod.snd ++ σ.memory.data.list ∧
    (∀ t, ((removed os (start T n)).filter (·.1 = t)).map Prod.snd = results t os (start T n) ++ held σ t) ∧
    (∀ t : ℕ, σ.points[t]? = some (.inside .remove) → σ.memory.data.list ≠ []) ∧
    (∀ (o : ℕ × Option T) (e : Fault), σ.move (client T).code o = some (.error e) →
      ∃ item, σ.points[o.1]? = some (.inside (.append item)) ∧ item ∈ σ.memory.data.list) ∧
    (σ.value .lock = 1 → (∃ t, ∃ w ∈ unsignalled σ, Shows σ MonitorPoint.waiter t w) →
      σ.memory.data.list.length ≤ σ.points.countP (rechecks σ.raised)) := by
  obtain ⟨htaken, hheld⟩ := held_run os h
  have hI : Sane (client T) Empty.elim σ ∧ Good σ :=
    (run_reaches h).invariant (I := fun σ => Sane (client T) Empty.elim σ ∧ Good σ)
      (fun o σ σ' ⟨hs, hg⟩ _ hm => ⟨hs.step hm, hg.step hs hm⟩)
      ⟨Sane.start _ (fun s => s.elim) _, Good.start n⟩
  obtain ⟨hs, hg⟩ := hI
  refine ⟨?_, fun t => ?_, hg.remove, fun o e hm => ?_, fun hfree ⟨t, w, hw, ht⟩ => ?_⟩
  · rw [hg.fifo, htaken]
    rfl
  · rw [← hheld t, held_start]
    rfl
  · obtain ⟨l, f, hf, ⟨hp, hk⟩ | ⟨hp, hk⟩⟩ := hs.fault hm
    · obtain ⟨item, h'⟩ | h' := outer_acquire hk <;> cases h'
    · cases l with
      | append item =>
        cases hk
        simp only at hf
        split at hf
        · rename_i hmem
          exact ⟨item, hp, hmem⟩
        · cases hf
      | test again =>
        cases hk
        cases hf
      | remove =>
        cases hk
        simp only at hf
        split at hf
        · rename_i hnil
          exact absurd hnil (hg.remove o.1 hp)
        · cases hf
      | _ => cases hk
  · -- nobody holds the lock, so that whoever attends to the list has been signalled
    have htoken := hs.locked.token
    have hnone : ∀ c ∈ σ.points, c.holds = false := by
      have hzero : σ.points.countP MonitorPoint.holds = 0 := by omega
      simpa using List.countP_eq_zero.mp hzero
    have heq : σ.points.countP (attends σ.raised) = σ.points.countP (rechecks σ.raised) := by
      apply List.countP_congr
      intro c hc
      have hbusy : busy c = false := by
        cases hb : busy c with
        | false => rfl
        | true => rw [← hnone c hc, holds_of_busy hb]
      simp [attends, hbusy]
    rw [← heq]
    apply hg.attended
    obtain ⟨hmem, hzero⟩ : w ∈ σ.memory.monitor.appended ∧ σ.raised (.waiter w) = 0 :=
      by simpa [unsignalled] using hw
    obtain hq | hone | ⟨u, hu⟩ := hs.queued.signalled w hmem
    · exact List.ne_nil_of_mem hq
    · omega
    · obtain ⟨c, hc, hr⟩ := Option.bind_eq_some_iff.mp hu
      have hholds := MonitorPoint.holds_of_removed c (by rw [hr]; rfl)
      rw [hnone c (List.mem_of_getElem? hc)] at hholds
      cases hholds

def twoWait : List (ℕ × Option ℕ) :=
  List.replicate 10 (0, none) ++ List.replicate 10 (1, none) ++ List.replicate 10 (2, some 7)

/-- The list is not longer than the threads that are bound for it, and thread 0 comes back from `Wait`, returns the
item and calls again. -/
theorem synchList_channel_waiting :
    (∃ σ, run (client ℕ).code twoWait (start ℕ 3) = some σ ∧ σ.memory.data.list = [7] ∧
      σ.memory.data.list.length ≤ σ.points.countP (rechecks σ.raised)) ∧
    ∃ σ os, os = twoWait ++ List.replicate 9 (0, none) ∧ run (client ℕ).code os (start ℕ 3) = some σ ∧
      σ.memory.data.added = [7] ∧ σ.memory.data.list = [] ∧ results 0 os (start ℕ 3) = [7] ∧
      ((removed os (start ℕ 3)).filter (·.1 = 0)).map Prod.snd = [7] := by
  constructor
  · obtain ⟨σ, hσ, hlist, hfree, hu, hw⟩ : ∃ σ, run (client ℕ).code twoWait (start ℕ 3) = some σ ∧
        σ.memory.data.list = [7] ∧ σ.value .lock = 1 ∧ unsignalled σ = [1] ∧ Shows σ MonitorPoint.waiter 1 1 :=
      ⟨_, rfl, rfl, rfl, rfl, rfl⟩
    obtain ⟨-, -, -, -, hattended⟩ := synchList_channel 3 twoWait hσ
    exact ⟨σ, hσ, hlist, hattended hfree ⟨1, 1, by simp [hu], hw⟩⟩
  · obtain ⟨σ, hσ, hadded, hlist, hresults, hheld⟩ : ∃ σ,
        run (client ℕ).code (twoWait ++ List.replicate 9 (0, none)) (start ℕ 3) = some σ ∧
        σ.memory.data.added = [7] ∧
        σ.memory.data.list = [] ∧ results 0 (twoWait ++ List.replicate 9 (0, none)) (start ℕ 3) = [7] ∧
        held σ 0 = [] :=
      ⟨_, rfl, rfl, rfl, rfl, rfl⟩
    obtain ⟨-, hreturned, -⟩ := synchList_channel 3 _ hσ
    refine ⟨σ, _, rfl, hσ, hadded, hlist, hresults, ?_⟩
    rw [hreturned 0, hresults, hheld]
    rfl

end SynchList

end NachosFileSys
