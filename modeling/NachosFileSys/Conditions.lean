import NachosFileSys.Monitor

namespace NachosFileSys

open Lib.Runs Lib.Threads Concurrent

def MonitorPoint.signalling {L : Type} : MonitorPoint L → Bool
  | .signalAssert _ | .signalTest _ _ | .signalRemove _ _ | .signalV _ _ _ | .broadcastTest _ => true
  | _ => false

namespace Client

variable {S D K L : Type}

/-- The waiters that have been appended to the wait queue and not been signalled, in the order in which they
were appended. -/
def unsignalled (σ : World S D L) : List ℕ :=
  σ.memory.monitor.appended.filter fun w => σ.raised (.waiter w) = 0

def Signalling (t : ℕ) (σ : World S D L) : Prop :=
  ∃ c, σ.points[t]? = some c ∧ c.signalling = true

/-- Thread `t` stands at `c`; of the waiters in `queue`, those in `gone` have been signalled since the counts
were `r`. -/
structure Tally (t : ℕ) (queue : List ℕ) (r : ℕ → ℕ) (c : MonitorPoint L) (gone : List ℕ) (σ : World S D L) :
    Prop where
  point : σ.points[t]? = some c
  split : queue = gone ++ (c.removed.toList ++ σ.memory.monitor.waitQueue)
  raised (x : ℕ) : σ.raised (.waiter x) = r x + if x ∈ gone then 1 else 0

variable [DecidableEq S] {cl : Client S D K L} {k : K} {o : ℕ × K} {t u w : ℕ} {σ σ' : World S D L}
  {c c' : MonitorPoint L} {l : L} {b : Bool} {v₀ : S → ℤ} {queue gone : List ℕ} {r : ℕ → ℕ}

omit [DecidableEq S] in
lemma holds_of_signalling (h : c.signalling = true) : c.holds = true := by
  cases c <;> first | rfl | cases h

lemma Sane.others (h : Sane cl v₀ σ) (hp : σ.points[t]? = some c) (hc : c.holds = true) (hne : o.1 ≠ t)
    (ht : Turn cl.code o σ σ') : σ'.memory.monitor = σ.memory.monitor ∧
      (∀ w, σ'.raised (.waiter w) = σ.raised (.waiter w)) ∧ σ'.points[t]? = some c := by
  have hfree : ∀ {d}, σ.points[o.1]? = some d → d.holds = false := by
    intro d hd
    cases hh : d.holds with
    | false => rfl
    | true => exact absurd (h.locked.exclusive (h.nonneg _) hd hp hh hc) hne
  have hkeep : ∀ {d}, σ'.points = σ.points.set o.1 d → σ'.points[t]? = some c := by
    intro d hd
    rw [hd, List.getElem?_set_ne hne, hp]
  cases ht with
  | act hp hc hf hp' hv' hr ht =>
    refine ⟨?_, fun w => by rw [hr], hkeep hp'⟩
    have hh := hfree hp
    have ha := acts_of_code hc hf
    generalize σ'.memory = m at ha
    cases ha <;> first | rfl | cases hh
  | sleep hq hk hz hm hp' hv' hr ht => exact ⟨by rw [hm], fun w => by rw [hr], by rw [hp', hp]⟩
  | take hp hc hpos hm hp' hv' hr ht => exact ⟨by rw [hm], fun w => by rw [hr], hkeep hp'⟩
  | raise hp hc hm hp' hv' hr ht =>
    refine ⟨by rw [hm], fun w => ?_, hkeep hp'⟩
    have hh := hfree hp
    cases raises_of_code hc with
    | outer => simp [hr]
    | _ => cases hh

lemma Sane.unsignalled_eq (h : Sane cl v₀ σ) (hp : σ.points[t]? = some c) (hc : c.holds = true)
    (hrem : c.removed = none) : unsignalled σ = σ.memory.monitor.waitQueue := by
  obtain ⟨gone, hgone⟩ := h.queued.fifo
  have hnodup := h.queued.nodup
  rw [← hgone] at hnodup
  have hleft : gone.filter (fun w => σ.raised (.waiter w) = 0) = [] := by
    rw [List.filter_eq_nil_iff]
    intro w hw
    have hout : w ∉ σ.memory.monitor.waitQueue := fun hq => List.disjoint_of_nodup_append hnodup hw hq
    obtain hq | hone | ⟨u, hu⟩ := h.queued.signalled w (by rw [← hgone]; exact List.mem_append_left _ hw)
    · exact absurd hq hout
    · simp [hone]
    · -- only the holder of the lock can be about to call `V`
      have hut := h.locked.shows_unique (h.nonneg _) hp hc MonitorPoint.holds_of_removed hu
      subst hut
      simp [shows_of_point hp, hrem] at hu
  have hright : σ.memory.monitor.waitQueue.filter (fun w => σ.raised (.waiter w) = 0) =
      σ.memory.monitor.waitQueue := by
    rw [List.filter_eq_self]
    intro w hw
    simp [h.queued.unsignalled w hw]
  rw [unsignalled, ← hgone, List.filter_append, hleft, hright, List.nil_append]

lemma Tally.others (h : Sane cl v₀ σ) (hT : Tally t queue r c gone σ) (hc : c.holds = true) (hne : o.1 ≠ t)
    (ht : Turn cl.code o σ σ') : Tally t queue r c gone σ' := by
  obtain ⟨hm, hr, hp⟩ := h.others hT.point hc hne ht
  exact ⟨hp, by rw [hm]; exact hT.split, fun x => by rw [hr]; exact hT.raised x⟩

/-- The statements of `Signal` and `Broadcast`, with the wait queue before and after and the waiters
signalled since. -/
inductive Signals : MonitorPoint L → List ℕ → List ℕ → MonitorPoint L → List ℕ → List ℕ → Prop
  | assert {l : L} {q gone : List ℕ} : Signals (.signalAssert l) q gone (.signalTest true l) q gone
  | none {b : Bool} {l : L} {gone : List ℕ} : Signals (.signalTest b l) [] gone (.signalled b l) [] gone
  | some {b : Bool} {l : L} {q gone : List ℕ} (hq : q ≠ []) :
      Signals (.signalTest b l) q gone (.signalRemove b l) q gone
  | remove {b : Bool} {l : L} {w : ℕ} {q gone : List ℕ} :
      Signals (.signalRemove b l) (w :: q) gone (.signalV w b l) q gone
  | wake {b : Bool} {l : L} {w : ℕ} {q gone : List ℕ} :
      Signals (.signalV w b l) q gone (.signalled b l) q (gone ++ [w])
  | done {l : L} {gone : List ℕ} : Signals (.broadcastTest l) [] gone (.inside l) [] gone
  | again {l : L} {q gone : List ℕ} (hq : q ≠ []) : Signals (.broadcastTest l) q gone (.signalAssert l) q gone

lemma Tally.own (h : Sane cl v₀ σ) (hT : Tally t queue r c gone σ)
    (hnodup : queue.Nodup) (hc : c.signalling = true)
    (ho : o.1 = t) (hm : σ.Moves cl.code o σ') : ∃ c' gone', Tally t queue r c' gone' σ' ∧
      Signals c σ.memory.monitor.waitQueue gone c' σ'.memory.monitor.waitQueue gone' := by
  subst ho
  have hlt : o.1 < σ.points.length := (List.getElem?_eq_some_iff.mp hT.point).1
  have hpoint : ∀ {d}, σ'.points = σ.points.set o.1 d → σ'.points[o.1]? = some d := by
    intro d hd
    simp [hd, hlt]
  cases h.steady.turn hm with
  | act hp hk hf hp' hv' hr ht =>
    obtain rfl := Option.some.inj (hT.point.symm.trans hp)
    have hraised : ∀ x, σ'.raised (.waiter x) = r x + if x ∈ gone then 1 else 0 := fun x => by rw [hr, hT.raised]
    have hsplit := hT.split
    have ha := acts_of_code hk hf
    generalize hm' : σ'.memory = m at ha
    cases ha with
    | signalAssert hh => exact ⟨_, _, ⟨hpoint hp', by rw [hm']; exact hsplit, hraised⟩, .assert⟩
    | signalTest =>
      split at hp'
      · rename_i hq
        refine ⟨_, _, ⟨hpoint hp', ?_, hraised⟩, ?_⟩
        · rw [hm', MonitorPoint.removed_signalled]
          exact hsplit
        · rw [hq]
          exact .none
      · rename_i hq
        exact ⟨_, _, ⟨hpoint hp', by rw [hm']; exact hsplit, hraised⟩, .some hq⟩
    | signalRemove hq =>
      refine ⟨_, _, ⟨hpoint hp', ?_, hraised⟩, ?_⟩
      · rw [hm']
        rw [hq] at hsplit
        exact hsplit
      · rw [hq]
        exact .remove
    | broadcastTest =>
      split at hp'
      · rename_i hq
        refine ⟨_, _, ⟨hpoint hp', by rw [hm']; exact hsplit, hraised⟩, ?_⟩
        rw [hq]
        exact .done
      · rename_i hq
        exact ⟨_, _, ⟨hpoint hp', by rw [hm']; exact hsplit, hraised⟩, .again hq⟩
    | _ => cases hc
  | sleep hp hk hz hm' hp' hv' hr ht =>
    -- neither `Signal` nor `Broadcast` calls `P`
    obtain rfl := Option.some.inj (hT.point.symm.trans hp)
    cases takes_of_code hk <;> cases hc
  | take hp hk hpos hm' hp' hv' hr ht =>
    obtain rfl := Option.some.inj (hT.point.symm.trans hp)
    cases takes_of_code hk <;> cases hc
  | raise hp hk hm' hp' hv' hr ht =>
    obtain rfl := Option.some.inj (hT.point.symm.trans hp)
    cases raises_of_code hk with
    | signalV =>
      rename_i w b l
      have hsplit : queue = gone ++ ([w] ++ σ.memory.monitor.waitQueue) := hT.split
      have hout : w ∉ gone := by
        intro hw
        rw [hsplit] at hnodup
        exact List.disjoint_of_nodup_append hnodup hw (by simp)
      refine ⟨_, gone ++ [w], ⟨hpoint hp', ?_, fun x => ?_⟩, by rw [hm']; exact .wake⟩
      · rw [hm', MonitorPoint.removed_signalled]
        simpa using hsplit
      · have hx := hT.raised x
        rcases eq_or_ne x w with rfl | hne
        · simp [hr, hx, hout]
        · simp [hr, hx, hne]
    | _ => cases hc

inductive SignalAt (l : L) (queue : List ℕ) : MonitorPoint L → List ℕ → Prop
  | test : SignalAt l queue (.signalTest false l) []
  | remove : SignalAt l queue (.signalRemove false l) []
  | wake {w : ℕ} : SignalAt l queue (.signalV w false l) []
  | done {gone : List ℕ} (h : ∀ x, x ∈ gone ↔ queue.head? = some x) : SignalAt l queue (.inside l) gone

omit [DecidableEq S] in
lemma SignalAt.own (h : SignalAt l queue c gone) (hT : Tally t queue r c gone σ) (hc : c.signalling = true)
    {q' gone' : List ℕ} (hs : Signals c σ.memory.monitor.waitQueue gone c' q' gone') :
    SignalAt l queue c' gone' := by
  have hsplit := hT.split
  generalize σ.memory.monitor.waitQueue = q at hs hsplit
  cases h with
  | test =>
    cases hs with
    | none =>
      apply SignalAt.done
      intro x
      simp [hsplit, MonitorPoint.removed]
    | some hq => exact .remove
  | remove =>
    cases hs
    exact .wake
  | wake =>
    cases hs
    apply SignalAt.done
    intro x
    simp [hsplit, MonitorPoint.removed, eq_comm]
  | done => cases hc

lemma Sane.signal_path (h : Sane cl v₀ σ) {os : List (ℕ × K)} (hT : Tally t queue r (.signalTest false l) [] σ)
    (hnodup : queue.Nodup) (hpath : Path (Moves cl.code) (Signalling t) σ os σ') :
    ∃ c gone, Tally t queue r c gone σ' ∧ SignalAt l queue c gone := by
  have hI :=
    hpath.invariant (I := fun _ τ => Sane cl v₀ τ ∧ ∃ c gone, Tally t queue r c gone τ ∧ SignalAt l queue c gone)
    (by
      rintro _ o τ τ' ⟨hτ, c, gone, hT, hat⟩ ⟨c', hp, hc⟩ hm
      obtain rfl := Option.some.inj (hT.point.symm.trans hp)
      refine ⟨hτ.step hm, ?_⟩
      by_cases ho : o.1 = t
      · obtain ⟨c', gone', hT', hs⟩ := hT.own hτ hnodup hc ho hm
        exact ⟨c', gone', hT', hat.own hT hc hs⟩
      · exact ⟨c, gone, hT.others hτ (holds_of_signalling hc) ho (hτ.steady.turn hm), hat⟩)
    ⟨h, _, _, hT, .test⟩
  exact hI.2

inductive BroadcastAt (l : L) : MonitorPoint L → List ℕ → Prop
  | assert {q : List ℕ} (hq : q ≠ []) : BroadcastAt l (.signalAssert l) q
  | test {q : List ℕ} (hq : q ≠ []) : BroadcastAt l (.signalTest true l) q
  | remove {q : List ℕ} : BroadcastAt l (.signalRemove true l) q
  | wake {w : ℕ} {q : List ℕ} : BroadcastAt l (.signalV w true l) q
  | loop {q : List ℕ} : BroadcastAt l (.broadcastTest l) q
  | done : BroadcastAt l (.inside l) []

def rank (n : ℕ) : MonitorPoint L → ℕ
  | .signalAssert _ => 5 * n
  | .signalTest _ _ => 5 * n - 1
  | .signalRemove _ _ => 5 * n - 2
  | .signalV _ _ _ => 5 * n + 2
  | .broadcastTest _ => 5 * n + 1
  | _ => 0

lemma BroadcastAt.own {q q' gone' : List ℕ} (h : BroadcastAt l c q) (hc : c.signalling = true)
    (hs : Signals c q gone c' q' gone') : BroadcastAt l c' q' ∧ rank q'.length c' + 1 ≤ rank q.length c := by
  cases h with
  | assert hq =>
    cases hs
    have := List.length_pos_iff.mpr hq
    exact ⟨.test hq, by simp only [rank]; omega⟩
  | test hq =>
    cases hs with
    | none => exact absurd rfl hq
    | some _ =>
      have := List.length_pos_iff.mpr hq
      exact ⟨.remove, by simp only [rank]; omega⟩
  | remove =>
    cases hs
    exact ⟨.wake, by simp only [rank, List.length_cons]; omega⟩
  | wake =>
    cases hs
    exact ⟨.loop, by simp [rank, MonitorPoint.signalled]⟩
  | loop =>
    cases hs with
    | done => exact ⟨.done, by simp [rank]⟩
    | again hq => exact ⟨.assert hq, by simp [rank]⟩
  | done => cases hc

lemma Sane.broadcast_path (h : Sane cl v₀ σ) {os : List (ℕ × K)} (hT : Tally t queue r c [] σ)
    (hat : BroadcastAt l c σ.memory.monitor.waitQueue) (hnodup : queue.Nodup)
    (hpath : Path (Moves cl.code) (Signalling t) σ os σ') :
    Sane cl v₀ σ' ∧ os.countP (fun o => o.1 = t) ≤ rank σ.memory.monitor.waitQueue.length c ∧
      ∃ c gone, Tally t queue r c gone σ' ∧ BroadcastAt l c σ'.memory.monitor.waitQueue := by
  have hI := hpath.invariant (I := fun os τ => Sane cl v₀ τ ∧ ∃ c' gone, Tally t queue r c' gone τ ∧
      BroadcastAt l c' τ.memory.monitor.waitQueue ∧ os.countP (fun o => o.1 = t) +
        rank τ.memory.monitor.waitQueue.length c' ≤ rank σ.memory.monitor.waitQueue.length c)
    (by
      rintro os o τ τ' ⟨hτ, d, gone, hT, hat, hrank⟩ ⟨c', hp, hc⟩ hm
      obtain rfl := Option.some.inj (hT.point.symm.trans hp)
      refine ⟨hτ.step hm, ?_⟩
      rw [List.countP_append]
      by_cases ho : o.1 = t
      · obtain ⟨c', gone', hT', hs⟩ := hT.own hτ hnodup hc ho hm
        obtain ⟨hat', hless⟩ := hat.own hc hs
        refine ⟨c', gone', hT', hat', ?_⟩
        simp [ho]
        omega
      · obtain ⟨hmon, -, -⟩ := hτ.others hT.point (holds_of_signalling hc) ho (hτ.steady.turn hm)
        refine ⟨d, gone, hT.others hτ (holds_of_signalling hc) ho (hτ.steady.turn hm), by rw [hmon]; exact hat, ?_⟩
        rw [hmon]
        simp [ho]
        omega)
    ⟨h, c, [], hT, hat, by simp⟩
  obtain ⟨hs, c', gone, hT', hat', hrank⟩ := hI
  exact ⟨hs, by omega, c', gone, hT', hat'⟩

lemma Sane.signalling_moves (h : Sane cl v₀ σ) (ht : Signalling t σ) (k : K) :
    ∃ σ', σ.Moves cl.code (t, k) σ' := by
  obtain ⟨c, hp, hc⟩ := ht
  obtain ⟨st, hst, rfl⟩ : ∃ st, σ.threads[t]? = some st ∧ st.point = c := by
    simpa [points, Option.map_eq_some_iff] using hp
  have hready : σ.threads[t]? = some (.ready st.point) := by
    cases st with
    | ready c => exact hst
    | asleep c s next =>
      obtain ⟨k, hk⟩ := h.steady.sited t c s next (.inl hst)
      cases takes_of_code hk <;> cases hc
    | woken c s next =>
      obtain ⟨k, hk⟩ := h.steady.sited t c s next (.inr hst)
      cases takes_of_code hk <;> cases hc
  cases hm : σ.move cl.code (t, k) with
  | none =>
    have hnone : cl.code k t st.point = none := by simpa [move, hready] using hm
    generalize st.point = c at hc hnone
    cases c <;> first | cases hnone | cases hc
  | some res =>
    cases res with
    | ok σ' => exact ⟨σ', hm⟩
    | error e =>
      obtain ⟨l, f, -, ⟨hl, -⟩ | ⟨hl, -⟩⟩ := h.fault hm
      · have := Option.some.inj (hp.symm.trans hl)
        rw [this] at hc
        cases hc
      · have := Option.some.inj (hp.symm.trans hl)
        rw [this] at hc
        cases hc

lemma Sane.blocked (h : Sane cl v₀ σ) (ht : Shows σ MonitorPoint.waiter t w) (hr : σ.raised (.waiter w) = 0)
    (hm : σ.Moves cl.code o σ') : Shows σ' MonitorPoint.waiter t w := by
  obtain ⟨c, hp, hw⟩ := Option.bind_eq_some_iff.mp ht
  have hzero : σ.value (.waiter w) = 0 := by
    have hvalue := h.waiter_value w
    have := (h.queued.waiting t w ht).2
    omega
  have hset : ∀ {d d'}, σ.points[o.1]? = some d → σ'.points = σ.points.set o.1 d' →
      (d.waiter = some w → d'.waiter = some w) → Shows σ' MonitorPoint.waiter t w := by
    intro d d' hd hd' hkeep
    rw [shows_set hd hd']
    split
    · subst t
      exact hkeep ((shows_of_point hd).mp ht)
    · exact ht
  cases h.steady.turn hm with
  | act hp hc hf hp' hv' hr ht =>
    refine hset hp hp' fun hd => ?_
    have ha := acts_of_code hc hf
    generalize σ'.memory = m at ha
    cases ha <;> first | exact hd | cases hd
  | sleep hp hc hz hm hp' hv' hr ht' => rwa [Shows, hp']
  | take hp hc hpos hm hp' hv' hr ht =>
    refine hset hp hp' fun hd => ?_
    cases takes_of_code hc with
    | waitP =>
      obtain rfl := Option.some.inj hd
      omega
    | _ => cases hd
  | raise hp hc hm hp' hv' hr ht =>
    refine hset hp hp' fun hd => ?_
    cases raises_of_code hc with
    | releaseV => exact (MonitorPoint.waiter_released _ _).trans hd
    | _ => cases hd

/-- A waiter that has been signalled is not asleep, wherever it was when it was signalled, and passes its `P`
with the next move that it makes there. -/
lemma Sane.released (h : Sane cl v₀ σ) (ht : Shows σ MonitorPoint.waiter t w) (hr : σ.raised (.waiter w) ≠ 0) :
    (∀ c s next, σ.threads[t]? ≠ some (.asleep c s next)) ∧
    ∀ l, σ.points[t]? = some (.waitP w l) → ∀ k, ∃ σ', σ.Moves cl.code (t, k) σ' ∧
      σ'.points[t]? = some (.waitAcquire l) := by
  have hpos : 0 < (σ.semaphores (.waiter w)).value := by
    have hvalue := h.waiter_value w
    have := (h.queued.waiting t w ht).2
    simp only [value] at hvalue
    omega
  have hpoint : ∀ {u : ℕ} {c next : MonitorPoint L}, σ.threads[u]? = some (.asleep c (.waiter w) next) ∨
      σ.threads[u]? = some (.woken c (.waiter w) next) → ∃ l, c = .waitP w l ∧ next = .waitAcquire l := by
    intro u c next hu
    obtain ⟨k, hk⟩ := h.steady.sited u c _ next hu
    cases takes_of_code hk
    exact ⟨_, rfl, rfl⟩
  have hawake : ∀ c s next, σ.threads[t]? ≠ some (.asleep c s next) := by
    intro c s next hst
    have hp : σ.points[t]? = some c := points_getElem? hst
    rw [shows_of_point hp] at ht
    obtain ⟨k, hk⟩ := h.steady.sited t c s next (.inl hst)
    cases takes_of_code hk with
    | waitP =>
      rename_i w' l'
      obtain rfl : w' = w := Option.some.inj ht
      -- a sleeper in the queue of a positive semaphore means that another thread was woken
      have hqueue : t ∈ (σ.semaphores (.waiter w')).queue := (h.steady.queued _ t).mpr ⟨_, _, hst⟩
      have hpending := h.steady.pending (.waiter w') (List.ne_nil_of_mem hqueue)
      have hcount : 0 < σ.threads.countP (ThreadState.wokenOn (.waiter w')) := by omega
      obtain ⟨st, hmem, hw⟩ := List.countP_pos_iff.mp hcount
      obtain ⟨u, hu⟩ := List.mem_iff_getElem?.mp hmem
      cases st with
      | ready c => cases hw
      | asleep c s next => cases hw
      | woken c s next =>
        obtain rfl : s = .waiter w' := by simpa [ThreadState.wokenOn] using hw
        obtain ⟨l₁, rfl, rfl⟩ := hpoint (.inr hu)
        have hut := h.queued.distinct u t w' ((shows_of_point (points_getElem? hu)).mpr rfl)
          ((shows_of_point hp).mpr rfl)
        subst hut
        simp [hst] at hu
    | _ => cases ht
  refine ⟨hawake, fun l hp k => ?_⟩
  have hwants : σ.Wants cl.code (t, k) (.waitP w l) (.waiter w) (.waitAcquire l) := by
    obtain ⟨st, hst, hpt⟩ : ∃ st, σ.threads[t]? = some st ∧ st.point = .waitP w l := by
      simpa [points, Option.map_eq_some_iff] using hp
    cases st with
    | ready c =>
      obtain rfl : c = .waitP w l := hpt
      exact .inr ⟨hst, rfl⟩
    | asleep c s next => exact absurd hst (hawake c s next)
    | woken c s next =>
      obtain rfl : c = .waitP w l := hpt
      obtain ⟨k', hk'⟩ := h.steady.sited t _ s next (.inr hst)
      cases hk'
      exact .inl hst
  have hlt : t < σ.threads.length := by
    obtain ⟨st, hst, -⟩ := hwants.getElem?
    exact (List.getElem?_eq_some_iff.mp hst).1
  have hm := hwants.move_eq
  rw [Concurrent.p, if_neg hpos.ne'] at hm
  exact ⟨_, hm, by simp [points, hlt, ThreadState.point]⟩

omit [DecidableEq S] in
lemma tally_start (ht : σ.threads[t]? = some (.ready c)) (hc' : c'.removed = none) :
    Tally t σ.memory.monitor.waitQueue (fun w => σ.raised (.waiter w)) c' []
      { σ with threads := σ.threads.set t (.ready c') } := by
  have hlt : t < σ.threads.length := (List.getElem?_eq_some_iff.mp ht).1
  exact ⟨by simp [points, hlt, ThreadState.point], by simp [hc'], fun x => by simp⟩

lemma Sane.call (h : Sane cl v₀ σ) {σ₁ : World S D L} {l l' : L}
    (ht : σ.threads[t]? = some (.ready (.inside l))) (hm : σ.Moves cl.code (t, k) σ₁) :
    (cl.inner k t l = some (.signal l') →
      σ₁ = { σ with threads := σ.threads.set t (.ready (.signalTest false l')) }) ∧
    (cl.inner k t l = some (.broadcast l') →
      σ₁ = { σ with threads := σ.threads.set t (.ready
        (if σ.memory.monitor.waitQueue = [] then .inside l' else .signalAssert l')) }) := by
  have hholder : σ.memory.monitor.lockHolder = some t := h.locked.holder t _ (points_getElem? ht) rfl
  constructor
  · intro hk
    simp only [Moves, move, ht, code, hk, Option.map_some, assertHeld, hholder, if_true, Except.map] at hm
    cases hm
    rfl
  · intro hk
    simp only [Moves, move, ht, code, hk, Option.map_some, broadcastLoop, onMonitor, Except.map] at hm
    cases hm
    rfl

/-- One lock and one condition, in every state of every run. -/
theorem monitor_contract (cl : Client S D K L) (d : D) {v₀ : S → ℤ} (h₀ : ∀ s, 0 ≤ v₀ s) (ls : List L)
    {σ : World S D L} (h : Run cl.code (start d v₀ ls) σ) :
    -- at most one thread is between the `P` of `Acquire` and the `V` of `Release`
    (∀ (t u : ℕ) (c c' : MonitorPoint L), σ.points[t]? = some c → σ.points[u]? = some c' →
      c.holds = true → c'.holds = true → t = u) ∧
    -- it is the holder, and no `ASSERT` fails
    (∀ (t : ℕ) (c : MonitorPoint L), σ.points[t]? = some c → c.settled = true →
      σ.memory.monitor.lockHolder = some t) ∧
    (∀ (o : ℕ × K) (e : Fault), σ.move cl.code o = some (.error e) → Fails cl o σ e) ∧
    -- every waiter that has not been signalled is that of one thread, which stays in `Wait` whoever moves; a
    -- thread whose waiter has been signalled is not asleep and passes the `P` of `Wait`
    (∀ w ∈ unsignalled σ, ∃ t, Shows σ MonitorPoint.waiter t w ∧ ∀ u, Shows σ MonitorPoint.waiter u w → u = t) ∧
    (∀ t w, Shows σ MonitorPoint.waiter t w → w ∈ unsignalled σ →
      ∀ (o : ℕ × K) (σ' : World S D L), σ.Moves cl.code o σ' → Shows σ' MonitorPoint.waiter t w) ∧
    (∀ t w, Shows σ MonitorPoint.waiter t w → w ∉ unsignalled σ →
      (∀ c s next, σ.threads[t]? ≠ some (.asleep c s next)) ∧
      ∀ l, σ.points[t]? = some (.waitP w l) → ∀ k, ∃ σ', σ.Moves cl.code (t, k) σ' ∧
        σ'.points[t]? = some (.waitAcquire l)) ∧
    -- a call of `Signal` signals the waiter that was appended first and no other
    (∀ (t : ℕ) (k : K) (l l' l'' : L) (os : List (ℕ × K)) (σ₁ σ₂ : World S D L),
      σ.threads[t]? = some (.ready (.inside l)) →
      cl.inner k t l = some (.signal l') → σ.Moves cl.code (t, k) σ₁ →
      Path (Moves cl.code) (Signalling t) σ₁ os σ₂ → σ₂.points[t]? = some (.inside l'') →
      ∀ w, σ₂.raised (.waiter w) = σ.raised (.waiter w) + if (unsignalled σ).head? = some w then 1 else 0) ∧
    -- a call of `Broadcast` can always go on, takes a bounded number of statements, and signals exactly the
    -- waiters that were there when it was called
    ∀ (t : ℕ) (k : K) (l l' : L) (os : List (ℕ × K)) (σ₁ σ₂ : World S D L),
      σ.threads[t]? = some (.ready (.inside l)) →
      cl.inner k t l = some (.broadcast l') → σ.Moves cl.code (t, k) σ₁ →
      Path (Moves cl.code) (Signalling t) σ₁ os σ₂ →
      os.countP (fun o => o.1 = t) ≤ 5 * (unsignalled σ).length ∧
      (Signalling t σ₂ ∧ (∀ k, ∃ σ₃, σ₂.Moves cl.code (t, k) σ₃) ∨
        σ₂.points[t]? = some (.inside l') ∧ unsignalled σ₂ = [] ∧
        ∀ w, σ₂.raised (.waiter w) = σ.raised (.waiter w) + if w ∈ unsignalled σ then 1 else 0) := by
  have hs : Sane cl v₀ σ := (Sane.start d h₀ ls).run h
  have hmem : ∀ {w}, w ∈ unsignalled σ ↔ w ∈ σ.memory.monitor.appended ∧ σ.raised (.waiter w) = 0 := by
    intro w
    simp [unsignalled]
  refine ⟨fun t u c c' => hs.locked.exclusive (hs.nonneg _),
      hs.locked.holder, fun o e => hs.fault, ?_, ?_, ?_, ?_, ?_⟩
  · intro w hw
    obtain ⟨t, ht⟩ := hs.queued.parked w (hmem.mp hw).1 (hmem.mp hw).2
    exact ⟨t, ht, fun u hu => hs.queued.distinct u t w hu ht⟩
  · exact fun t w ht hw o σ' => hs.blocked ht (hmem.mp hw).2
  · exact fun t w ht hw => hs.released ht fun hr => hw (hmem.mpr ⟨(hs.queued.waiting t w ht).1, hr⟩)
  · intro t k l l' l'' os σ₁ σ₂ ht hk hm hpath hret w
    have hs₁ := hs.step hm
    have hunsig := hs.unsignalled_eq (points_getElem? ht) rfl rfl
    have hnodup := hs.queued.nodup.sublist hs.queued.fifo.sublist
    obtain rfl := (hs.call ht hm).1 hk
    obtain ⟨c, gone, hT, hat⟩ := hs₁.signal_path (tally_start ht rfl) hnodup hpath
    cases hat with
    | done hgone =>
      rw [hT.raised, hunsig]
      simp only [hgone]
    | _ => exact absurd (hT.point.symm.trans hret) (by simp)
  · intro t k l l' os σ₁ σ₂ ht hk hm hpath
    have hs₁ := hs.step hm
    have hunsig := hs.unsignalled_eq (points_getElem? ht) rfl rfl
    have hnodup := hs.queued.nodup.sublist hs.queued.fifo.sublist
    rw [hunsig]
    obtain rfl := (hs.call ht hm).2 hk
    have hat : BroadcastAt l' (if σ.memory.monitor.waitQueue = [] then .inside l' else .signalAssert l')
        σ.memory.monitor.waitQueue := by
      split
      · rename_i hq
        rw [hq]
        exact .done
      · rename_i hq
        exact .assert hq
    have hremoved :
        (if σ.memory.monitor.waitQueue = [] then MonitorPoint.inside l' else .signalAssert l').removed =
        none := by
      split <;> rfl
    obtain ⟨hs₂, hcount, c, gone, hT, hat'⟩ := hs₁.broadcast_path (tally_start ht hremoved) hat hnodup hpath
    refine ⟨hcount.trans ?_, ?_⟩
    · split <;> simp [rank]
    · by_cases hc : c.signalling = true
      · exact .inl ⟨⟨c, hT.point, hc⟩, hs₂.signalling_moves ⟨c, hT.point, hc⟩⟩
      · right
        generalize hq₂ : σ₂.memory.monitor.waitQueue = q at hat'
        cases hat' with
        | done =>
          have hgone : σ.memory.monitor.waitQueue = gone := by simpa [MonitorPoint.removed, hq₂] using hT.split
          refine ⟨hT.point, (hs₂.unsignalled_eq hT.point rfl rfl).trans hq₂, fun w => ?_⟩
          rw [hgone]
          exact hT.raised w
        | _ => exact absurd rfl hc

inductive Use
  | acquire | release | wait | signal | broadcast

def anyUse : Client Empty Unit Use Unit where
  outer k _ _ := match k with
    | .acquire => some (.acquire ())
    | _ => none
  inner k _ _ := match k with
    | .acquire => none
    | .release => some (.release ())
    | .wait => some (.wait ())
    | .signal => some (.signal ())
    | .broadcast => some (.broadcast ())

/-- Thread 0 has released the lock in `Wait` and not yet called `P`; thread 1 has acquired the lock. -/
theorem monitor_contract_between :
    ∃ σ, run anyUse.code ([(0, .acquire), (0, .wait), (0, .wait), (0, .wait), (0, .wait), (0, .wait), (0, .wait),
        (0, .wait), (1, .acquire), (1, .acquire)]) (start () Empty.elim [(), ()]) = some σ ∧
      unsignalled σ = [0] ∧ σ.memory.monitor.lockHolder = some 1 ∧
      ∃ t, Shows σ MonitorPoint.waiter t 0 ∧ ∀ u, Shows σ MonitorPoint.waiter u 0 → u = t := by
  obtain ⟨σ, hσ, hu, hp⟩ : ∃ σ, run anyUse.code ([(0, .acquire), (0, .wait), (0, .wait), (0, .wait), (0, .wait),
      (0, .wait), (0, .wait), (0, .wait), (1, .acquire), (1, .acquire)]) (start () Empty.elim [(), ()]) = some σ ∧
      unsignalled σ = [0] ∧ σ.points[1]? = some (.inside ()) := ⟨_, rfl, rfl, rfl⟩
  obtain ⟨-, hholder, -, hwaiter, -⟩ := monitor_contract anyUse () (fun s => s.elim) _ (run_reaches hσ)
  exact ⟨σ, hσ, hu, hholder 1 _ hp rfl, hwaiter 0 (by simp [hu])⟩

end Client

end NachosFileSys
