import NachosFileSys.Devices

namespace NachosFileSys

open Lib.Results Lib.Runs

namespace Setting

variable {c : Setting} {k k' k₁ k₂ : Hardware} {next p : PendingInterrupt CallBackObj} {fuel n : ℕ}

def isTimer (p : PendingInterrupt CallBackObj) : Bool := p.callOnInterrupt = .timer

lemma isTimer_eq_false : isTimer p = false ↔ p.callOnInterrupt ≠ .timer := by
  simp [isTimer]

def interval (c : Setting) : ℤ := if c.randomize then 200 else 100

structure Runs (c : Setting) (k : Hardware) : Prop where
  atMost : k.pending.countP isTimer ≤ 1
  exact (hd : k.world.disable = false) : k.pending.countP isTimer = 1
  soon (p : PendingInterrupt CallBackObj) (hp : p ∈ k.pending) (ht : isTimer p = true) :
    p.when ≤ k.totalTicks + c.interval
  fired : k.world.timeCount = (k.fired.countP fun f => isTimer f.1 : ℕ)
  spaced (hr : c.randomize = false) : TimerTicks * k.world.timeCount ≤ k.totalTicks
  later (hr : c.randomize = false) (p : PendingInterrupt CallBackObj)
      (hp : p ∈ k.pending) (ht : isTimer p = true) :
    TimerTicks * (k.world.timeCount + 1) ≤ p.when

namespace Runs

lemma congr (hk : Runs c k) (hcount : k'.pending.countP isTimer = k.pending.countP isTimer)
    (hmem : ∀ p ∈ k'.pending, isTimer p = true → p ∈ k.pending)
    (hd : k'.world.disable = false → k.world.disable = false)
    (htime : k'.world.timeCount = k.world.timeCount)
    (hfired : (k'.fired.countP fun f => isTimer f.1) = k.fired.countP fun f => isTimer f.1)
    (hticks : k.totalTicks ≤ k'.totalTicks) : Runs c k' := by
  refine ⟨?_, ?_, ?_, ?_, ?_, ?_⟩
  · rw [hcount]
    exact hk.atMost
  · intro h
    rw [hcount]
    exact hk.exact (hd h)
  · intro p hp ht
    have := hk.soon p (hmem p hp ht) ht
    omega
  · rw [htime, hfired]
    exact hk.fired
  · rw [htime]
    exact fun hr => (hk.spaced hr).trans hticks
  · rw [htime]
    exact fun hr p hp ht => hk.later hr p (hmem p hp ht) ht

lemma inserted (hk : Runs c k) (hp : isTimer p = false) (w : Devices) (hd : w.disable = k.world.disable)
    (hw : w.timeCount = k.world.timeCount) : Runs c (Interrupt.inserted { k with world := w } p) := by
  apply hk.congr
  · rw [Interrupt.countP_inserted, hp]
    rfl
  · intro q hq ht
    rcases Interrupt.mem_inserted.mp hq with rfl | hq
    · rw [hp] at ht
      cases ht
    · exact hq
  · exact fun h => hd ▸ h
  · exact hw
  · rfl
  · rfl

lemma apart (hk : Runs c k) (h : Apart k k') : Runs c k' := by
  have hnot : ∀ p n, p.callOnInterrupt = CallBackObj.other n → isTimer p = false := by
    intro p n hn
    rw [isTimer_eq_false, hn]
    exact CallBackObj.noConfusion
  apply hk.congr (h.count isTimer hnot)
  · intro p hp ht
    refine (h.mem p fun n hn => ?_).mp hp
    rw [hnot p n hn] at ht
    cases ht
  · rw [h.world]
    exact id
  · rw [h.world]
  · rw [h.fired]
  · exact h.totalTicks.ge

lemma popped (hk : Runs c k) {rest : List (PendingInterrupt CallBackObj)} (hp : k.pending = next :: rest)
    (hn : isTimer next = false) : Runs c (k.popped next rest) := by
  apply hk.congr
  · rw [hp, List.countP_cons, hn]
    rfl
  · intro p hm _
    rw [hp]
    exact List.mem_cons_of_mem _ hm
  · exact id
  · rfl
  · simp [Interrupt.popped, List.countP_append, hn]
  · exact le_rfl

lemma rings (hk : Runs c k) {rest : List (PendingInterrupt CallBackObj)} (hp : k.pending = next :: rest)
    (hdue : next.when ≤ k.totalTicks) (hn : isTimer next = true) (h : Rings c (k.popped next rest) k') :
    Runs c k' := by
  have hcount := hk.atMost
  rw [hp, List.countP_cons, hn, if_pos rfl] at hcount
  have hnone : rest.countP isTimer = 0 := by omega
  have hfired : k'.world.timeCount = (k'.fired.countP fun f => isTimer f.1 : ℕ) := by
    rw [h.timeCount, h.fired]
    change k.world.timeCount + 1 = _
    simp [Interrupt.popped, List.countP_append, hn, hk.fired]
  have hnow : k'.totalTicks = k.totalTicks := h.totalTicks
  have htime : k'.world.timeCount = k.world.timeCount + 1 := h.timeCount
  have hspaced (hr : c.randomize = false) : TimerTicks * k'.world.timeCount ≤ k'.totalTicks := by
    have := hk.later hr next (by rw [hp]; exact List.mem_cons_self) hn
    rw [htime, hnow]
    omega
  have hrest : ∀ p ∈ rest, isTimer p = true → False := fun p hm ht => List.countP_eq_zero.mp hnone p hm ht
  rcases h.pending with ⟨hd, hpending, -⟩ | ⟨-, q, hq, hlt, hle, hfixed, hpending, -⟩
  · have hpending : k'.pending = rest := hpending
    refine ⟨?_, ?_, ?_, hfired, hspaced, ?_⟩
    · rw [hpending, hnone]
      exact Nat.zero_le 1
    · rw [h.disable]
      exact fun h => absurd (hd.symm.trans h) (by decide)
    · rw [hpending]
      exact fun p hm ht => (hrest p hm ht).elim
    · rw [hpending]
      exact fun _ p hm ht => (hrest p hm ht).elim
  · have hone : k'.pending.countP isTimer = 1 := by
      rw [hpending, Interrupt.countP_inserted, show isTimer q = true from decide_eq_true hq]
      change rest.countP isTimer + 1 = 1
      rw [hnone]
    have hself : ∀ p ∈ k'.pending, isTimer p = true → p = q := by
      intro p hm ht
      rw [hpending] at hm
      rcases Interrupt.mem_inserted.mp hm with rfl | hm
      · rfl
      · exact (hrest p hm ht).elim
    refine ⟨hone.le, fun _ => hone, ?_, hfired, hspaced, ?_⟩
    · intro p hm ht
      rw [hself p hm ht, hnow]
      exact hle
    · intro hr p hm ht
      have := hspaced hr
      rw [hself p hm ht, hfixed hr]
      change _ ≤ k.totalTicks + 100
      unfold TimerTicks at *
      omega

lemma delivers (hk : Runs c k) (h : Interrupt.Delivers c.callBack next k k') : Runs c k' := by
  cases h with
  | mk hp hdue hf =>
    have hnot (hne : next.callOnInterrupt ≠ .timer) : isTimer next = false := isTimer_eq_false.mpr hne
    cases hn : next.callOnInterrupt with
    | timer => exact hk.rings hp hdue (decide_eq_true hn) (fire_timer hn hf)
    | disk =>
      rw [fire_disk hn hf]
      apply (hk.popped hp (hnot (by rw [hn]; exact CallBackObj.noConfusion))).congr
      · rfl
      · exact fun _ hm _ => hm
      · exact id
      · rfl
      · rfl
      · exact le_rfl
    | other n => exact (hk.popped hp (hnot (by rw [hn]; exact CallBackObj.noConfusion))).apart (fire_other hn hf)

end Runs

lemma keeps_runs (c : Setting) : c.Keeps (Runs c) where
  request k k' writing s hk h := by
    obtain ⟨-, -, -, -, rfl⟩ := request_ok h
    exact hk.inserted rfl _ rfl rfl
  schedule k p n hk hp := hk.apart (apart_inserted hp)
  disable k hk := by
    apply hk.congr
    · rfl
    · exact fun _ hm _ => hm
    · exact fun h => Bool.noConfusion h
    · rfl
    · rfl
    · exact le_rfl
  passes k k' hk h := by
    apply hk.congr
    · rw [h.pending]
    · rw [h.pending]
      exact fun _ hm _ => hm
    · rw [h.world]
      exact id
    · rw [h.world]
    · rw [h.fired]
    · exact h.totalTicks
  delivers next k k' hk h := hk.delivers h

lemma runs_boot {random : ℕ → ℕ} (h : c.boot random = .ok k) : Runs c k := by
  obtain ⟨p, w, hp, hle, hfixed, -, -, -, -, htime, rfl⟩ := boot_ok h
  have hself : ∀ q ∈ ((Interrupt.boot w).inserted p).pending, q = p := fun q hq => by
    simpa [Interrupt.boot] using Interrupt.mem_inserted.mp hq
  have hone : ((Interrupt.boot w).inserted p).pending.countP isTimer = 1 := by
    rw [Interrupt.countP_inserted, show isTimer p = true from decide_eq_true hp]
    rfl
  have hcount : ((Interrupt.boot w).inserted p).world.timeCount = 0 := htime
  refine ⟨hone.le, fun _ => hone, ?_, hcount, ?_, ?_⟩
  · intro q hq _
    rw [hself q hq]
    change p.when ≤ 0 + c.interval
    rw [zero_add]
    exact hle
  · rw [hcount]
    exact fun _ => le_rfl
  · rw [hcount]
    intro hr q hq _
    rw [hself q hq, hfixed hr]
    exact le_rfl

structure Punctual (k : Hardware) : Prop where
  timely : Interrupt.Timely k
  early (p : PendingInterrupt CallBackObj) (hp : p ∈ k.pending) : k.totalTicks < p.when
  quiet : k.yieldOnReturn = false

namespace Punctual

lemma inserted (hk : Punctual k) {toCall : CallBackObj} {fromNow : ℤ} {type : IntType} (hpos : 0 < fromNow)
    (w : Devices) : Punctual
      (Interrupt.inserted { k with world := w } ⟨toCall, k.totalTicks + fromNow, type, k.scheduled.length⟩) := by
  have htimely : Interrupt.Timely { k with world := w } := hk.timely.congr rfl rfl rfl le_rfl hk.timely.clock
  refine ⟨htimely.inserted (lt_add_of_pos_right _ hpos) rfl, ?_, hk.quiet⟩
  intro p hp
  rcases Interrupt.mem_inserted.mp hp with rfl | hp
  · exact lt_add_of_pos_right _ hpos
  · exact hk.early p hp

lemma of_check {advanceClock b : Bool} (ht : Interrupt.Timely k₁)
    (h : Interrupt.checkIfDue c.callBack fuel advanceClock k₁ = .ok (b, k₂)) (hp : k'.pending = k₂.pending)
    (hs : k'.scheduled = k₂.scheduled) (hf : k'.fired = k₂.fired) (hn : k'.totalTicks = k₂.totalTicks)
    (hc : k'.totalTicks = k'.idleTicks + k'.systemTicks + k'.userTicks) (hy : k'.yieldOnReturn = false) :
    Punctual k' := by
  obtain ⟨ht₂, -, hdue⟩ := Interrupt.checkIfDue_ok ht h
  refine ⟨ht₂.congr hs hf hp hn.ge hc, ?_, hy⟩
  rw [hp, hn]
  exact fun p hp => ht₂.lt_when hdue hp

lemma oneTick (hk : Punctual k) (h : Interrupt.oneTick c.callBack fuel k = .ok k') : Punctual k' := by
  obtain ⟨k₁, hadvance, h⟩ := bind_eq_ok.mp h
  obtain ⟨⟨b, k₂⟩, hcheck, h⟩ := bind_eq_ok.mp h
  have ht := (Interrupt.advance_ok hadvance).1 hk.timely
  have hclock := (Interrupt.checkIfDue_ok ht hcheck).1.clock
  simp only at h
  split at h
  · cases h
    exact of_check ht hcheck rfl rfl rfl rfl hclock rfl
  · cases h
    exact of_check ht hcheck rfl rfl rfl rfl hclock (Bool.eq_false_iff.mpr ‹_›)

lemma idle (hk : Punctual k) (h : Interrupt.idle c.callBack fuel k = .ok k') : Punctual k' := by
  obtain ⟨⟨b, k₁⟩, hcheck, h⟩ := bind_eq_ok.mp h
  have ht : Interrupt.Timely { k with status := .idleMode } := hk.timely.congr rfl rfl rfl le_rfl hk.timely.clock
  have hI (next : PendingInterrupt CallBackObj) (k k' : Hardware)
      (hk : k.status = .idleMode ∧ k.yieldOnReturn = false) (hdelivers : Interrupt.Delivers c.callBack next k k') :
      k'.status = .idleMode ∧ k'.yieldOnReturn = false := by
    obtain ⟨hs, hy⟩ := hk
    cases hdelivers with
    | @mk rest k' hp hdue hf =>
      cases hn : next.callOnInterrupt with
      | timer =>
        have hrings := fire_timer hn hf
        refine ⟨hrings.status.trans hs, ?_⟩
        rw [hrings.yieldOnReturn]
        simp only [Interrupt.popped, hs, hy, slices, Bool.false_or]
        exact decide_eq_false fun h => h.1 rfl
      | disk =>
        rw [fire_disk hn hf]
        exact ⟨hs, hy⟩
      | other n =>
        have hapart := fire_other hn hf
        exact ⟨hapart.status.trans hs, hapart.yieldOnReturn.trans hy⟩
  have hquiet : k₁.status = .idleMode ∧ k₁.yieldOnReturn = false :=
    Interrupt.checkIfDue_invariant hI (fun _ _ hk => hk) (fun _ _ _ _ hk _ => hk)
      (show MachineStatus.idleMode = .idleMode ∧ k.yieldOnReturn = false from ⟨rfl, hk.quiet⟩) hcheck
  simp only at h
  split at h
  · cases h
    exact of_check ht hcheck rfl rfl rfl rfl (Interrupt.checkIfDue_ok ht hcheck).1.clock hquiet.2
  · cases h

lemma performs (hk : Punctual k) {op : DeviceOp} (h : c.Performs op k k') : Punctual k' := by
  obtain ⟨fuel, h⟩ := h
  cases op with
  | request writing s =>
    obtain ⟨-, -, -, hpos, rfl⟩ := request_ok h
    exact hk.inserted hpos _
  | schedule n fromNow type =>
    obtain ⟨hpos, rfl⟩ := Interrupt.schedule_eq h
    exact hk.inserted hpos k.world
  | disableTimer =>
    cases h
    exact ⟨hk.timely.congr rfl rfl rfl le_rfl hk.timely.clock, hk.early, hk.quiet⟩
  | oneTick => exact hk.oneTick h
  | setLevel now =>
    have hlevel : Punctual { k with level := now } :=
      ⟨hk.timely.congr rfl rfl rfl le_rfl hk.timely.clock, hk.early, hk.quiet⟩
    change Interrupt.setLevel c.callBack fuel now k = .ok k' at h
    unfold Interrupt.setLevel at h
    split at h
    · split at h
      · exact hlevel.oneTick h
      · cases h
        exact hlevel
    · cases h
  | idle => exact hk.idle h
  | setStatus st =>
    cases h
    exact ⟨hk.timely.congr rfl rfl rfl le_rfl hk.timely.clock, hk.early, hk.quiet⟩

end Punctual

lemma punctual_boot {random : ℕ → ℕ} (h : c.boot random = .ok k) : Punctual k := by
  obtain ⟨p, w, -, -, -, hpos, hnumber, -, -, -, rfl⟩ := boot_ok h
  refine ⟨(Interrupt.Timely.boot w).inserted hpos hnumber, fun q hq => ?_, rfl⟩
  obtain rfl : q = p := by simpa [Interrupt.boot] using Interrupt.mem_inserted.mp hq
  exact hpos

lemma Reachable.punctual {random : ℕ → ℕ} (h : c.Reachable random k) : Punctual k := by
  obtain ⟨k₀, h₀, hrun⟩ := h
  exact hrun.invariant (fun _ _ _ hk _ hp => hk.performs hp) (punctual_boot h₀)

section Halt

variable {H W : Type} [DecidableEq H] {callBack : H → Interrupt H W → List (HandlerCall H) × W} {i : Interrupt H W}
  {fuel : ℕ}

lemma int_ne_halt (z : ℤ) : int z ≠ .error .halt := by
  unfold int
  split <;> simp

lemma bind_ne_halt {α β : Type} {x : Except Stop α} {f : α → Except Stop β} (hx : x ≠ .error .halt)
    (hf : ∀ a, f a ≠ .error .halt) : (x >>= f) ≠ .error .halt := by
  cases x with
  | error e => exact fun h => hx (congrArg Except.error (Except.error.inj h))
  | ok a => exact hf a

lemma call_ne_halt (x : HandlerCall H) (i : Interrupt H W) : i.call x ≠ .error .halt := by
  cases x with
  | schedule toCall fromNow type =>
    apply bind_ne_halt (int_ne_halt _)
    intro time
    dsimp only
    split
    · simp
    · split <;> simp
  | yieldOnReturn | setLevel =>
    rw [Interrupt.call]
    split <;> simp

lemma fire_ne_halt (next : PendingInterrupt H) : Interrupt.fire callBack next i ≠ .error .halt := by
  rw [Interrupt.fire]
  generalize (callBack next.callOnInterrupt i) = r
  obtain ⟨calls, w⟩ := r
  suffices hcalls : ∀ i : Interrupt H W, calls.foldlM Interrupt.call i ≠ .error .halt from hcalls _
  induction calls with
  | nil => exact fun i h => by cases h
  | cons x calls ih => exact fun i => bind_ne_halt (call_ne_halt x i) ih

lemma fireDue_ne_halt : Interrupt.fireDue callBack fuel i ≠ .error .halt := by
  induction fuel generalizing i with
  | zero => simp [Interrupt.fireDue]
  | succ fuel ih =>
    rw [Interrupt.fireDue]
    split
    · simp
    · apply bind_ne_halt (fire_ne_halt _)
      intro i
      split
      · exact ih
      · simp

lemma idle_ne_halt (hp : i.pending ≠ []) : Interrupt.idle callBack fuel i ≠ .error .halt := by
  have hcheck : Interrupt.checkIfDue callBack fuel true { i with status := .idleMode } ≠ .error .halt ∧
      ∀ b i', Interrupt.checkIfDue callBack fuel true { i with status := .idleMode } = .ok (b, i') → b = true := by
    obtain ⟨next, rest, hnext⟩ := List.exists_cons_of_ne_nil hp
    unfold Interrupt.checkIfDue
    simp only [hnext, if_true]
    split
    · exact ⟨by simp, fun _ _ h => by cases h⟩
    · split
      · refine ⟨bind_ne_halt (int_ne_halt _) fun _ => bind_ne_halt fireDue_ne_halt fun _ => by simp,
            fun b i' h => ?_⟩
        obtain ⟨_, -, h⟩ := bind_eq_ok.mp h
        obtain ⟨_, -, h⟩ := bind_eq_ok.mp h
        cases h
        rfl
      · refine ⟨bind_ne_halt fireDue_ne_halt fun _ => by simp, fun b i' h => ?_⟩
        obtain ⟨_, -, h⟩ := bind_eq_ok.mp h
        cases h
        rfl
  obtain ⟨hne, htrue⟩ := hcheck
  rw [Interrupt.idle]
  cases hr : Interrupt.checkIfDue callBack fuel true { i with status := .idleMode } with
  | error e =>
    rw [hr] at hne
    exact fun h => hne (congrArg Except.error (Except.error.inj h))
  | ok r =>
    have hfired := htrue r.1 r.2 hr
    simp [bind, Except.bind, hfired]

end Halt

/-- In every state, unless the timer has been disabled, exactly one timer interrupt is pending and
it comes within one interval, so that the machine never halts for want of something to do. The alarm
has counted every timer interrupt, and at fixed intervals its count times `TimerTicks` does not
exceed the clock. -/
theorem timer_goes_on (c : Setting) (random : ℕ → ℕ) (k : Hardware) (h : c.Reachable random k) :
    (k.world.disable = false → k.pending.countP isTimer = 1 ∧
    ∀ fuel, Interrupt.idle c.callBack fuel k ≠ .error .halt) ∧
      (∀ p ∈ k.pending, isTimer p = true → k.totalTicks < p.when ∧ p.when ≤ k.totalTicks + c.interval) ∧
      k.world.timeCount = (k.fired.countP fun f => isTimer f.1 : ℕ) ∧
      (c.randomize = false → k.world.timeCount * TimerTicks ≤ k.totalTicks) := by
  have hk := (keeps_runs c).reachable (fun _ => runs_boot) h
  refine ⟨fun hd => ⟨hk.exact hd, fun fuel => ?_⟩, fun p hp ht => ?_, hk.fired, fun hr => ?_⟩
  · apply idle_ne_halt
    intro hnil
    have hone := hk.exact hd
    rw [hnil] at hone
    cases hone
  · exact ⟨h.punctual.early p hp, hk.soon p hp ht⟩
  · rw [mul_comm]
    exact hk.spaced hr

theorem timer_goes_on_idle : ∃ k, plain.Reachable (fun _ => 0) k ∧
    k.totalTicks = 300 ∧ k.pending.countP isTimer = 1 ∧
    k.world.timeCount = 3 ∧ k.world.timeCount * TimerTicks ≤ 300 := by
  obtain ⟨k, hk, ht, hd, hcount⟩ :
      ∃ k, (plain.boot (fun _ => 0) >>= plain.follow 2 (List.replicate 3 .idle)) = .ok k ∧
      k.totalTicks = 300 ∧ k.world.disable = false ∧ k.world.timeCount = 3 := ⟨_, rfl, rfl, rfl, rfl⟩
  obtain ⟨hone, -, -, hspaced⟩ := timer_goes_on plain (fun _ => 0) k (reachable_follow hk)
  have hle := hspaced rfl
  rw [ht] at hle
  exact ⟨k, reachable_follow hk, ht, (hone hd).1, hcount, hle⟩

inductive Ticks (c : Setting) (k : Hardware) : ℕ → Hardware → Prop
  | zero : Ticks c k 0 k
  | succ {n fuel : ℕ} {k₁ k₂ : Hardware} (h : Ticks c k n k₁)
      (ht : Interrupt.oneTick c.callBack fuel k₁ = .ok k₂) :
      Ticks c k (n + 1) k₂

structure Checked (c : Setting) (timers : List (PendingInterrupt CallBackObj)) (count now : ℤ) (k : Hardware) :
    Prop where
  clock : k.totalTicks = now
  status : k.status = .userMode
  disable : k.world.disable = false
  alarm : k.world.timeCount = count ∧ k.yieldOnReturn = false ∧ (∀ p ∈ k.pending, isTimer p = true → p ∈ timers) ∨
    k.world.timeCount = count + 1 ∧ k.yieldOnReturn = c.slices .userMode (count + 1) ∧
      (∃ p ∈ timers, isTimer p = true ∧ p.when ≤ now) ∧
      ∀ p ∈ k.pending, isTimer p = true → now < p.when ∧ p.when ≤ now + c.interval

variable {timers : List (PendingInterrupt CallBackObj)} {count now : ℤ}

lemma Checked.congr (hk : Checked c timers count now k) (hn : k'.totalTicks = k.totalTicks)
    (hs : k'.status = k.status)
    (hd : k'.world.disable = k.world.disable) (ht : k'.world.timeCount = k.world.timeCount)
    (hy : k'.yieldOnReturn = k.yieldOnReturn) (hp : ∀ p ∈ k'.pending, isTimer p = true → p ∈ k.pending) :
    Checked c timers count now k' := by
  refine ⟨hn.trans hk.clock, hs.trans hk.status, hd.trans hk.disable, ?_⟩
  rw [ht, hy]
  rcases hk.alarm with ⟨hcount, hyield, htimers⟩ | ⟨hcount, hyield, hfired, hnext⟩
  · exact .inl ⟨hcount, hyield, fun p hm ht => htimers p (hp p hm ht) ht⟩
  · exact .inr ⟨hcount, hyield, hfired, fun p hm ht => hnext p (hp p hm ht) ht⟩

lemma Checked.delivers (hk : Checked c timers count now k) (hone : Runs c k)
    (h : Interrupt.Delivers c.callBack next k k') : Checked c timers count now k' := by
  cases h with
  | @mk rest k' hp hdue hf =>
    have hrest : ∀ p ∈ rest, p ∈ k.pending := fun p hm => by
      rw [hp]
      exact List.mem_cons_of_mem _ hm
    have hpopped : Checked c timers count now (k.popped next rest) :=
      hk.congr rfl rfl rfl rfl rfl fun p hm _ => hrest p hm
    cases hn : next.callOnInterrupt with
    | timer =>
      have hrings := fire_timer hn hf
      have htimer : isTimer next = true := decide_eq_true hn
      have hmem : next ∈ k.pending := by
        rw [hp]
        exact List.mem_cons_self
      have hnone : ∀ p ∈ rest, isTimer p = true → False := by
        have hcount := hone.atMost
        rw [hp, List.countP_cons, htimer, if_pos rfl] at hcount
        have hzero : rest.countP isTimer = 0 := by omega
        exact fun p hm ht => List.countP_eq_zero.mp hzero p hm ht
      rw [hk.clock] at hdue
      rcases hk.alarm with ⟨hcount, hyield, htimers⟩ | ⟨-, -, -, hnext⟩
      · have htime : k'.world.timeCount = count + 1 := by
          rw [hrings.timeCount]
          change k.world.timeCount + 1 = _
          rw [hcount]
        refine ⟨hrings.totalTicks.trans hk.clock, hrings.status.trans hk.status, hrings.disable.trans hk.disable,
          .inr ⟨htime, ?_, ⟨next, htimers next hmem htimer, htimer, hdue⟩, ?_⟩⟩
        · rw [hrings.yieldOnReturn, htime]
          change (k.yieldOnReturn || c.slices k.status (count + 1)) = _
          rw [hyield, hk.status, Bool.false_or]
        · intro p hm ht
          rcases hrings.pending with ⟨hd, -, -⟩ | ⟨-, q, -, hlt, hle, -, hpending, -⟩
          · exact absurd (hk.disable.symm.trans hd) (by decide)
          · rw [hpending] at hm
            rcases Interrupt.mem_inserted.mp hm with rfl | hm
            · rw [← hk.clock]
              exact ⟨hlt, hle⟩
            · exact (hnone p hm ht).elim
      · exact absurd hdue (not_le.mpr (hnext next hmem htimer).1)
    | disk =>
      rw [fire_disk hn hf]
      exact hpopped.congr rfl rfl rfl rfl rfl fun _ hm _ => hm
    | other n =>
      have h := fire_other hn hf
      refine hpopped.congr h.totalTicks h.status ?_ ?_ h.yieldOnReturn fun p hm ht => ?_
      · rw [h.world]
      · rw [h.world]
      · refine (h.mem p fun n hn => ?_).mp hm
        have htimer : p.callOnInterrupt = .timer := of_decide_eq_true ht
        rw [hn] at htimer
        cases htimer

lemma status_of_oneTick (h : Interrupt.oneTick c.callBack fuel k = .ok k') (hs : k'.status = .userMode) :
    k.status = .userMode := by
  obtain ⟨k₁, hadvance, h⟩ := bind_eq_ok.mp h
  obtain ⟨⟨b, k₂⟩, hcheck, h⟩ := bind_eq_ok.mp h
  have hstatus₁ : k₁.status = k.status := by
    unfold Interrupt.advance at hadvance
    split at hadvance
    all_goals
      obtain ⟨_, -, hadvance⟩ := bind_eq_ok.mp hadvance
      obtain ⟨_, -, hadvance⟩ := bind_eq_ok.mp hadvance
      cases hadvance
      rfl
  have hstatus₂ : k₂.status = k₁.status := by
    apply Interrupt.checkIfDue_invariant (I := fun k : Hardware => k.status = k₁.status) _ (fun _ _ hk => hk)
      (fun _ _ _ _ hk _ => hk) rfl hcheck
    intro next k k' hk hdelivers
    cases hdelivers with
    | mk hp hdue hf =>
      cases hn : next.callOnInterrupt with
      | timer => exact (fire_timer hn hf).status.trans hk
      | disk =>
        rw [fire_disk hn hf]
        exact hk
      | other n => exact (fire_other hn hf).status.trans hk
  simp only at h
  split at h
  · cases h
    cases hs
  · cases h
    rw [← hstatus₁, ← hstatus₂]
    exact hs

lemma Checked.of_oneTick (hk : Runs c k) (hp : Punctual k) (hd : k.world.disable = false)
    (h : Interrupt.oneTick c.callBack fuel k = .ok k') (hs : k'.status = .userMode) :
    Checked c k.pending k.world.timeCount (k.totalTicks + 1) k' ∧ k'.yieldOnReturn = false := by
  have hstatus := status_of_oneTick h hs
  obtain ⟨k₁, hadvance, h⟩ := bind_eq_ok.mp h
  obtain ⟨⟨b, k₂⟩, hcheck, h⟩ := bind_eq_ok.mp h
  have hruns₁ := (keeps_runs c).passes k k₁ hk (Interrupt.advance_passes hadvance)
  have hchecked₁ : Checked c k.pending k.world.timeCount (k.totalTicks + 1) k₁ := by
    unfold Interrupt.advance at hadvance
    rw [hstatus, if_neg (by decide)] at hadvance
    obtain ⟨totalTicks, htotal, hadvance⟩ := bind_eq_ok.mp hadvance
    obtain ⟨userTicks, -, hadvance⟩ := bind_eq_ok.mp hadvance
    cases hadvance
    exact ⟨Interrupt.int_ok htotal, rfl, hd, .inl ⟨rfl, hp.quiet, fun _ hm _ => hm⟩⟩
  have hI (next : PendingInterrupt CallBackObj) (i i' : Hardware)
      (hi : Runs c i ∧ Checked c k.pending k.world.timeCount (k.totalTicks + 1) i)
      (hdelivers : Interrupt.Delivers c.callBack next i i') :
      Runs c i' ∧ Checked c k.pending k.world.timeCount (k.totalTicks + 1) i' :=
    ⟨hi.1.delivers hdelivers, hi.2.delivers hi.1 hdelivers⟩
  have hflag (i : Hardware) (b : Bool)
      (hi : Runs c i ∧ Checked c k.pending k.world.timeCount (k.totalTicks + 1) i) :
      Runs c { i with inHandler := b } ∧
        Checked c k.pending k.world.timeCount (k.totalTicks + 1) { i with inHandler := b } :=
    ⟨(keeps_runs c).passes i _ hi.1 ⟨rfl, rfl, rfl, rfl, le_rfl⟩,
      hi.2.congr rfl rfl rfl rfl rfl fun _ hm _ => hm⟩
  obtain ⟨-, hchecked₂⟩ :=
    Interrupt.checkIfDue_invariant hI hflag (fun h => Bool.noConfusion h) ⟨hruns₁, hchecked₁⟩
    hcheck
  simp only at h
  split at h
  · cases h
    cases hs
  · cases h
    exact ⟨hchecked₂.congr rfl rfl rfl rfl rfl fun _ hm _ => hm, Bool.eq_false_iff.mpr ‹_›⟩

structure Sliced (c : Setting) (k : Hardware) (n : ℕ) (k' : Hardware) : Prop where
  runs : Runs c k'
  punctual : Punctual k'
  disable : k'.world.disable = false
  clock : k'.totalTicks = k.totalTicks + n
  timeCount : k.world.timeCount ≤ k'.world.timeCount
  next (p : PendingInterrupt CallBackObj) (hp : p ∈ k'.pending) (ht : isTimer p = true) :
    p.when ≤ k.totalTicks + 100 * (1 + k'.world.timeCount - k.world.timeCount)
  unsliced (x : ℤ) (hx : k.world.timeCount < x) (hx' : x ≤ k'.world.timeCount) : ¬c.timeSlice ∣ x * TimerTicks

lemma Sliced.oneTick (hr : c.randomize = false) (hk : Sliced c k n k₁)
    (h : Interrupt.oneTick c.callBack fuel k₁ = .ok k₂) (hs : k₂.status = .userMode) : Sliced c k (n + 1) k₂ := by
  obtain ⟨hchecked, hquiet⟩ := Checked.of_oneTick hk.runs hk.punctual hk.disable h hs
  have hclock : k₂.totalTicks = k.totalTicks + (n + 1 : ℕ) := by
    have hclock := hchecked.clock
    rw [hk.clock] at hclock
    push_cast
    omega
  have hticked : c.Performs .oneTick k₁ k₂ := ⟨fuel, h⟩
  have hruns : Runs c k₂ := (keeps_runs c).performs hk.runs hticked
  refine ⟨hruns, hk.punctual.oneTick h, hchecked.disable, hclock, ?_, ?_, ?_⟩
  all_goals have htime := hk.timeCount
  all_goals rcases hchecked.alarm with ⟨hcount, -, htimers⟩ | ⟨hcount, hyield, ⟨q, hq, hqt, hfired⟩, hnext⟩
  · rw [hcount]
    exact htime
  · rw [hcount]
    omega
  · rw [hcount]
    exact fun p hp ht => hk.next p (htimers p hp ht) ht
  · intro p hp ht
    -- the interrupt that has fired came exactly at its time
    have hlate := (hnext p hp ht).2
    have hearly := hk.punctual.early q hq
    have hle := hk.next q hq hqt
    rw [interval, hr, if_neg (by decide)] at hlate
    rw [hcount]
    omega
  · rw [hcount]
    exact hk.unsliced
  · rw [hcount]
    intro x hx hx'
    obtain hlt | rfl := lt_or_eq_of_le hx'
    · exact hk.unsliced x hx (by omega)
    · rw [hquiet] at hyield
      have hnot := of_decide_eq_false hyield.symm
      intro hdvd
      exact hnot ⟨by decide, Int.tmod_eq_zero_of_dvd hdvd⟩

lemma Sliced.ticks (hr : c.randomize = false) (hk : Runs c k) (hp : Punctual k) (hd : k.world.disable = false)
    (h : Ticks c k n k') (hs : k'.status = .userMode) : Sliced c k n k' := by
  induction h with
  | zero =>
    refine ⟨hk, hp, hd, by simp, le_rfl, fun p hm ht => ?_, fun x hx hx' => absurd hx' (not_le.mpr hx)⟩
    have hsoon := hk.soon p hm ht
    rw [interval, hr, if_neg (by decide)] at hsoon
    omega
  | succ _ ht ih => exact (ih (status_of_oneTick ht hs)).oneTick hr ht hs

lemma exists_slice {timeSlice : ℤ} (hslice : 0 < timeSlice) {a b : ℤ}
    (h : (Int.lcm TimerTicks timeSlice : ℤ) ≤ (b - a) * TimerTicks) :
    ∃ x, a < x ∧ x ≤ b ∧ timeSlice ∣ x * TimerTicks := by
  obtain ⟨m, hm⟩ : TimerTicks ∣ (Int.lcm TimerTicks timeSlice : ℤ) := Int.dvd_lcm_left _ _
  have hpos : (0 : ℤ) < Int.lcm TimerTicks timeSlice := by
    rw [Int.natCast_pos]
    exact Int.lcm_pos (by decide) hslice.ne'
  have hm0 : 0 < m := by
    have hm : (Int.lcm TimerTicks timeSlice : ℤ) = 100 * m := hm
    omega
  have hmod := Int.emod_nonneg a hm0.ne'
  have hlt := Int.emod_lt_of_pos a hm0
  have hle : m ≤ b - a := by
    have hm : (Int.lcm TimerTicks timeSlice : ℤ) = 100 * m := hm
    have h : (Int.lcm TimerTicks timeSlice : ℤ) ≤ (b - a) * 100 := h
    omega
  refine ⟨a + (m - a % m), by omega, by omega, ?_⟩
  have hdvd : m ∣ a + (m - a % m) := by
    rw [show a + (m - a % m) = m + (a - a % m) by ring]
    exact dvd_add (dvd_refl m) (Int.dvd_self_sub_emod)
  have hlcm : timeSlice ∣ TimerTicks * m := hm ▸ Int.dvd_lcm_right _ _
  rw [mul_comm]
  exact hlcm.trans (mul_dvd_mul_left _ hdvd)

/-- A thread that runs user instructions for as many ticks as the common multiple of the timer's
interval and the time slice is made to yield. -/
theorem time_slice (c : Setting) (random : ℕ → ℕ) (k k' : Hardware) (n : ℕ) (h : c.Reachable random k)
    (hr : c.randomize = false) (hslice : 0 < c.timeSlice) (hd : k.world.disable = false) (hn : Ticks c k n k')
    (hs : k'.status = .userMode) : (n : ℤ) < Int.lcm TimerTicks c.timeSlice := by
  have hk := (keeps_runs c).reachable (fun _ => runs_boot) h
  have hsliced := Sliced.ticks hr hk h.punctual hd hn hs
  by_contra hlong
  rw [not_lt] at hlong
  have hone := hsliced.runs.exact hsliced.disable
  obtain ⟨p, hp, ht⟩ := List.countP_pos_iff.mp (hone.symm ▸ Nat.one_pos)
  have hearly := hsliced.punctual.early p hp
  have hnext := hsliced.next p hp ht
  have hclock := hsliced.clock
  have hcommon : (Int.lcm TimerTicks c.timeSlice : ℤ) ≤ (k'.world.timeCount - k.world.timeCount) * TimerTicks := by
    obtain ⟨m, hm⟩ : TimerTicks ∣ (Int.lcm TimerTicks c.timeSlice : ℤ) := Int.dvd_lcm_left _ _
    have hm : (Int.lcm TimerTicks c.timeSlice : ℤ) = 100 * m := hm
    change _ ≤ _ * (100 : ℤ)
    omega
  obtain ⟨x, hx, hx', hdvd⟩ := exists_slice hslice hcommon
  exact hsliced.unsliced x hx hx' hdvd

lemma ticks_follow (h : c.follow fuel (List.replicate n .oneTick) k = .ok k') : Ticks c k n k' := by
  induction n generalizing k' with
  | zero =>
    cases h
    exact .zero
  | succ n ih =>
    rw [follow, List.replicate_succ', List.foldlM_append] at h
    obtain ⟨k₁, h₁, h⟩ := bind_eq_ok.mp h
    obtain ⟨k₂, h₂, h⟩ := bind_eq_ok.mp h
    cases h
    exact .succ (ih h₁) h₂

theorem time_slice_twenty : ∃ k k', plain.Reachable (fun _ => 0) k ∧ Ticks plain k 20 k' ∧ k'.status = .userMode ∧
    (20 : ℤ) < Int.lcm TimerTicks plain.timeSlice := by
  obtain ⟨k, hk, hd, k', hn, hs⟩ :
      ∃ k, (plain.boot (fun _ => 0) >>= plain.follow 2 [.setStatus .userMode]) = .ok k ∧
      k.world.disable = false ∧ ∃ k', plain.follow 2 (List.replicate 20 .oneTick) k = .ok k' ∧
      k'.status = .userMode :=
    ⟨_, rfl, rfl, _, rfl, rfl⟩
  have hslice :=
    time_slice plain (fun _ => 0) k k' 20 (reachable_follow hk) rfl (by decide) hd (ticks_follow hn) hs
  exact ⟨k, k', reachable_follow hk, ticks_follow hn, hs, hslice⟩

end Setting

end NachosFileSys
