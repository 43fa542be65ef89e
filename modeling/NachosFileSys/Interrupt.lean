import NachosFileSys.Lib.Results
import NachosFileSys.Lib.Runs
import Mathlib.Data.List.Sort

/-! `Interrupt`: simulated time and the delivery of interrupts. A handler is any function of the state to a list
of calls on `Interrupt`, and it may change the rest of the machine, `world`, as it likes. -/

namespace NachosFileSys

open Lib.Results Lib.Runs

namespace SortedList

variable {T : Type} (compare : T → T → ℤ)

def place (item : T) : List T → List T
  | [] => [item]
  | first :: rest => if compare item first < 0 then item :: first :: rest else first :: place item rest

lemma place_eq_orderedInsert (item : T) (l : List T) :
    place compare item l = l.orderedInsert (fun x y => compare x y < 0) item := by
  induction l with
  | nil => rfl
  | cons first rest ih => simp [place, ih]

lemma perm_place (item : T) (l : List T) : (place compare item l).Perm (item :: l) := by
  rw [place_eq_orderedInsert]
  exact List.perm_orderedInsert _ item l

variable {compare}

lemma pairwise_place {R : T → T → Prop} (htrans : ∀ x y z, R x y → R y z → R x z) {item : T} {l : List T}
    (hl : l.Pairwise R) (hlt : ∀ x ∈ l, compare item x < 0 → R item x)
    (hge : ∀ x ∈ l, ¬ compare item x < 0 → R x item) :
    (place compare item l).Pairwise R := by
  induction l with
  | nil => simp [place]
  | cons first rest ih =>
    obtain ⟨hfirst, hrest⟩ := List.pairwise_cons.mp hl
    rw [place]
    split
    · rename_i hc
      have hitem := hlt first (by simp) hc
      refine List.pairwise_cons.mpr ⟨fun x hx => ?_, hl⟩
      obtain rfl | hx := List.mem_cons.mp hx
      · exact hitem
      · exact htrans _ _ _ hitem (hfirst x hx)
    · rename_i hc
      refine List.pairwise_cons.mpr ⟨fun x hx => ?_, ih hrest (fun x hx => hlt x (by simp [hx]))
        (fun x hx => hge x (by simp [hx]))⟩
      obtain rfl | hx := List.mem_cons.mp ((perm_place compare item rest).mem_iff.mp hx)
      · exact hge first (by simp) hc
      · exact hfirst x hx

end SortedList

inductive IntStatus
  | off | on
  deriving DecidableEq

inductive MachineStatus
  | idleMode | systemMode | userMode
  deriving DecidableEq

inductive IntType
  | timerInt | diskInt | consoleWriteInt | consoleReadInt | networkSendInt | networkRecvInt
  deriving DecidableEq

structure PendingInterrupt (H : Type) where
  callOnInterrupt : H
  when : ℤ
  type : IntType
  number : ℕ
  deriving DecidableEq

def pendingCompare {H : Type} (x y : PendingInterrupt H) : ℤ :=
  if x.when < y.when then -1 else if x.when > y.when then 1 else 0

/-- Why an operation does not return; `fuel` bounds the rounds of the loop of `CheckIfDue`. -/
inductive Stop
  | assertion | overflow | halt | fuel
  deriving DecidableEq

def int (z : ℤ) : Except Stop ℤ :=
  if z < -2 ^ 31 ∨ 2 ^ 31 ≤ z then .error .overflow else .ok z

/-- The state of `Interrupt` and `Statistics`, with the interrupts in the order in which they were scheduled and
those that have fired, each with the time. -/
structure Interrupt (H W : Type) where
  level : IntStatus
  pending : List (PendingInterrupt H)
  inHandler : Bool
  yieldOnReturn : Bool
  status : MachineStatus
  totalTicks : ℤ
  idleTicks : ℤ
  systemTicks : ℤ
  userTicks : ℤ
  world : W
  scheduled : List (PendingInterrupt H)
  fired : List (PendingInterrupt H × ℤ)

inductive HandlerCall (H : Type)
  | schedule (toCall : H) (fromNow : ℤ) (type : IntType)
  | yieldOnReturn
  | setLevel (now : IntStatus)

namespace Interrupt

variable {H W : Type} [DecidableEq H]

def systemTick : ℤ := 10

def userTick : ℤ := 1

def boot (world : W) : Interrupt H W where
  level := .off
  pending := []
  inHandler := false
  yieldOnReturn := false
  status := .systemMode
  totalTicks := 0
  idleTicks := 0
  systemTicks := 0
  userTicks := 0
  world := world
  scheduled := []
  fired := []

def schedule (toCall : H) (fromNow : ℤ) (type : IntType) (k : Interrupt H W) : Except Stop (Interrupt H W) := do
  let time ← int (k.totalTicks + fromNow)
  let toOccur : PendingInterrupt H := ⟨toCall, time, type, k.scheduled.length⟩
  if fromNow ≤ 0 then .error .assertion
  else if toOccur ∈ k.pending then .error .assertion
  else .ok { k with
    pending := SortedList.place pendingCompare toOccur k.pending
    scheduled := k.scheduled ++ [toOccur] }

/-- A call of a handler. With `inHandler` set, `SetLevel` does not get to `OneTick`. -/
def call (k : Interrupt H W) : HandlerCall H → Except Stop (Interrupt H W)
  | .schedule toCall fromNow type => k.schedule toCall fromNow type
  | .yieldOnReturn => if k.inHandler then .ok { k with yieldOnReturn := true } else .error .assertion
  | .setLevel now => if now = .off then .ok { k with level := now } else .error .assertion

variable (callBack : H → Interrupt H W → List (HandlerCall H) × W)

def fire (next : PendingInterrupt H) (k : Interrupt H W) : Except Stop (Interrupt H W) :=
  let (calls, world) := callBack next.callOnInterrupt k
  calls.foldlM call { k with world := world }

def isDue (k : Interrupt H W) : Bool :=
  match k.pending with
  | [] => false
  | first :: _ => first.when ≤ k.totalTicks

def fireDue : ℕ → Interrupt H W → Except Stop (Interrupt H W)
  | 0, _ => .error .fuel
  | fuel + 1, k =>
    match k.pending with
    | [] => .error .assertion
    | next :: rest => do
      let k ← fire callBack next { k with pending := rest, fired := k.fired ++ [(next, k.totalTicks)] }
      if k.isDue then fireDue fuel k else .ok k

def checkIfDue (fuel : ℕ) (advanceClock : Bool) (k : Interrupt H W) : Except Stop (Bool × Interrupt H W) :=
  if k.level ≠ .off then .error .assertion
  else match k.pending with
    | [] => .ok (false, k)
    | next :: _ =>
      if next.when > k.totalTicks then
        if advanceClock then do
          let idleTicks ← int (k.idleTicks + (next.when - k.totalTicks))
          let k ← fireDue callBack fuel
              { k with idleTicks := idleTicks, totalTicks := next.when, inHandler := true }
          .ok (true, { k with inHandler := false })
        else .ok (false, k)
      else do
        let k ← fireDue callBack fuel { k with inHandler := true }
        .ok (true, { k with inHandler := false })

def advance (k : Interrupt H W) : Except Stop (Interrupt H W) :=
  if k.status = .systemMode then do
    let totalTicks ← int (k.totalTicks + systemTick)
    let systemTicks ← int (k.systemTicks + systemTick)
    .ok { k with totalTicks := totalTicks, systemTicks := systemTicks, level := .off }
  else do
    let totalTicks ← int (k.totalTicks + userTick)
    let userTicks ← int (k.userTicks + userTick)
    .ok { k with totalTicks := totalTicks, userTicks := userTicks, level := .off }

/-- `OneTick` up to the `Yield` for which a handler asked. The operations after it are those of the threads that
then run, and one that sets the status back. -/
def oneTick (fuel : ℕ) (k : Interrupt H W) : Except Stop (Interrupt H W) := do
  let k ← k.advance
  let (_, k) ← checkIfDue callBack fuel false k
  if k.yieldOnReturn then .ok { k with level := .on, yieldOnReturn := false, status := .systemMode }
  else .ok { k with level := .on }

def setLevel (fuel : ℕ) (now : IntStatus) (k : Interrupt H W) : Except Stop (Interrupt H W) :=
  if now = .off ∨ k.inHandler = false then
    if now = .on ∧ k.level = .off then oneTick callBack fuel { k with level := now }
    else .ok { k with level := now }
  else .error .assertion

def idle (fuel : ℕ) (k : Interrupt H W) : Except Stop (Interrupt H W) := do
  let (fired, k) ← checkIfDue callBack fuel true { k with status := .idleMode }
  if fired then .ok { k with status := .systemMode } else .error .halt

end Interrupt

inductive InterruptOp (H W : Type)
  | schedule (toCall : H) (fromNow : ℤ) (type : IntType)
  | oneTick
  | setLevel (now : IntStatus)
  | idle
  | setStatus (st : MachineStatus)
  -- what the machine does apart from its interrupts
  | compute (world : W)

namespace Interrupt

variable {H W : Type} [DecidableEq H] (callBack : H → Interrupt H W → List (HandlerCall H) × W)

def perform (fuel : ℕ) (k : Interrupt H W) : InterruptOp H W → Except Stop (Interrupt H W)
  | .schedule toCall fromNow type => k.schedule toCall fromNow type
  | .oneTick => oneTick callBack fuel k
  | .setLevel now => setLevel callBack fuel now k
  | .idle => idle callBack fuel k
  | .setStatus st => .ok { k with status := st }
  | .compute world => .ok { k with world := world }

def Performs (op : InterruptOp H W) (k k' : Interrupt H W) : Prop :=
  ∃ fuel, perform callBack fuel k op = .ok k'

def Run : Interrupt H W → Interrupt H W → Prop :=
  Reaches (Performs callBack) (fun _ _ => True)

def Before (a b : PendingInterrupt H) : Prop :=
  a.when < b.when ∨ a.when = b.when ∧ a.number < b.number

def line (k : Interrupt H W) : List (PendingInterrupt H) := k.fired.map Prod.fst ++ k.pending

omit [DecidableEq H] in
lemma Before.trans {a b c : PendingInterrupt H} (h : Before a b) (h' : Before b c) : Before a c := by
  unfold Before at *
  omega

structure Timely (k : Interrupt H W) : Prop where
  numbered : k.scheduled.map PendingInterrupt.number = List.range k.scheduled.length
  perm : k.line.Perm k.scheduled
  ordered : k.line.Pairwise Before
  due (f : PendingInterrupt H × ℤ) (hf : f ∈ k.fired) : f.1.when ≤ f.2 ∧ f.2 ≤ k.totalTicks
  clock : k.totalTicks = k.idleTicks + k.systemTicks + k.userTicks

structure Later (k k' : Interrupt H W) : Prop where
  scheduled : k.scheduled <+: k'.scheduled
  fired : k.fired <+: k'.fired
  totalTicks : k.totalTicks ≤ k'.totalTicks

variable {callBack} {k k' k₁ : Interrupt H W} {fuel : ℕ}

omit [DecidableEq H] in
lemma Later.refl (k : Interrupt H W) : Later k k := ⟨List.prefix_rfl, List.prefix_rfl, le_rfl⟩

omit [DecidableEq H] in
lemma Later.trans (h : Later k k₁) (h' : Later k₁ k') : Later k k' :=
  ⟨h.scheduled.trans h'.scheduled, h.fired.trans h'.fired, h.totalTicks.trans h'.totalTicks⟩

lemma int_ok {z y : ℤ} (h : int z = .ok y) : y = z := by
  unfold int at h
  split at h
  · cases h
  · cases h
    rfl

lemma int_cases (z : ℤ) : int z = .ok z ∨ int z = .error .overflow := by
  unfold int
  split
  · exact .inr rfl
  · exact .inl rfl

omit [DecidableEq H] in
lemma Timely.boot (world : W) : Timely (Interrupt.boot world : Interrupt H W) := by
  refine ⟨rfl, .nil, .nil, fun f hf => ?_, rfl⟩
  cases hf

omit [DecidableEq H] in
lemma Timely.congr (h : Timely k) (hs : k'.scheduled = k.scheduled) (hf : k'.fired = k.fired)
    (hp : k'.pending = k.pending) (ht : k.totalTicks ≤ k'.totalTicks)
    (hc : k'.totalTicks = k'.idleTicks + k'.systemTicks + k'.userTicks) : Timely k' := by
  have hl : k'.line = k.line := by rw [line, hf, hp, line]
  refine ⟨by rw [hs]; exact h.numbered, by rw [hl, hs]; exact h.perm,
      by rw [hl]; exact h.ordered, fun f hm => ?_, hc⟩
  rw [hf] at hm
  have hdue := h.due f hm
  exact ⟨hdue.1, hdue.2.trans ht⟩

omit [DecidableEq H] in
lemma Timely.number_lt (h : Timely k) {p : PendingInterrupt H} (hp : p ∈ k.scheduled) :
    p.number < k.scheduled.length := by
  have hm : p.number ∈ k.scheduled.map PendingInterrupt.number := List.mem_map_of_mem hp
  rw [h.numbered] at hm
  exact List.mem_range.mp hm

omit [DecidableEq H] in
lemma Timely.mem_scheduled (h : Timely k) {p : PendingInterrupt H} (hp : p ∈ k.pending) : p ∈ k.scheduled :=
  h.perm.mem_iff.mp (by simp [line, hp])

omit [DecidableEq H] in
lemma Timely.nodup (h : Timely k) : k.scheduled.Nodup := by
  apply List.Nodup.of_map PendingInterrupt.number
  rw [h.numbered]
  exact List.nodup_range

omit [DecidableEq H] in
lemma pendingCompare_neg {x y : PendingInterrupt H} : pendingCompare x y < 0 ↔ x.when < y.when := by
  unfold pendingCompare
  split
  · simpa
  · split <;> simp <;> omega

def inserted (k : Interrupt H W) (p : PendingInterrupt H) : Interrupt H W :=
  { k with pending := SortedList.place pendingCompare p k.pending, scheduled := k.scheduled ++ [p] }

omit [DecidableEq H] in
lemma Timely.inserted (h : Timely k) {p : PendingInterrupt H} (hw : k.totalTicks < p.when)
    (hn : p.number = k.scheduled.length) : Timely (k.inserted p) := by
  obtain ⟨hfired, hpending, hacross⟩ := List.pairwise_append.mp h.ordered
  have hperm := SortedList.perm_place pendingCompare p k.pending
  refine ⟨?_, ?_, List.pairwise_append.mpr ⟨hfired, ?_, fun a ha b hb => ?_⟩, h.due, h.clock⟩
  · simp [Interrupt.inserted, h.numbered, hn, List.range_succ]
  · calc (k.inserted p).line
        _ |>.Perm (k.fired.map Prod.fst ++ p :: k.pending) := hperm.append_left _
        _ |>.Perm (p :: k.line) := List.perm_middle
        _ |>.Perm (p :: k.scheduled) := h.perm.cons p
        _ |>.Perm (k.scheduled ++ [p]) := (List.perm_append_singleton p k.scheduled).symm
  · apply SortedList.pairwise_place (R := Before) (fun _ _ _ => Before.trans) hpending
    · intro x _ hc
      exact .inl (pendingCompare_neg.mp hc)
    · intro x hx hc
      have hlt := h.number_lt (h.mem_scheduled hx)
      rw [pendingCompare_neg] at hc
      unfold Before
      omega
  · obtain rfl | hb := List.mem_cons.mp (hperm.mem_iff.mp hb)
    · -- what has fired was due by now
      obtain ⟨f, hf, rfl⟩ := List.mem_map.mp ha
      have hdue := h.due f hf
      unfold Before
      omega
    · exact hacross a ha b hb

lemma schedule_ok {toCall : H} {fromNow : ℤ} {type : IntType} (h : k.schedule toCall fromNow type = .ok k') :
    ∃ p : PendingInterrupt H, k.totalTicks < p.when ∧ p.number = k.scheduled.length ∧ k' = k.inserted p := by
  obtain ⟨time, ht, h⟩ := bind_eq_ok.mp h
  have htime := int_ok ht
  simp only at h
  split at h
  · cases h
  · split at h
    · cases h
    · cases h
      exact ⟨⟨toCall, time, type, k.scheduled.length⟩, by simp only; omega, rfl, rfl⟩

def dueCount (k : Interrupt H W) : ℕ := k.pending.countP (fun p => p.when ≤ k.totalTicks)

structure Handled (k k' : Interrupt H W) : Prop where
  timely : Timely k → Timely k'
  scheduled : k.scheduled <+: k'.scheduled
  fired : k'.fired = k.fired
  totalTicks : k'.totalTicks = k.totalTicks
  dueCount : k'.dueCount = k.dueCount
  inHandler : k'.inHandler = k.inHandler

omit [DecidableEq H] in
lemma Handled.trans (h : Handled k k₁) (h' : Handled k₁ k') : Handled k k' :=
  ⟨fun ht => h'.timely (h.timely ht), h.scheduled.trans h'.scheduled, h'.fired.trans h.fired,
    h'.totalTicks.trans h.totalTicks, h'.dueCount.trans h.dueCount, h'.inHandler.trans h.inHandler⟩

omit [DecidableEq H] in
lemma Handled.inserted (k : Interrupt H W) {p : PendingInterrupt H} (hw : k.totalTicks < p.when)
    (hn : p.number = k.scheduled.length) : Handled k (k.inserted p) := by
  refine ⟨fun h => h.inserted hw hn, List.prefix_append _ _, rfl, rfl, ?_, rfl⟩
  have hperm := (SortedList.perm_place pendingCompare p k.pending).countP_eq (fun p => p.when ≤ k.totalTicks)
  rw [List.countP_cons_of_neg (by simpa using hw)] at hperm
  exact hperm

omit [DecidableEq H] in
lemma Handled.of_eq (hs : k'.scheduled = k.scheduled) (hf : k'.fired = k.fired) (hp : k'.pending = k.pending)
    (ht : k'.totalTicks = k.totalTicks) (hi : k'.idleTicks = k.idleTicks) (hsys : k'.systemTicks = k.systemTicks)
    (hu : k'.userTicks = k.userTicks) (hh : k'.inHandler = k.inHandler) : Handled k k' := by
  refine ⟨fun h => h.congr hs hf hp ht.ge ?_, hs ▸ List.prefix_rfl, hf, ht, ?_, hh⟩
  · rw [ht, hi, hsys, hu]
    exact h.clock
  · rw [Interrupt.dueCount, hp, ht, Interrupt.dueCount]

lemma Handled.call {c : HandlerCall H} (h : k.call c = .ok k') : Handled k k' := by
  cases c with
  | schedule toCall fromNow type =>
    obtain ⟨p, hw, hn, rfl⟩ := schedule_ok h
    exact Handled.inserted k hw hn
  | yieldOnReturn =>
    rw [Interrupt.call] at h
    split at h
    · cases h
      exact .of_eq rfl rfl rfl rfl rfl rfl rfl rfl
    · cases h
  | setLevel now =>
    rw [Interrupt.call] at h
    split at h
    · cases h
      exact .of_eq rfl rfl rfl rfl rfl rfl rfl rfl
    · cases h

lemma Handled.fire {next : PendingInterrupt H} (h : fire callBack next k = .ok k') : Handled k k' := by
  refine foldlM_invariant (I := Handled k) (fun s c s' hs hc => hs.trans (.call hc)) ?_ h
  exact .of_eq rfl rfl rfl rfl rfl rfl rfl rfl

def popped (k : Interrupt H W) (next : PendingInterrupt H) (rest : List (PendingInterrupt H)) : Interrupt H W :=
  { k with pending := rest, fired := k.fired ++ [(next, k.totalTicks)] }

omit [DecidableEq H] in
lemma Timely.popped (h : Timely k) {next : PendingInterrupt H} {rest : List (PendingInterrupt H)}
    (hp : k.pending = next :: rest) (hdue : next.when ≤ k.totalTicks) : Timely (k.popped next rest) := by
  have hl : (k.popped next rest).line = k.line := by simp [line, Interrupt.popped, hp]
  refine ⟨h.numbered, hl ▸ h.perm, hl ▸ h.ordered, fun f hf => ?_, h.clock⟩
  obtain hf | hf := List.mem_append.mp hf
  · exact h.due f hf
  · obtain rfl := List.mem_singleton.mp hf
    exact ⟨hdue, le_rfl⟩

omit [DecidableEq H] in
lemma exists_of_isDue (h : k.isDue = true) :
    ∃ next rest, k.pending = next :: rest ∧ next.when ≤ k.totalTicks := by
  unfold isDue at h
  split at h
  · cases h
  · rename_i next rest hp
    exact ⟨next, rest, hp, of_decide_eq_true h⟩

omit [DecidableEq H] in
lemma Timely.lt_when (h : Timely k) (hd : k.isDue = false) {p : PendingInterrupt H} (hp : p ∈ k.pending) :
    k.totalTicks < p.when := by
  have hordered := (List.pairwise_append.mp h.ordered).2.1
  unfold isDue at hd
  split at hd
  · simp_all
  · rename_i next rest heq
    rw [heq] at hordered hp
    have hnext := of_decide_eq_false hd
    obtain rfl | hp := List.mem_cons.mp hp
    · omega
    · have := List.rel_of_pairwise_cons hordered hp
      unfold Before at this
      omega

lemma fireDue_ok (h : Timely k) (hd : k.isDue = true) (hk : fireDue callBack fuel k = .ok k') :
    Timely k' ∧ Later k k' ∧ k'.isDue = false := by
  induction fuel generalizing k with
  | zero => cases hk
  | succ fuel ih =>
    obtain ⟨next, rest, hp, hdue⟩ := exists_of_isDue hd
    rw [fireDue, hp] at hk
    obtain ⟨k₁, hfire, hk⟩ := bind_eq_ok.mp hk
    have hpop : Timely (k.popped next rest) := h.popped hp hdue
    have hh : Handled (k.popped next rest) k₁ := .fire hfire
    have hlater : Later k k₁ :=
      ⟨hh.scheduled, hh.fired ▸ List.prefix_append _ _, hh.totalTicks.ge⟩
    split at hk
    · rename_i hd₁
      obtain ⟨ht, hl, hnot⟩ := ih (hh.timely hpop) hd₁ hk
      exact ⟨ht, hlater.trans hl, hnot⟩
    · rename_i hd₁
      cases hk
      exact ⟨hh.timely hpop, hlater, by simpa using hd₁⟩

def Stops (callBack : H → Interrupt H W → List (HandlerCall H) × W) (E : Stop → Prop) : Prop :=
  ∀ (h : H) (k₀ k : Interrupt H W), ∀ c ∈ (callBack h k₀).1, Timely k → k.inHandler = true →
    (∃ k', k.call c = .ok k') ∨ ∃ e, k.call c = .error e ∧ E e

lemma fire_returns {E : Stop → Prop} (hcall : Stops callBack E) (next : PendingInterrupt H) (h : Timely k)
    (hin : k.inHandler = true) :
    (∃ k', fire callBack next k = .ok k' ∧ Handled k k') ∨ ∃ e, fire callBack next k = .error e ∧ E e := by
  apply foldlM_returns
  · intro s c hc hs
    obtain ⟨s', hs'⟩ | he := hcall next.callOnInterrupt k s c hc (hs.timely h) (hs.inHandler.trans hin)
    · exact .inl ⟨s', hs', hs.trans (.call hs')⟩
    · exact .inr he
  · exact .of_eq rfl rfl rfl rfl rfl rfl rfl rfl

/-- As many rounds as there are interrupts due are enough: what the handlers schedule is not due. -/
lemma fireDue_returns {E : Stop → Prop} (hcall : Stops callBack E) (h : Timely k) (hd : k.isDue = true)
    (hin : k.inHandler = true) (hfuel : k.dueCount ≤ fuel) :
    (∃ k', fireDue callBack fuel k = .ok k') ∨ ∃ e, fireDue callBack fuel k = .error e ∧ E e := by
  induction fuel generalizing k with
  | zero =>
    obtain ⟨next, rest, hp, hdue⟩ := exists_of_isDue hd
    simp [dueCount, hp, hdue] at hfuel
  | succ fuel ih =>
    obtain ⟨next, rest, hp, hdue⟩ := exists_of_isDue hd
    have hcount : (k.popped next rest).dueCount ≤ fuel := by
      rw [dueCount, hp, List.countP_cons_of_pos (by simpa using hdue)] at hfuel
      exact Nat.le_of_succ_le_succ hfuel
    rw [fireDue, hp]
    obtain ⟨k₁, hk₁, hh⟩ | ⟨e, he, hE⟩ := fire_returns hcall next (h.popped hp hdue) hin
    · have hbind : fire callBack next { k with pending := rest, fired := k.fired ++ [(next, k.totalTicks)] } =
          .ok k₁ :=
        hk₁
      simp only [hbind, bind, Except.bind]
      split
      · rename_i hd₁
        exact ih (hh.timely (h.popped hp hdue)) hd₁ (hh.inHandler.trans hin) (hh.dueCount ▸ hcount)
      · exact .inl ⟨k₁, rfl⟩
    · have hbind : fire callBack next { k with pending := rest, fired := k.fired ++ [(next, k.totalTicks)] } =
          .error e :=
        he
      simp only [hbind, bind, Except.bind]
      exact .inr ⟨e, rfl, hE⟩

omit [DecidableEq H] in
lemma isDue_of_le {next : PendingInterrupt H} {rest : List (PendingInterrupt H)} (hp : k.pending = next :: rest)
    (hw : next.when ≤ k.totalTicks) : k.isDue = true := by
  simp [isDue, hp, hw]

def awaited (k : Interrupt H W) (next : PendingInterrupt H) : Interrupt H W :=
  { k with idleTicks := k.idleTicks + (next.when - k.totalTicks), totalTicks := next.when, inHandler := true }

omit [DecidableEq H] in
lemma Timely.awaited (h : Timely k) {next : PendingInterrupt H} (hw : k.totalTicks < next.when) :
    Timely (k.awaited next) := by
  refine h.congr rfl rfl rfl hw.le ?_
  have := h.clock
  simp only [Interrupt.awaited]
  omega

omit [DecidableEq H] in
lemma Timely.inHandler (h : Timely k) (b : Bool) : Timely { k with inHandler := b } :=
  h.congr rfl rfl rfl le_rfl h.clock

lemma checkIfDue_ok {advanceClock b : Bool} (h : Timely k)
    (hk : checkIfDue callBack fuel advanceClock k = .ok (b, k')) : Timely k' ∧ Later k k' ∧ k'.isDue = false := by
  unfold checkIfDue at hk
  split at hk
  · cases hk
  · split at hk
    · rename_i hp
      cases hk
      exact ⟨h, .refl k, by simp [isDue, hp]⟩
    · rename_i next rest hp
      split at hk
      · rename_i hw
        split at hk
        · obtain ⟨idleTicks, hi, hk⟩ := bind_eq_ok.mp hk
          obtain ⟨k₁, hfire, hk⟩ := bind_eq_ok.mp hk
          cases hk
          cases int_ok hi
          obtain ⟨ht, hl, hd⟩ := fireDue_ok (h.awaited hw) (isDue_of_le hp le_rfl) hfire
          exact ⟨ht.inHandler false, ⟨hl.scheduled, hl.fired, hw.le.trans hl.totalTicks⟩, hd⟩
        · cases hk
          exact ⟨h, .refl k, by simpa [isDue, hp] using hw⟩
      · rename_i hw
        obtain ⟨k₁, hfire, hk⟩ := bind_eq_ok.mp hk
        cases hk
        obtain ⟨ht, hl, hd⟩ := fireDue_ok (h.inHandler true) (isDue_of_le hp (not_lt.mp hw)) hfire
        exact ⟨ht.inHandler false, ⟨hl.scheduled, hl.fired, hl.totalTicks⟩, hd⟩

lemma checkIfDue_returns {E : Stop → Prop} (hcall : Stops callBack E) (hE : E .overflow) (advanceClock : Bool)
    (h : Timely k) (hlevel : k.level = .off) (hfuel : k.pending.length ≤ fuel) :
    (∃ r, checkIfDue callBack fuel advanceClock k = .ok r) ∨
      ∃ e, checkIfDue callBack fuel advanceClock k = .error e ∧ E e := by
  have hcount (k₁ : Interrupt H W) (hp : k₁.pending = k.pending) : k₁.dueCount ≤ fuel :=
    (List.countP_le_length.trans (congrArg List.length hp).le).trans hfuel
  have hlevel' : ¬ k.level ≠ .off := not_not.mpr hlevel
  unfold checkIfDue
  rw [if_neg hlevel']
  split
  · exact .inl ⟨_, rfl⟩
  · rename_i next rest hp
    split
    · rename_i hw
      split
      · obtain hint | hint := int_cases (k.idleTicks + (next.when - k.totalTicks))
        · obtain ⟨k₁, hk₁⟩ | ⟨e, he, hstop⟩ := fireDue_returns hcall (h.awaited hw) (isDue_of_le hp le_rfl) rfl
            (hcount _ rfl)
          · simp only [awaited] at hk₁
            simp [hint, bind, Except.bind, hk₁]
          · simp only [awaited] at he
            simp [hint, bind, Except.bind, he, hstop]
        · simp [hint, bind, Except.bind, hE]
      · exact .inl ⟨_, rfl⟩
    · rename_i hw
      obtain ⟨k₁, hk₁⟩ | ⟨e, he, hstop⟩ :=
        fireDue_returns hcall (h.inHandler true) (isDue_of_le hp (not_lt.mp hw)) rfl
        (hcount _ rfl)
      · simp [bind, Except.bind, hk₁]
      · simp [bind, Except.bind, he, hstop]

omit [DecidableEq H] in
lemma advance_ok (hk : k.advance = .ok k') : (Timely k → Timely k') ∧ Later k k' ∧ k'.level = .off := by
  unfold advance at hk
  split at hk
  all_goals
    obtain ⟨totalTicks, ht, hk⟩ := bind_eq_ok.mp hk
    obtain ⟨ticks, hu, hk⟩ := bind_eq_ok.mp hk
    cases hk
    cases int_ok ht
    cases int_ok hu
  · have hle : k.totalTicks ≤ k.totalTicks + systemTick := by simp [systemTick]
    refine ⟨fun h => h.congr rfl rfl rfl hle ?_, ⟨List.prefix_rfl, List.prefix_rfl, hle⟩, rfl⟩
    simp only [h.clock]
    omega
  · have hle : k.totalTicks ≤ k.totalTicks + userTick := by simp [userTick]
    refine ⟨fun h => h.congr rfl rfl rfl hle ?_, ⟨List.prefix_rfl, List.prefix_rfl, hle⟩, rfl⟩
    simp only [h.clock]
    omega

lemma oneTick_ok (h : Timely k) (hk : oneTick callBack fuel k = .ok k') : Timely k' ∧ Later k k' := by
  obtain ⟨k₁, hadvance, hk⟩ := bind_eq_ok.mp hk
  obtain ⟨⟨b, k₂⟩, hcheck, hk⟩ := bind_eq_ok.mp hk
  obtain ⟨ht₁, hl₁, -⟩ := advance_ok hadvance
  obtain ⟨ht₂, hl₂, -⟩ := checkIfDue_ok (ht₁ h) hcheck
  have hl := hl₁.trans hl₂
  simp only at hk
  split at hk
  · cases hk
    exact ⟨ht₂.congr rfl rfl rfl le_rfl ht₂.clock, hl.scheduled, hl.fired, hl.totalTicks⟩
  · cases hk
    exact ⟨ht₂.congr rfl rfl rfl le_rfl ht₂.clock, hl.scheduled, hl.fired, hl.totalTicks⟩

lemma setLevel_ok {now : IntStatus} (h : Timely k) (hk : setLevel callBack fuel now k = .ok k') :
    Timely k' ∧ Later k k' := by
  unfold setLevel at hk
  have hlevel : Timely { k with level := now } := h.congr rfl rfl rfl le_rfl h.clock
  split at hk
  · split at hk
    · obtain ⟨ht, hl⟩ := oneTick_ok hlevel hk
      exact ⟨ht, hl.scheduled, hl.fired, hl.totalTicks⟩
    · cases hk
      exact ⟨hlevel, List.prefix_rfl, List.prefix_rfl, le_rfl⟩
  · cases hk

lemma idle_ok (h : Timely k) (hk : idle callBack fuel k = .ok k') : Timely k' ∧ Later k k' := by
  obtain ⟨⟨b, k₁⟩, hcheck, hk⟩ := bind_eq_ok.mp hk
  have hstatus : Timely { k with status := .idleMode } := h.congr rfl rfl rfl le_rfl h.clock
  obtain ⟨ht, hl, -⟩ := checkIfDue_ok hstatus hcheck
  simp only at hk
  split at hk
  · cases hk
    exact ⟨ht.congr rfl rfl rfl le_rfl ht.clock, hl.scheduled, hl.fired, hl.totalTicks⟩
  · cases hk

lemma perform_ok {op : InterruptOp H W} (h : Timely k) (hk : Performs callBack op k k') :
    Timely k' ∧ Later k k' := by
  obtain ⟨fuel, hk⟩ := hk
  cases op with
  | schedule toCall fromNow type =>
    obtain ⟨p, hw, hn, rfl⟩ := schedule_ok hk
    exact ⟨h.inserted hw hn, List.prefix_append _ _, List.prefix_rfl, le_rfl⟩
  | oneTick => exact oneTick_ok h hk
  | setLevel now => exact setLevel_ok h hk
  | idle => exact idle_ok h hk
  | setStatus st =>
    cases hk
    exact ⟨h.congr rfl rfl rfl le_rfl h.clock, List.prefix_rfl, List.prefix_rfl, le_rfl⟩
  | compute world =>
    cases hk
    exact ⟨h.congr rfl rfl rfl le_rfl h.clock, List.prefix_rfl, List.prefix_rfl, le_rfl⟩

lemma Timely.run (h : Timely k) (hr : Run callBack k k') : Timely k' ∧ Later k k' := by
  refine Reaches.invariant (I := fun k' => Timely k' ∧ Later k k')
      (fun op k₁ k₂ ⟨ht, hl⟩ _ hk => ?_) ⟨h, .refl k⟩ hr
  obtain ⟨ht₂, hl₂⟩ := perform_ok ht hk
  exact ⟨ht₂, hl.trans hl₂⟩

inductive Checks (k : Interrupt H W) : Bool → Interrupt H W → Prop
  | oneTick {k₁ : Interrupt H W} : k.advance = .ok k₁ → Checks k false k₁
  | setLevel {k₁ : Interrupt H W} : k.level = .off → advance { k with level := .on } = .ok k₁ → Checks k false k₁
  | idle : k.level = .off → Checks k true { k with status := .idleMode }

omit [DecidableEq H] in
lemma Checks.timely {advanceClock : Bool} (hc : Checks k advanceClock k₁) (h : Timely k) :
    Timely k₁ ∧ k₁.level = .off := by
  cases hc with
  | oneTick ha =>
    obtain ⟨ht, -, hlevel⟩ := advance_ok ha
    exact ⟨ht h, hlevel⟩
  | setLevel _ ha =>
    obtain ⟨ht, -, hlevel⟩ := advance_ok ha
    exact ⟨ht (h.congr rfl rfl rfl le_rfl h.clock), hlevel⟩
  | idle hlevel => exact ⟨h.congr rfl rfl rfl le_rfl h.clock, hlevel⟩

def proper : HandlerCall H → Prop
  | .schedule _ fromNow _ => 0 < fromNow
  | .yieldOnReturn => True
  | .setLevel now => now = .off

lemma Stops.of_proper (hc : ∀ h k, ∀ c ∈ (callBack h k).1, proper c) : Stops callBack (· = .overflow) := by
  intro h k₀ k c hmem ht hin
  have hproper := hc h k₀ c hmem
  cases c with
  | schedule toCall fromNow type =>
    have hpos : ¬ fromNow ≤ 0 := not_le.mpr hproper
    have hnew (time : ℤ) : (⟨toCall, time, type, k.scheduled.length⟩ : PendingInterrupt H) ∉ k.pending :=
      fun hm => absurd (ht.number_lt (ht.mem_scheduled hm)) (lt_irrefl _)
    rw [Interrupt.call, Interrupt.schedule]
    obtain hint | hint := int_cases (k.totalTicks + fromNow)
    · simp [hint, bind, Except.bind, hpos, hnew]
    · simp [hint, bind, Except.bind]
  | yieldOnReturn => simp [Interrupt.call, hin]
  | setLevel now =>
    cases hproper
    simp [Interrupt.call]

lemma Stops.of_any : Stops callBack (· ≠ .fuel) := by
  intro h k₀ k c _ _ _
  cases c with
  | schedule toCall fromNow type =>
    rw [Interrupt.call, Interrupt.schedule]
    obtain hint | hint := int_cases (k.totalTicks + fromNow)
    · simp only [hint, bind, Except.bind]
      split
      · exact .inr ⟨_, rfl, by decide⟩
      · split
        · exact .inr ⟨_, rfl, by decide⟩
        · exact .inl ⟨_, rfl⟩
    · simp [hint, bind, Except.bind]
  | yieldOnReturn => by_cases hin : k.inHandler <;> simp [Interrupt.call, hin]
  | setLevel now => by_cases hnow : now = .off <;> simp [Interrupt.call, hnow]

variable (callBack)

/-- In every state of every run each interrupt scheduled so far is pending or has fired, once; what is pending
stays so until it fires. Nothing fires before its time, and interrupts fire in the order of their times, those of
one time in the order in which they were scheduled. `CheckIfDue` always ends, and when it returns nothing pending
is due. The clock never goes back, and its ticks are idle, system and user ticks. -/
theorem interrupts_delivered (world : W) {k k' : Interrupt H W} (h : Run callBack (boot world) k)
    (hr : Run callBack k k') :
    (k.scheduled.Nodup ∧ (k.fired.map Prod.fst ++ k.pending).Perm k.scheduled) ∧
      (∀ p ∈ k.pending, p ∈ k'.pending ∨ p ∈ k'.fired.map Prod.fst) ∧ k.fired <+: k'.fired ∧
      (∀ f ∈ k.fired, f.1.when ≤ f.2) ∧
      (k.scheduled.map PendingInterrupt.number = List.range k.scheduled.length ∧
        k.fired.Pairwise fun f g => f.1.when < g.1.when ∨ f.1.when = g.1.when ∧ f.1.number < g.1.number) ∧
      (∀ advanceClock k₁, Checks k advanceClock k₁ →
        (∀ fuel b k₂, checkIfDue callBack fuel advanceClock k₁ = .ok (b, k₂) →
          ∀ p ∈ k₂.pending, k₂.totalTicks < p.when) ∧
        (∀ fuel ≥ k₁.pending.length, checkIfDue callBack fuel advanceClock k₁ ≠ .error .fuel ∧
          ((∀ h k, ∀ c ∈ (callBack h k).1, proper c) →
            (∃ r, checkIfDue callBack fuel advanceClock k₁ = .ok r) ∨
              checkIfDue callBack fuel advanceClock k₁ = .error .overflow))) ∧
      k.totalTicks ≤ k'.totalTicks ∧ k.totalTicks = k.idleTicks + k.systemTicks + k.userTicks := by
  obtain ⟨ht, -⟩ := (Timely.boot world).run h
  obtain ⟨ht', hl⟩ := ht.run hr
  refine ⟨⟨ht.nodup, ht.perm⟩, fun p hp => ?_, hl.fired, fun f hf => (ht.due f hf).1, ⟨ht.numbered, ?_⟩,
    fun advanceClock k₁ hc => ?_, hl.totalTicks, ht.clock⟩
  · have hmem : p ∈ k'.line := ht'.perm.mem_iff.mpr (hl.scheduled.subset (ht.mem_scheduled hp))
    exact (List.mem_append.mp hmem).symm
  · exact List.pairwise_map.mp (List.pairwise_append.mp ht.ordered).1
  · obtain ⟨ht₁, hlevel⟩ := hc.timely ht
    refine ⟨fun fuel b k₂ hk => ?_, fun fuel hfuel => ⟨fun hf => ?_, fun hproper => ?_⟩⟩
    · obtain ⟨ht₂, -, hd⟩ := checkIfDue_ok ht₁ hk
      exact fun p hp => ht₂.lt_when hd hp
    · obtain ⟨r, hok⟩ | ⟨e, he, hne⟩ :=
        checkIfDue_returns Stops.of_any (by decide) advanceClock ht₁ hlevel hfuel
      · rw [hok] at hf
        cases hf
      · rw [he] at hf
        exact hne (by simpa using hf)
    · obtain hok | ⟨e, he, rfl⟩ :=
        checkIfDue_returns (Stops.of_proper hproper) rfl advanceClock ht₁ hlevel hfuel
      · exact .inl hok
      · exact .inr he

def follow (fuel : ℕ) (ops : List (InterruptOp H W)) (k : Interrupt H W) : Except Stop (Interrupt H W) :=
  ops.foldlM (perform callBack fuel) k

variable {callBack}

lemma follow_run {ops : List (InterruptOp H W)} (h : follow callBack fuel ops k = .ok k') : Run callBack k k' := by
  refine foldlM_invariant (I := Run callBack k) (fun k₁ op k₂ hr hk => ?_) .refl h
  exact hr.step op trivial ⟨fuel, hk⟩

def timerAndDisk (timer : Bool) (_ : Interrupt Bool Unit) : List (HandlerCall Bool) × Unit :=
  (if timer then [.yieldOnReturn, .schedule true 100 .timerInt] else [.setLevel .off], ())

theorem interrupts_delivered_timer :
    ∃ k k', follow timerAndDisk 2
    [.schedule false 15 .diskInt, .schedule true 15 .timerInt, .setLevel .on, .oneTick]
        (boot ()) = .ok k ∧ k.fired.length = 2 ∧ k.pending.length = 1 ∧
      follow timerAndDisk 2 [.setLevel .off, .idle] k = .ok k' ∧ k'.fired.length = 3 ∧
      (∀ p ∈ k.pending, p ∈ k'.pending ∨ p ∈ k'.fired.map Prod.fst) ∧ k.fired <+: k'.fired := by
  obtain ⟨k, hk, hf, hp, k', hk', hf'⟩ : ∃ k, follow timerAndDisk 2 [.schedule false 15 .diskInt,
      .schedule true 15 .timerInt, .setLevel .on, .oneTick] (boot ()) = .ok k ∧
      k.fired.length = 2 ∧ k.pending.length = 1 ∧
      ∃ k', follow timerAndDisk 2 [.setLevel .off, .idle] k = .ok k' ∧ k'.fired.length = 3 :=
    ⟨_, rfl, rfl, rfl, _, rfl, rfl⟩
  obtain ⟨-, hstay, hfired, -⟩ := interrupts_delivered timerAndDisk () (follow_run hk) (follow_run hk')
  exact ⟨k, k', hk, hf, hp, hk', hf', hstay, hfired⟩

end Interrupt

end NachosFileSys
