import NachosFileSys.Interrupt

/-! The timer, the alarm and the disk on the simulated interrupts: `Timer`, `Alarm`, and what `Disk`
does about time. Any number of other devices may be attached, which schedule interrupts of their
own. -/

namespace NachosFileSys

open Lib.Results Lib.Runs

namespace Interrupt

variable {H W : Type} [DecidableEq H] {callBack : H → Interrupt H W → List (HandlerCall H) × W}
  {k k' k₁ : Interrupt H W} {fuel : ℕ} {next : PendingInterrupt H}

structure Passes (k k' : Interrupt H W) : Prop where
  pending : k'.pending = k.pending
  world : k'.world = k.world
  scheduled : k'.scheduled = k.scheduled
  fired : k'.fired = k.fired
  totalTicks : k.totalTicks ≤ k'.totalTicks

inductive Delivers (callBack : H → Interrupt H W → List (HandlerCall H) × W) (next : PendingInterrupt H)
    (k : Interrupt H W) : Interrupt H W → Prop
  | mk {rest : List (PendingInterrupt H)} {k' : Interrupt H W} (hp : k.pending = next :: rest)
      (hdue : next.when ≤ k.totalTicks) (hf : fire callBack next (k.popped next rest) = .ok k') :
      Delivers callBack next k k'

lemma fireDue_invariant {I : Interrupt H W → Prop} (hI : ∀ next k k', I k → Delivers callBack next k k' → I k')
    (hk : I k) (hdue : k.isDue = true) (h : fireDue callBack fuel k = .ok k') : I k' := by
  induction fuel generalizing k with
  | zero => cases h
  | succ fuel ih =>
    obtain ⟨next, rest, hp, hw⟩ := exists_of_isDue hdue
    rw [fireDue, hp] at h
    obtain ⟨k₁, hfire, h⟩ := bind_eq_ok.mp h
    have hk₁ := hI next k k₁ hk (.mk hp hw hfire)
    split at h
    · exact ih hk₁ ‹_› h
    · cases h
      exact hk₁

omit [DecidableEq H] in
lemma isDue_cons {rest : List (PendingInterrupt H)} (hp : k.pending = next :: rest)
    (hw : next.when ≤ k.totalTicks) :
    k.isDue = true := by
  rw [isDue, hp]
  exact decide_eq_true hw

lemma checkIfDue_invariant {I : Interrupt H W → Prop} (hI : ∀ next k k', I k → Delivers callBack next k k' → I k')
    (hflag : ∀ k b, I k → I { k with inHandler := b }) {advanceClock b : Bool}
    (htime : advanceClock = true → ∀ k idle now, I k → k.totalTicks ≤ now →
    I { k with idleTicks := idle, totalTicks := now })
    (hk : I k) (h : checkIfDue callBack fuel advanceClock k = .ok (b, k')) : I k' := by
  unfold checkIfDue at h
  split at h
  · cases h
  · split at h
    · cases h
      exact hk
    · rename_i next rest hp
      split at h
      · rename_i hw
        split at h
        · rename_i hadvance
          obtain ⟨idleTicks, -, h⟩ := bind_eq_ok.mp h
          obtain ⟨k₁, hfire, h⟩ := bind_eq_ok.mp h
          cases h
          have hk₀ := hflag _ true (htime hadvance k idleTicks next.when hk hw.le)
          exact hflag k₁ false (fireDue_invariant hI hk₀ (isDue_cons hp le_rfl) hfire)
        · cases h
          exact hk
      · rename_i hw
        obtain ⟨k₁, hfire, h⟩ := bind_eq_ok.mp h
        cases h
        have hk₀ := hflag k true hk
        exact hflag k₁ false (fireDue_invariant hI hk₀ (isDue_cons hp (not_lt.mp hw)) hfire)

omit [DecidableEq H] in
lemma advance_passes (h : k.advance = .ok k') : Passes k k' := by
  unfold advance at h
  split at h
  all_goals
    obtain ⟨totalTicks, ht, h⟩ := bind_eq_ok.mp h
    obtain ⟨ticks, -, h⟩ := bind_eq_ok.mp h
    cases h
    cases int_ok ht
    refine ⟨rfl, rfl, rfl, rfl, ?_⟩
    simp [systemTick, userTick]

lemma oneTick_invariant {I : Interrupt H W → Prop} (hI : ∀ next k k', I k → Delivers callBack next k k' → I k')
    (hpass : ∀ k k', I k → Passes k k' → I k') (hk : I k) (h : oneTick callBack fuel k = .ok k') : I k' := by
  obtain ⟨k₁, hadvance, h⟩ := bind_eq_ok.mp h
  obtain ⟨⟨b, k₂⟩, hcheck, h⟩ := bind_eq_ok.mp h
  have hk₂ := checkIfDue_invariant hI (fun k b hk => hpass k _ hk ⟨rfl, rfl, rfl, rfl, le_rfl⟩)
    (fun _ k idle now hk hle => hpass k _ hk ⟨rfl, rfl, rfl, rfl, hle⟩)
    (hpass k k₁ hk (advance_passes hadvance)) hcheck
  simp only at h
  split at h
  all_goals
    cases h
    exact hpass k₂ _ hk₂ ⟨rfl, rfl, rfl, rfl, le_rfl⟩

lemma setLevel_invariant {I : Interrupt H W → Prop} (hI : ∀ next k k', I k → Delivers callBack next k k' → I k')
    (hpass : ∀ k k', I k → Passes k k' → I k') {now : IntStatus} (hk : I k)
    (h : setLevel callBack fuel now k = .ok k') : I k' := by
  have hk₀ := hpass k { k with level := now } hk ⟨rfl, rfl, rfl, rfl, le_rfl⟩
  unfold setLevel at h
  split at h
  · split at h
    · exact oneTick_invariant hI hpass hk₀ h
    · cases h
      exact hk₀
  · cases h

lemma idle_invariant {I : Interrupt H W → Prop} (hI : ∀ next k k', I k → Delivers callBack next k k' → I k')
    (hpass : ∀ k k', I k → Passes k k' → I k') (hk : I k) (h : idle callBack fuel k = .ok k') : I k' := by
  obtain ⟨⟨b, k₁⟩, hcheck, h⟩ := bind_eq_ok.mp h
  have hk₀ := hpass k { k with status := .idleMode } hk ⟨rfl, rfl, rfl, rfl, le_rfl⟩
  have hk₁ := checkIfDue_invariant hI (fun k b hk => hpass k _ hk ⟨rfl, rfl, rfl, rfl, le_rfl⟩)
    (fun _ k idle now hk hle => hpass k _ hk ⟨rfl, rfl, rfl, rfl, hle⟩) hk₀ hcheck
  simp only at h
  split at h
  · cases h
    exact hpass k₁ _ hk₁ ⟨rfl, rfl, rfl, rfl, le_rfl⟩
  · cases h

lemma schedule_eq {toCall : H} {fromNow : ℤ} {type : IntType} (h : k.schedule toCall fromNow type = .ok k') :
    0 < fromNow ∧ k' = k.inserted ⟨toCall, k.totalTicks + fromNow, type, k.scheduled.length⟩ := by
  obtain ⟨time, ht, h⟩ := bind_eq_ok.mp h
  cases int_ok ht
  simp only at h
  split at h
  · cases h
  · split at h
    · cases h
    · cases h
      exact ⟨by omega, rfl⟩

omit [DecidableEq H] in
lemma mem_inserted {p q : PendingInterrupt H} : q ∈ (k.inserted p).pending ↔ q = p ∨ q ∈ k.pending := by
  rw [inserted, (SortedList.perm_place pendingCompare p k.pending).mem_iff, List.mem_cons]

omit [DecidableEq H] in
lemma countP_inserted (p : PendingInterrupt H) (t : PendingInterrupt H → Bool) :
    (k.inserted p).pending.countP t = k.pending.countP t + if t p then 1 else 0 := by
  rw [inserted, (SortedList.perm_place pendingCompare p k.pending).countP_eq, List.countP_cons]

end Interrupt

def SectorsPerTrack : ℤ := 32

def RotationTime : ℤ := 500

def SeekTime : ℤ := 500

def TimerTicks : ℤ := 100

structure DiskUnit where
  active : Bool
  lastSector : ℤ
  bufferInit : ℤ

namespace DiskUnit

def start : DiskUnit := ⟨false, 0, 0⟩

def timeToSeek (d : DiskUnit) (totalTicks newSector : ℤ) : ℤ × ℤ :=
  let newTrack := newSector.tdiv SectorsPerTrack
  let oldTrack := d.lastSector.tdiv SectorsPerTrack
  let seek := |newTrack - oldTrack| * SeekTime
  let beyond := (totalTicks + seek).tmod RotationTime
  (seek, if beyond > 0 then RotationTime - beyond else 0)

def moduloDiff (target current : ℤ) : ℤ :=
  let toOffset := target.tmod SectorsPerTrack
  let fromOffset := current.tmod SectorsPerTrack
  (toOffset - fromOffset + SectorsPerTrack).tmod SectorsPerTrack

def computeLatency (d : DiskUnit) (totalTicks newSector : ℤ) (writing : Bool) : ℤ :=
  let (seek, rotation) := d.timeToSeek totalTicks newSector
  let timeAfter := totalTicks + seek + rotation
  if writing = false ∧ seek = 0 ∧
      (timeAfter - d.bufferInit).tdiv RotationTime > moduloDiff newSector (d.bufferInit.tdiv RotationTime) then
    RotationTime
  else seek + (rotation + moduloDiff newSector (timeAfter.tdiv RotationTime) * RotationTime) + RotationTime

def updateLast (d : DiskUnit) (totalTicks newSector : ℤ) : DiskUnit :=
  let (seek, rotate) := d.timeToSeek totalTicks newSector
  { d with
    bufferInit := if seek ≠ 0 then totalTicks + seek + rotate else d.bufferInit
    lastSector := newSector }

end DiskUnit

inductive CallBackObj
  | timer
  | disk
  | other (n : ℕ)
  deriving DecidableEq

/-- The devices: the disk, the field `disable` of the timer and `timeCount` of the alarm, and the numbers that
`RandomNumber` is going to return. -/
structure Devices where
  disk : DiskUnit
  disable : Bool
  timeCount : ℤ
  random : ℕ → ℕ

abbrev Hardware := Interrupt CallBackObj Devices

structure Setting where
  randomize : Bool
  timeSlice : ℤ
  others : ℕ → Hardware → List (ℕ × ℤ × IntType)

namespace Setting

variable (c : Setting)

def setInterrupt (w : Devices) : List (HandlerCall CallBackObj) × Devices :=
  if w.disable then ([], w)
  else if c.randomize then
    ([.schedule .timer (1 + (w.random 0 : ℤ) % (TimerTicks * 2)) .timerInt],
        { w with random := fun i => w.random (i + 1) })
  else ([.schedule .timer TimerTicks .timerInt], w)

/-- `Alarm::CallBack`. With a time slice of `0` the division traps as soon as the machine is not
idle; here `tmod` goes on, so that the runs of the code are among those of the model. -/
def alarmCallBack (k : Hardware) : List (HandlerCall CallBackObj) × Devices :=
  let timeCount := k.world.timeCount + 1
  (if k.status ≠ .idleMode ∧ (timeCount * TimerTicks).tmod c.timeSlice = 0 then [.yieldOnReturn] else [],
    { k.world with timeCount := timeCount })

/-- The handlers: `Timer::CallBack`, which calls the alarm first, `Disk::CallBack`, and the others. -/
def callBack : CallBackObj → Hardware → List (HandlerCall CallBackObj) × Devices
  | .timer, k =>
    let (calls, w) := c.alarmCallBack k
    let (calls', w) := c.setInterrupt w
    (calls ++ calls', w)
  | .disk, k => ([], { k.world with disk := { k.world.disk with active := false } })
  | .other n, k => ((c.others n k).map fun x => .schedule (.other x.1) x.2.1 x.2.2, k.world)

def boot (random : ℕ → ℕ) : Except Stop (Hardware) :=
  let (calls, w) := c.setInterrupt ⟨.start, false, 0, random⟩
  calls.foldlM Interrupt.call (Interrupt.boot w)

def request (writing : Bool) (sectorNumber : ℤ) (k : Hardware) :
    Except Stop (Hardware) :=
  let d := k.world.disk
  let ticks := d.computeLatency k.totalTicks sectorNumber writing
  if d.active then .error .assertion
  else if ¬(0 ≤ sectorNumber ∧ sectorNumber < SectorsPerTrack * 32) then .error .assertion
  else
    let d := DiskUnit.updateLast { d with active := true } k.totalTicks sectorNumber
    Interrupt.schedule .disk ticks .diskInt { k with world := { k.world with disk := d } }

end Setting

inductive DeviceOp
  | request (writing : Bool) (sectorNumber : ℤ)
  | schedule (n : ℕ) (fromNow : ℤ) (type : IntType)
  | disableTimer
  | oneTick
  | setLevel (now : IntStatus)
  | idle
  | setStatus (st : MachineStatus)

namespace Setting

variable (c : Setting)

def perform (fuel : ℕ) (k : Hardware) : DeviceOp → Except Stop (Hardware)
  | .request writing sectorNumber => request writing sectorNumber k
  | .schedule n fromNow type => k.schedule (.other n) fromNow type
  | .disableTimer => .ok { k with world := { k.world with disable := true } }
  | .oneTick => Interrupt.oneTick c.callBack fuel k
  | .setLevel now => Interrupt.setLevel c.callBack fuel now k
  | .idle => Interrupt.idle c.callBack fuel k
  | .setStatus st => .ok { k with status := st }

def Performs (op : DeviceOp) (k k' : Hardware) : Prop := ∃ fuel, c.perform fuel k op = .ok k'

def follow (fuel : ℕ) (ops : List DeviceOp) (k : Hardware) : Except Stop (Hardware) :=
  ops.foldlM (c.perform fuel) k

def Reachable (random : ℕ → ℕ) (k : Hardware) : Prop :=
  ∃ k₀, c.boot random = .ok k₀ ∧ Reaches c.Performs (fun _ _ => True) k₀ k

end Setting

namespace Setting

variable {c : Setting} {k k' : Hardware} {op : DeviceOp} {next : PendingInterrupt CallBackObj}

/-- A property of the machine is kept by every operation if it is kept by requests, by the scheduling of other
devices, by the end of the timer, by the passing of time and by every delivery. -/
structure Keeps (c : Setting) (I : Hardware → Prop) : Prop where
  request (k k' : Hardware) (writing : Bool) (s : ℤ) (hk : I k) (h : Setting.request writing s k = .ok k') :
    I k'
  schedule (k : Hardware) (p : PendingInterrupt CallBackObj)
      (n : ℕ) (hk : I k) (hp : p.callOnInterrupt = .other n) :
    I (k.inserted p)
  disable (k : Hardware) (hk : I k) : I { k with world := { k.world with disable := true } }
  passes (k k' : Hardware) (hk : I k) (h : Interrupt.Passes k k') : I k'
  delivers (next : PendingInterrupt CallBackObj) (k k' : Hardware) (hk : I k)
    (h : Interrupt.Delivers c.callBack next k k') : I k'

lemma Keeps.performs {I : Hardware → Prop} (hI : c.Keeps I) (hk : I k) (h : c.Performs op k k') :
    I k' := by
  obtain ⟨fuel, h⟩ := h
  cases op with
  | request writing s => exact hI.request k k' writing s hk h
  | schedule n fromNow type =>
    obtain ⟨-, rfl⟩ := Interrupt.schedule_eq h
    exact hI.schedule k _ n hk rfl
  | disableTimer =>
    cases h
    exact hI.disable k hk
  | oneTick => exact Interrupt.oneTick_invariant hI.delivers hI.passes hk h
  | setLevel now => exact Interrupt.setLevel_invariant hI.delivers hI.passes hk h
  | idle => exact Interrupt.idle_invariant hI.delivers hI.passes hk h
  | setStatus st =>
    cases h
    exact hI.passes k _ hk ⟨rfl, rfl, rfl, rfl, le_rfl⟩

lemma request_ok {writing : Bool} {s : ℤ} (h : request writing s k = .ok k') :
    k.world.disk.active = false ∧ 0 ≤ s ∧ s < 1024 ∧ 0 < k.world.disk.computeLatency k.totalTicks s writing ∧
      k' = Interrupt.inserted
        { k with world :=
        { k.world with disk := DiskUnit.updateLast { k.world.disk with active := true } k.totalTicks s } }
        ⟨.disk, k.totalTicks + k.world.disk.computeLatency k.totalTicks s writing,
        .diskInt, k.scheduled.length⟩ := by
  unfold request at h
  simp only at h
  split at h
  · cases h
  · split at h
    · cases h
    · rename_i hactive hs
      obtain ⟨hpos, hk'⟩ := Interrupt.schedule_eq h
      rw [not_not] at hs
      exact ⟨Bool.eq_false_iff.mpr hactive, hs.1, hs.2, hpos, hk'⟩

structure Apart (k k' : Hardware) : Prop where
  world : k'.world = k.world
  fired : k'.fired = k.fired
  totalTicks : k'.totalTicks = k.totalTicks
  status : k'.status = k.status
  yieldOnReturn : k'.yieldOnReturn = k.yieldOnReturn
  mem (p : PendingInterrupt CallBackObj) (hp : ∀ n, p.callOnInterrupt ≠ .other n) : p ∈ k'.pending ↔ p ∈ k.pending
  count (t : PendingInterrupt CallBackObj → Bool) (ht : ∀ p n, p.callOnInterrupt = .other n → t p = false) :
    k'.pending.countP t = k.pending.countP t
  scheduled (p : PendingInterrupt CallBackObj) (hp : ∀ n, p.callOnInterrupt ≠ .other n) :
      p ∈ k'.scheduled ↔ p ∈ k.scheduled

lemma apart_inserted {p : PendingInterrupt CallBackObj} {n : ℕ} (hn : p.callOnInterrupt = .other n) :
    Apart k (k.inserted p) := by
  have hne {q : PendingInterrupt CallBackObj} (hq : ∀ n, q.callOnInterrupt ≠ .other n) : q ≠ p := by
    rintro rfl
    exact hq n hn
  refine ⟨rfl, rfl, rfl, rfl, rfl, fun q hq => ?_, fun t ht => ?_, fun q hq => ?_⟩
  · rw [Interrupt.mem_inserted, or_iff_right (hne hq)]
  · rw [Interrupt.countP_inserted, ht p n hn, if_neg (by decide), Nat.add_zero]
  · rw [Interrupt.inserted, List.mem_append, List.mem_singleton, or_iff_left (hne hq)]

lemma Apart.trans {k₁ : Hardware} (h : Apart k k₁) (h' : Apart k₁ k') : Apart k k' where
  world := h'.world.trans h.world
  fired := h'.fired.trans h.fired
  totalTicks := h'.totalTicks.trans h.totalTicks
  status := h'.status.trans h.status
  yieldOnReturn := h'.yieldOnReturn.trans h.yieldOnReturn
  mem p hp := (h'.mem p hp).trans (h.mem p hp)
  count t ht := (h'.count t ht).trans (h.count t ht)
  scheduled p hp := (h'.scheduled p hp).trans (h.scheduled p hp)

lemma Apart.refl (k : Hardware) : Apart k k :=
  ⟨rfl, rfl, rfl, rfl, rfl, fun _ _ => Iff.rfl, fun _ _ => rfl, fun _ _ => Iff.rfl⟩

lemma fire_other {n : ℕ} (hn : next.callOnInterrupt = .other n) (h : Interrupt.fire c.callBack next k = .ok k') :
    Apart k k' := by
  rw [Interrupt.fire, hn] at h
  change ((c.others n k).map _).foldlM Interrupt.call _ = _ at h
  rw [List.foldlM_map] at h
  apply foldlM_invariant (I := Apart k) _ (Apart.refl k) h
  intro k₁ x k₂ hk₁ hcall
  obtain ⟨-, rfl⟩ := Interrupt.schedule_eq hcall
  exact hk₁.trans (apart_inserted rfl)

lemma fire_disk (hn : next.callOnInterrupt = .disk) (h : Interrupt.fire c.callBack next k = .ok k') :
    k' = { k with world := { k.world with disk := { k.world.disk with active := false } } } := by
  rw [Interrupt.fire, hn] at h
  cases h
  rfl

def slices (c : Setting) (st : MachineStatus) (count : ℤ) : Bool :=
  decide (st ≠ .idleMode ∧ (count * TimerTicks).tmod c.timeSlice = 0)

structure Rings (c : Setting) (k k' : Hardware) : Prop where
  disk : k'.world.disk = k.world.disk
  disable : k'.world.disable = k.world.disable
  timeCount : k'.world.timeCount = k.world.timeCount + 1
  fired : k'.fired = k.fired
  totalTicks : k'.totalTicks = k.totalTicks
  status : k'.status = k.status
  yieldOnReturn : k'.yieldOnReturn = (k.yieldOnReturn || c.slices k.status k'.world.timeCount)
  pending : k.world.disable = true ∧ k'.pending = k.pending ∧ k'.scheduled = k.scheduled ∨
    k.world.disable = false ∧ ∃ p : PendingInterrupt CallBackObj, p.callOnInterrupt = .timer ∧
    k.totalTicks < p.when ∧
      p.when ≤ k.totalTicks + (if c.randomize then 200 else 100) ∧
      (c.randomize = false → p.when = k.totalTicks + 100) ∧
      k'.pending = (k.inserted p).pending ∧ k'.scheduled = (k.inserted p).scheduled

lemma setInterrupt_cases (c : Setting) (w : Devices) :
    w.disable = true ∧ c.setInterrupt w = ([], w) ∨
      w.disable = false ∧ ∃ fromNow random, 0 < fromNow ∧ fromNow ≤ (if c.randomize then 200 else 100) ∧
        (c.randomize = false → fromNow = 100) ∧
        c.setInterrupt w = ([.schedule .timer fromNow .timerInt], { w with random := random }) := by
  unfold setInterrupt
  by_cases hd : w.disable = true
  · exact .inl ⟨hd, if_pos hd⟩
  · rw [if_neg hd]
    refine .inr ⟨Bool.eq_false_iff.mpr hd, ?_⟩
    cases hr : c.randomize with
    | true =>
      refine ⟨1 + (w.random 0 : ℤ) % (TimerTicks * 2), _, ?_, ?_, fun h => Bool.noConfusion h, rfl⟩
      · unfold TimerTicks
        omega
      · unfold TimerTicks
        simp only [if_true]
        omega
    | false => exact ⟨TimerTicks, w.random, by decide, by decide, fun _ => rfl, rfl⟩

lemma fire_timer (hn : next.callOnInterrupt = .timer) (h : Interrupt.fire c.callBack next k = .ok k') :
    Rings c k k' := by
  have hcount := setInterrupt_cases c { k.world with timeCount := k.world.timeCount + 1 }
  rw [Interrupt.fire, hn] at h
  change ((if k.status ≠ MachineStatus.idleMode ∧ ((k.world.timeCount + 1) * TimerTicks).tmod c.timeSlice = 0 then
      [HandlerCall.yieldOnReturn] else []) ++ (c.setInterrupt _).1).foldlM Interrupt.call
    { k with world := (c.setInterrupt _).2 } = _ at h
  rw [List.foldlM_append] at h
  obtain ⟨k₁, hyield, h⟩ := bind_eq_ok.mp h
  have hk₁ : k₁ = { k with
      world := (c.setInterrupt { k.world with timeCount := k.world.timeCount + 1 }).2
      yieldOnReturn := k.yieldOnReturn || c.slices k.status (k.world.timeCount + 1) } := by
    split at hyield
    · obtain ⟨k₂, hcall, hyield⟩ := bind_eq_ok.mp hyield
      cases hyield
      rw [Interrupt.call] at hcall
      split at hcall
      · cases hcall
        rw [slices, decide_eq_true ‹_›, Bool.or_true]
      · cases hcall
    · cases hyield
      rw [slices, decide_eq_false ‹_›, Bool.or_false]
  rcases hcount with ⟨hd, hset⟩ | ⟨hd, fromNow, random, hpos, hle, hfixed, hset⟩
  · rw [hset] at h hk₁
    cases h
    subst hk₁
    exact ⟨rfl, rfl, rfl, rfl, rfl, rfl, rfl, .inl ⟨hd, rfl, rfl⟩⟩
  · rw [hset] at h hk₁
    obtain ⟨k₂, hcall, h⟩ := bind_eq_ok.mp h
    cases h
    obtain ⟨-, rfl⟩ := Interrupt.schedule_eq hcall
    subst hk₁
    refine ⟨rfl, rfl, rfl, rfl, rfl, rfl, rfl, .inr ⟨hd, _, rfl, ?_, ?_, fun hr => ?_, rfl, rfl⟩⟩
    · exact lt_add_of_pos_right _ hpos
    · exact add_le_add_right hle _
    · rw [hfixed hr]

lemma boot_ok {random : ℕ → ℕ} (h : c.boot random = .ok k) : ∃ (p : PendingInterrupt CallBackObj) (w : Devices),
    p.callOnInterrupt = .timer ∧ p.when ≤ (if c.randomize then 200 else 100) ∧
    (c.randomize = false → p.when = 100) ∧
      0 < p.when ∧ p.number = 0 ∧ w.disk = .start ∧ w.disable = false ∧
      w.timeCount = 0 ∧ k = (Interrupt.boot w).inserted p := by
  have hset := setInterrupt_cases c ⟨.start, false, 0, random⟩
  rw [boot] at h
  rcases hset with ⟨hd, -⟩ | ⟨-, fromNow, random, hpos, hle, hfixed, hset⟩
  · cases hd
  · rw [hset] at h
    obtain ⟨k₁, hcall, h⟩ := bind_eq_ok.mp h
    cases h
    obtain ⟨-, rfl⟩ := Interrupt.schedule_eq hcall
    refine ⟨_, _, rfl, ?_, fun hr => ?_, ?_, rfl, rfl, rfl, rfl, rfl⟩
    · rw [Interrupt.boot, zero_add]
      exact hle
    · rw [Interrupt.boot, zero_add]
      exact hfixed hr
    · rw [Interrupt.boot, zero_add]
      exact hpos

lemma Keeps.reachable {I : Hardware → Prop} (hI : c.Keeps I) {random : ℕ → ℕ}
    (hboot : ∀ k, c.boot random = .ok k → I k) (h : c.Reachable random k) : I k := by
  obtain ⟨k₀, h₀, hrun⟩ := h
  exact hrun.invariant (fun _ _ _ hk _ hp => hI.performs hk hp) (hboot k₀ h₀)

lemma reachable_follow {fuel : ℕ} {ops : List DeviceOp} {random : ℕ → ℕ}
    (h : (c.boot random >>= c.follow fuel ops) = .ok k) : c.Reachable random k := by
  obtain ⟨k₀, h₀, h⟩ := bind_eq_ok.mp h
  refine ⟨k₀, h₀, ?_⟩
  exact foldlM_invariant (I := Reaches c.Performs (fun _ _ => True) k₀)
    (fun k₁ op k₂ hr hp => hr.step op trivial ⟨fuel, hp⟩) .refl h

def plain : Setting := ⟨false, 100, fun _ _ => []⟩

end Setting

end NachosFileSys
