import NachosFileSys.Devices

namespace NachosFileSys

open Lib.Results Lib.Runs

def Begins (t s : ℤ) : Prop := RotationTime ∣ t ∧ (t / RotationTime) % SectorsPerTrack = s % SectorsPerTrack

def track (s : ℤ) : ℤ := s / SectorsPerTrack

def nextBoundary (t : ℤ) : ℤ := (t + (RotationTime - 1)) / RotationTime * RotationTime

lemma le_nextBoundary (t : ℤ) : t ≤ nextBoundary t ∧ nextBoundary t ≤ t + 499 := by
  unfold nextBoundary RotationTime
  omega

lemma dvd_nextBoundary (t : ℤ) : RotationTime ∣ nextBoundary t := ⟨_, mul_comm _ _⟩

lemma nextBoundary_le {t u : ℤ} (htu : t ≤ u) (hu : RotationTime ∣ u) : nextBoundary t ≤ u := by
  unfold nextBoundary
  unfold RotationTime at hu ⊢
  omega

lemma isLeast_begins {b : ℤ} (hb : RotationTime ∣ b) (s : ℤ) :
    IsLeast {u | b ≤ u ∧ Begins u s} (b + (s - b / RotationTime) % SectorsPerTrack * RotationTime) := by
  constructor
  · simp only [Set.mem_ofPred_eq, Begins]
    unfold RotationTime SectorsPerTrack at *
    omega
  · rintro u ⟨hbu, hu, hs⟩
    unfold RotationTime SectorsPerTrack at *
    omega

namespace DiskUnit

variable {d : DiskUnit} {t t' s now : ℤ}

/-- The sector has passed under the head by the time `t`, wholly, since the head came to its track. -/
def InBuffer (d : DiskUnit) (t s : ℤ) : Prop :=
  track s = track d.lastSector ∧ ∃ u, d.bufferInit ≤ u ∧ u + RotationTime ≤ t ∧ Begins u s

def seekTime (d : DiskUnit) (s : ℤ) : ℤ := |track s - track d.lastSector| * SeekTime

lemma InBuffer.mono (h : d.InBuffer t s) (ht : t ≤ t') : d.InBuffer t' s := by
  obtain ⟨htrack, u, hu, hut, hbegins⟩ := h
  exact ⟨htrack, u, hu, hut.trans ht, hbegins⟩

structure Sound (d : DiskUnit) : Prop where
  sector : 0 ≤ d.lastSector ∧ d.lastSector < 1024
  nonneg : 0 ≤ d.bufferInit
  boundary : RotationTime ∣ d.bufferInit

lemma seekTime_nonneg : 0 ≤ d.seekTime s := mul_nonneg (abs_nonneg _) (by decide)

lemma seekTime_eq_zero : d.seekTime s = 0 ↔ track s = track d.lastSector := by
  simp [seekTime, SeekTime, sub_eq_zero]

lemma timeToSeek_eq (hd : d.Sound) (hs : 0 ≤ s) (hnow : 0 ≤ now) :
    d.timeToSeek now s = (d.seekTime s, nextBoundary (now + d.seekTime s) - (now + d.seekTime s)) := by
  have hseek : |s.tdiv SectorsPerTrack - d.lastSector.tdiv SectorsPerTrack| * SeekTime = d.seekTime s := by
    rw [Int.tdiv_eq_ediv_of_nonneg hs, Int.tdiv_eq_ediv_of_nonneg hd.sector.1]
    rfl
  have hnonneg : 0 ≤ now + d.seekTime s := add_nonneg hnow seekTime_nonneg
  simp only [timeToSeek, hseek, Int.tmod_eq_emod_of_nonneg hnonneg, nextBoundary]
  congr 1
  unfold RotationTime
  split <;> omega

lemma moduloDiff_eq {target current : ℤ} (ht : 0 ≤ target) (hc : 0 ≤ current) :
    moduloDiff target current = (target - current) % SectorsPerTrack := by
  simp only [moduloDiff, Int.tmod_eq_emod_of_nonneg ht, Int.tmod_eq_emod_of_nonneg hc]
  unfold SectorsPerTrack
  rw [Int.tmod_eq_emod_of_nonneg (by omega)]
  omega

lemma inBuffer_iff (hd : d.Sound) (hb : RotationTime ∣ t) :
    d.InBuffer t s ↔ d.seekTime s = 0 ∧
      (t - d.bufferInit) / RotationTime > (s - d.bufferInit / RotationTime) % SectorsPerTrack := by
  have hleast := isLeast_begins hd.boundary s
  have hboundary := hd.boundary
  rw [seekTime_eq_zero]
  apply and_congr_right
  intro _
  constructor
  · rintro ⟨u, hu, hut, hbegins⟩
    have hle := hleast.2 ⟨hu, hbegins⟩
    unfold RotationTime at *
    omega
  · intro hgt
    refine ⟨_, hleast.1.1, ?_, hleast.1.2⟩
    unfold RotationTime at *
    omega

lemma computeLatency_hit (hd : d.Sound) (hs : 0 ≤ s) (hnow : 0 ≤ now) (hle : d.bufferInit ≤ now)
    (h : d.InBuffer (nextBoundary now) s) : d.computeLatency now s false = RotationTime := by
  have hb := le_nextBoundary now
  obtain ⟨hseek, hgt⟩ := (inBuffer_iff hd (dvd_nextBoundary now)).mp h
  simp only [computeLatency, timeToSeek_eq hd hs hnow, hseek, add_zero, add_sub_cancel]
  rw [if_pos]
  refine ⟨trivial, trivial, ?_⟩
  rw [Int.tdiv_eq_ediv_of_nonneg (by omega), Int.tdiv_eq_ediv_of_nonneg hd.nonneg,
    moduloDiff_eq hs (Int.ediv_nonneg hd.nonneg (by decide))]
  exact hgt

lemma computeLatency_miss {writing : Bool} (hd : d.Sound) (hs : 0 ≤ s) (hnow : 0 ≤ now) (hle : d.bufferInit ≤ now)
    (h : ¬(writing = false ∧ d.InBuffer (nextBoundary now) s)) :
    IsLeast {u | now + d.seekTime s ≤ u ∧ Begins u s} (now + d.computeLatency now s writing - RotationTime) := by
  set ready := nextBoundary (now + d.seekTime s) with hready
  have hb := le_nextBoundary (now + d.seekTime s)
  have hseek : 0 ≤ d.seekTime s := seekTime_nonneg
  have hafter : now + d.seekTime s + (ready - (now + d.seekTime s)) = ready := by omega
  have hlatency : d.computeLatency now s writing =
      d.seekTime s + (ready - (now + d.seekTime s) + (s - ready / RotationTime) % SectorsPerTrack * RotationTime) +
        RotationTime := by
    simp only [computeLatency, timeToSeek_eq hd hs hnow, ← hready, hafter]
    rw [if_neg]
    · rw [Int.tdiv_eq_ediv_of_nonneg (by omega), moduloDiff_eq hs (Int.ediv_nonneg (by omega) (by decide))]
    · rintro ⟨hw, hzero, hgt⟩
      rw [hzero, add_zero] at hready
      rw [hready] at hgt
      have hb := le_nextBoundary now
      rw [Int.tdiv_eq_ediv_of_nonneg (by omega), Int.tdiv_eq_ediv_of_nonneg hd.nonneg,
        moduloDiff_eq hs (Int.ediv_nonneg hd.nonneg (by decide))] at hgt
      exact h ⟨hw, (inBuffer_iff hd (dvd_nextBoundary now)).mpr ⟨hzero, hgt⟩⟩
  have hwhen : now + d.computeLatency now s writing - RotationTime =
      ready + (s - ready / RotationTime) % SectorsPerTrack * RotationTime := by
    rw [hlatency]
    ring
  have hleast := isLeast_begins (dvd_nextBoundary (now + d.seekTime s)) s
  rw [hwhen]
  refine ⟨⟨hb.1.trans hleast.1.1, hleast.1.2⟩, ?_⟩
  rintro u ⟨hu, hbegins⟩
  exact hleast.2 ⟨nextBoundary_le hu hbegins.1, hbegins⟩

lemma updateLast_eq (hd : d.Sound) (hs : 0 ≤ s) (hnow : 0 ≤ now) :
    d.updateLast now s = { d with
      bufferInit := if d.seekTime s ≠ 0 then nextBoundary (now + d.seekTime s) else d.bufferInit
      lastSector := s } := by
  simp only [updateLast, timeToSeek_eq hd hs hnow]
  congr 1
  split <;> omega

lemma updateLast_inBuffer (hd : d.Sound) (hs : 0 ≤ s) (hnow : 0 ≤ now)
    (hle : d.bufferInit ≤ now) (writing : Bool) :
    (d.updateLast now s).bufferInit ≤ now + d.computeLatency now s writing ∧
      (d.updateLast now s).InBuffer (now + d.computeLatency now s writing) s := by
  rw [updateLast_eq hd hs hnow]
  by_cases hhit : writing = false ∧ d.InBuffer (nextBoundary now) s
  · obtain ⟨rfl, hin⟩ := hhit
    have hzero := seekTime_eq_zero.mpr hin.1
    have hb := le_nextBoundary now
    rw [computeLatency_hit hd hs hnow hle hin]
    simp only [hzero, ne_eq, not_true_eq_false, if_false]
    obtain ⟨-, u, hu, hut, hbegins⟩ := hin
    refine ⟨by unfold RotationTime; omega, rfl, u, hu, ?_, hbegins⟩
    unfold RotationTime at *
    omega
  · have hleast := computeLatency_miss hd hs hnow hle hhit
    obtain ⟨hu, hbegins⟩ := hleast.1
    have hseek : 0 ≤ d.seekTime s := seekTime_nonneg
    have hinit : (if d.seekTime s ≠ 0 then nextBoundary (now + d.seekTime s) else d.bufferInit) ≤
        now + d.computeLatency now s writing - RotationTime := by
      split
      · exact nextBoundary_le hu hbegins.1
      · omega
    refine ⟨?_, rfl, _, hinit, ?_, hbegins⟩
    · refine hinit.trans ?_
      unfold RotationTime
      omega
    · omega

lemma Sound.updateLast (hd : d.Sound) (hs : 0 ≤ s ∧ s < 1024) (hnow : 0 ≤ now) : (d.updateLast now s).Sound := by
  have hseek : 0 ≤ d.seekTime s := seekTime_nonneg
  have hb := le_nextBoundary (now + d.seekTime s)
  rw [updateLast_eq hd hs.1 hnow]
  refine ⟨hs, ?_, ?_⟩
  · dsimp only
    split
    · omega
    · exact hd.nonneg
  · dsimp only
    split
    · exact dvd_nextBoundary _
    · exact hd.boundary

end DiskUnit

namespace Setting

variable {c : Setting} {k k' : Hardware} {next : PendingInterrupt CallBackObj}

def isDisk (p : PendingInterrupt CallBackObj) : Bool := p.callOnInterrupt = .disk

lemma isDisk_eq_false {p : PendingInterrupt CallBackObj} : isDisk p = false ↔ p.callOnInterrupt ≠ .disk := by
  simp [isDisk]

structure Spins (k : Hardware) : Prop where
  clock : 0 ≤ k.totalTicks
  sound : k.world.disk.Sound
  count : k.pending.countP isDisk = k.world.disk.active.toNat
  waiting (p : PendingInterrupt CallBackObj) (hp : p ∈ k.pending) (hd : p.callOnInterrupt = .disk) :
    k.world.disk.bufferInit ≤ p.when ∧ k.world.disk.InBuffer p.when k.world.disk.lastSector
  resting (hr : k.world.disk.active = false) : k.world.disk.bufferInit ≤ k.totalTicks ∧
    ((∃ p ∈ k.scheduled, p.callOnInterrupt = .disk) → k.world.disk.InBuffer k.totalTicks k.world.disk.lastSector)

namespace Spins

lemma request (hk : Spins k) {writing : Bool} {s : ℤ} (h : Setting.request writing s k = .ok k') : Spins k' := by
  obtain ⟨hactive, hs0, hs1, -, rfl⟩ := request_ok h
  obtain ⟨hle, -⟩ := hk.resting hactive
  have hsound : (DiskUnit.mk true k.world.disk.lastSector k.world.disk.bufferInit).Sound :=
    ⟨hk.sound.sector, hk.sound.nonneg, hk.sound.boundary⟩
  have hcount := hk.count
  rw [hactive, Bool.toNat_false, List.countP_eq_zero] at hcount
  have hupdate := DiskUnit.updateLast_inBuffer hsound hs0 hk.clock hle writing
  refine ⟨hk.clock, hsound.updateLast ⟨hs0, hs1⟩ hk.clock, ?_, ?_, ?_⟩
  · rw [Interrupt.countP_inserted, List.countP_eq_zero.mpr hcount]
    rfl
  · intro p hp hd
    rw [Interrupt.mem_inserted] at hp
    rcases hp with rfl | hp
    · exact hupdate
    · exact absurd (decide_eq_true hd) (hcount p hp)
  · intro hr
    cases hr

lemma apart (hk : Spins k) (h : Apart k k') : Spins k' := by
  have hmem {p : PendingInterrupt CallBackObj} (hd : p.callOnInterrupt = .disk) :
      ∀ n, p.callOnInterrupt ≠ .other n := by
    intro n hn
    rw [hd] at hn
    cases hn
  refine ⟨?_, ?_, ?_, ?_, ?_⟩
  · rw [h.totalTicks]
    exact hk.clock
  · rw [h.world]
    exact hk.sound
  · rw [h.world, ← hk.count]
    apply h.count
    intro p n hn
    rw [isDisk_eq_false, hn]
    exact CallBackObj.noConfusion
  · intro p hp hd
    rw [h.world]
    exact hk.waiting p ((h.mem p (hmem hd)).mp hp) hd
  · rw [h.world, h.totalTicks]
    intro hr
    obtain ⟨hle, hin⟩ := hk.resting hr
    refine ⟨hle, ?_⟩
    rintro ⟨p, hp, hd⟩
    exact hin ⟨p, (h.scheduled p (hmem hd)).mp hp, hd⟩

lemma passes (hk : Spins k) (h : Interrupt.Passes k k') : Spins k' := by
  refine ⟨hk.clock.trans h.totalTicks, ?_, ?_, ?_, ?_⟩
  · rw [h.world]
    exact hk.sound
  · rw [h.world, h.pending]
    exact hk.count
  · rw [h.world, h.pending]
    exact hk.waiting
  · rw [h.world, h.scheduled]
    intro hr
    obtain ⟨hle, hin⟩ := hk.resting hr
    exact ⟨hle.trans h.totalTicks, fun hp => (hin hp).mono h.totalTicks⟩

lemma popped (hk : Spins k) {rest : List (PendingInterrupt CallBackObj)} (hp : k.pending = next :: rest)
    (hn : next.callOnInterrupt ≠ .disk) : Spins (k.popped next rest) := by
  have hcount := hk.count
  rw [hp, List.countP_cons, isDisk_eq_false.mpr hn] at hcount
  refine ⟨hk.clock, hk.sound, hcount, ?_, hk.resting⟩
  intro p hm hd
  apply hk.waiting p _ hd
  rw [hp]
  exact List.mem_cons_of_mem _ hm

lemma rings (hk : Spins k) (h : Rings c k k') : Spins k' := by
  have hpending : k'.pending.countP isDisk = k.pending.countP isDisk ∧
      (∀ p, p.callOnInterrupt = .disk → (p ∈ k'.pending ↔ p ∈ k.pending) ∧
      (p ∈ k'.scheduled ↔ p ∈ k.scheduled)) := by
    rcases h.pending with ⟨-, hp, hs⟩ | ⟨-, q, hq, -, -, -, hp, hs⟩
    · rw [hp, hs]
      exact ⟨rfl, fun _ _ => ⟨Iff.rfl, Iff.rfl⟩⟩
    · have hne {p : PendingInterrupt CallBackObj} (hd : p.callOnInterrupt = .disk) : p ≠ q := by
        rintro rfl
        rw [hq] at hd
        cases hd
      have hnot : isDisk q = false := by
        rw [isDisk_eq_false, hq]
        exact CallBackObj.noConfusion
      rw [hp, hs, Interrupt.countP_inserted, hnot]
      refine ⟨rfl, fun p hd => ⟨?_, ?_⟩⟩
      · rw [Interrupt.mem_inserted, or_iff_right (hne hd)]
      · rw [Interrupt.inserted, List.mem_append, List.mem_singleton, or_iff_left (hne hd)]
  obtain ⟨hcount, hmem⟩ := hpending
  refine ⟨?_, ?_, ?_, ?_, ?_⟩
  · rw [h.totalTicks]
    exact hk.clock
  · rw [h.disk]
    exact hk.sound
  · rw [h.disk, hcount]
    exact hk.count
  · rw [h.disk]
    intro p hp hd
    exact hk.waiting p ((hmem p hd).1.mp hp) hd
  · rw [h.disk, h.totalTicks]
    intro hr
    obtain ⟨hle, hin⟩ := hk.resting hr
    refine ⟨hle, ?_⟩
    rintro ⟨p, hp, hd⟩
    exact hin ⟨p, (hmem p hd).2.mp hp, hd⟩

lemma interrupt (hk : Spins k) {rest : List (PendingInterrupt CallBackObj)} (hp : k.pending = next :: rest)
    (hdue : next.when ≤ k.totalTicks) (hn : next.callOnInterrupt = .disk)
    (hf : Interrupt.fire c.callBack next (k.popped next rest) = .ok k') : Spins k' := by
  obtain ⟨hle, hin⟩ := hk.waiting next (by rw [hp]; exact List.mem_cons_self) hn
  have hcount := hk.count
  rw [hp, List.countP_cons, show isDisk next = true from decide_eq_true hn, if_pos rfl] at hcount
  have hone := Bool.toNat_le k.world.disk.active
  have hnone : rest.countP isDisk = 0 := by omega
  rw [fire_disk hn hf]
  refine ⟨hk.clock, ⟨hk.sound.sector, hk.sound.nonneg, hk.sound.boundary⟩, hnone, ?_, ?_⟩
  · intro p hm hd
    exact absurd (decide_eq_true hd) (List.countP_eq_zero.mp hnone p hm)
  · exact fun _ => ⟨hle.trans hdue, fun _ => hin.mono hdue⟩

lemma delivers (hk : Spins k) (h : Interrupt.Delivers c.callBack next k k') : Spins k' := by
  cases h with
  | mk hp hdue hf =>
    cases hn : next.callOnInterrupt with
    | timer =>
      have hne : next.callOnInterrupt ≠ .disk := by
        rw [hn]
        exact CallBackObj.noConfusion
      exact (hk.popped hp hne).rings (fire_timer hn hf)
    | disk => exact hk.interrupt hp hdue hn hf
    | other n =>
      have hne : next.callOnInterrupt ≠ .disk := by
        rw [hn]
        exact CallBackObj.noConfusion
      exact (hk.popped hp hne).apart (fire_other hn hf)

end Spins

lemma keeps_spins (c : Setting) : c.Keeps Spins where
  request _ _ _ _ hk h := hk.request h
  schedule _ _ _ hk hp := hk.apart (apart_inserted hp)
  disable _ hk := ⟨hk.clock, hk.sound, hk.count, hk.waiting, hk.resting⟩
  passes _ _ hk h := hk.passes h
  delivers _ _ _ hk h := hk.delivers h

lemma spins_boot {random : ℕ → ℕ} (h : c.boot random = .ok k) : Spins k := by
  obtain ⟨p, w, hp, -, -, -, -, hdisk, -, -, rfl⟩ := boot_ok h
  have hnot : isDisk p = false := by
    rw [isDisk_eq_false, hp]
    exact CallBackObj.noConfusion
  have hworld : ((Interrupt.boot w).inserted p).world.disk = .start := hdisk
  refine ⟨le_rfl, ?_, ?_, ?_, ?_⟩
  · rw [hworld]
    exact ⟨by decide, le_rfl, dvd_zero _⟩
  · rw [hworld, Interrupt.countP_inserted, hnot]
    rfl
  · intro q hq hd
    obtain rfl : q = p := by simpa [Interrupt.boot] using Interrupt.mem_inserted.mp hq
    rw [hp] at hd
    cases hd
  · rw [hworld]
    refine fun _ => ⟨le_rfl, ?_⟩
    rintro ⟨q, hq, hd⟩
    obtain rfl : q = p := by simpa [Interrupt.inserted, Interrupt.boot] using hq
    rw [hp] at hd
    cases hd

/-- In every state the disk has one interrupt to come while it is active, and none otherwise. A read of what has
passed under the head since it came to the track takes the time of a transfer, and so a read of the sector that was
asked for last; any other request ends when the sector has passed for the first time after the seek. -/
theorem disk_latency (c : Setting) (random : ℕ → ℕ) (k : Hardware) (h : c.Reachable random k) :
    k.pending.countP isDisk = k.world.disk.active.toNat ∧
    (∀ writing s k', request writing s k = .ok k' → ∃ p ∈ k'.pending, isDisk p = true ∧
      (writing = false ∧ k.world.disk.InBuffer (nextBoundary k.totalTicks) s →
      p.when = k.totalTicks + RotationTime) ∧
      (¬(writing = false ∧ k.world.disk.InBuffer (nextBoundary k.totalTicks) s) →
        IsLeast {u | k.totalTicks + k.world.disk.seekTime s ≤ u ∧ Begins u s} (p.when - RotationTime))) ∧
    ∀ k', (∃ p ∈ k.scheduled, isDisk p = true) → request false k.world.disk.lastSector k = .ok k' →
      ∃ p ∈ k'.pending, isDisk p = true ∧ p.when = k.totalTicks + RotationTime := by
  have hk := (keeps_spins c).reachable (fun _ => spins_boot) h
  refine ⟨hk.count, fun writing s k' hr => ?_, fun k' ⟨q, hq, hd⟩ hr => ?_⟩
  · obtain ⟨hactive, hs, -, -, rfl⟩ := request_ok hr
    obtain ⟨hle, -⟩ := hk.resting hactive
    refine ⟨_, Interrupt.mem_inserted.mpr (.inl rfl), rfl, fun ⟨hw, hin⟩ => ?_, fun hmiss => ?_⟩
    · subst hw
      rw [DiskUnit.computeLatency_hit hk.sound hs hk.clock hle hin]
    · exact DiskUnit.computeLatency_miss hk.sound hs hk.clock hle hmiss
  · obtain ⟨hactive, hs, -, -, rfl⟩ := request_ok hr
    obtain ⟨hle, hin⟩ := hk.resting hactive
    refine ⟨_, Interrupt.mem_inserted.mpr (.inl rfl), rfl, ?_⟩
    have hlast := hin ⟨q, hq, of_decide_eq_true hd⟩
    rw [DiskUnit.computeLatency_hit hk.sound hs hk.clock hle (hlast.mono (le_nextBoundary _).1)]

theorem disk_latency_reread : ∃ k k', plain.Reachable (fun _ => 0) k ∧ k.totalTicks = 1000 ∧
    request false 33 k = .ok k' ∧ ∃ p ∈ k'.pending, isDisk p = true ∧ p.when = 1500 := by
  obtain ⟨k, hk, ht, hlast, hmade, k', hr⟩ : ∃ k, (plain.boot (fun _ => 0) >>=
      plain.follow 3 (.request true 33 :: List.replicate 10 .idle)) = .ok k ∧ k.totalTicks = 1000 ∧
      k.world.disk.lastSector = 33 ∧ (∃ p ∈ k.scheduled, isDisk p = true) ∧ ∃ k', request false 33 k = .ok k' :=
    ⟨_, rfl, rfl, rfl, List.any_eq_true.mp rfl, _, rfl⟩
  have hreach := reachable_follow hk
  obtain ⟨-, -, hagain⟩ := disk_latency plain (fun _ => 0) k hreach
  rw [hlast, ht] at hagain
  exact ⟨k, k', hreach, ht, hr, hagain k' hmade hr⟩

end Setting

end NachosFileSys
