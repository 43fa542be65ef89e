import NachosFileSys.Scheduler

namespace NachosFileSys

open Lib.Runs

namespace Processor

variable {S : Type}

/-- The registers as they were, with a pending load kept or completed. -/
def Keeps (registers saved : Registers) : Prop :=
  saved = registers ∨ saved = Registers.delayedLoad 0 0 registers

lemma Keeps.delayedLoad {registers saved : Registers} (h : Keeps registers saved) :
    Keeps registers (Registers.delayedLoad 0 0 saved) := by
  obtain rfl | rfl := h
  · exact .inr rfl
  · exact .inr (Registers.delayedLoad_idem registers)

structure Kept (k : Processor S) : Prop where
  -- a thread that has not begun has no address space
  unborn (t : ℕ) (h : t ≠ k.current ∨ k.mode = .switched ∨ k.mode = .returned) (hr : k.resumeAt t = .begin) :
    k.space t = none
  table (h : k.mode ≠ .switched) (sp : Space) (hs : k.space k.current = some sp) : k.pageTable = some sp
  saved (t : ℕ) (sp : Space) (h : t ≠ k.current ∨ k.mode = .switched) (hs : k.space t = some sp) :
    ∃ r, k.left t = some (r, some sp) ∧ Keeps r (k.userRegisters t)
  leaving (reason : Option S) (h : k.mode = .sleeping reason) :
    ∃ r, k.left k.current = some (r, k.pageTable) ∧ Keeps r k.registers
  back (h : k.mode = .returned) (sp : Space) (hs : k.space k.current = some sp) :
    ∃ r, k.left k.current = some (r, some sp) ∧ Keeps r k.registers

lemma Kept.boot (v₀ : S → ℤ) : Kept (Processor.boot v₀) := by
  refine ⟨fun _ _ _ => rfl, fun _ sp hs => ?_, fun t sp _ hs => ?_, fun reason h => ?_, fun h => ?_⟩
  · cases hs
  · cases hs
  · cases h
  · cases h

variable {k k' : Processor S} {reason : Option S}

lemma Kept.congr (h : Kept k) (hc : k'.current = k.current) (hm : k'.mode = k.mode) (hr : k'.resumeAt = k.resumeAt)
    (hs : k'.space = k.space) (hp : k'.pageTable = k.pageTable) (hreg : k'.registers = k.registers)
    (hu : k'.userRegisters = k.userRegisters) (hl : k'.left = k.left) : Kept k' := by
  refine ⟨?_, ?_, ?_, ?_, ?_⟩
  · rw [hc, hm, hr, hs]
    exact h.unborn
  · rw [hc, hm, hs, hp]
    exact h.table
  · rw [hc, hm, hs, hl, hu]
    exact h.saved
  · rw [hc, hm, hl, hp, hreg]
    exact h.leaving
  · rw [hc, hm, hs, hl, hreg]
    exact h.back

lemma Kept.compute (h : Kept k) (hm : k.mode = .running) (registers : Registers) :
    Kept { k with registers := registers } :=
  ⟨h.unborn, h.table, h.saved, fun reason hr => by simp [hm] at hr, fun hr => by simp [hm] at hr⟩

lemma Kept.execute (h : Kept k) (hm : k.mode = .running) (space : Space) : Kept (k.execute space) := by
  refine ⟨fun t ht hr => ?_, fun hne sp hs => ?_, fun t sp ht hs => ?_, fun reason hr => ?_, fun hr => ?_⟩
  · have hne : t ≠ k.current := by
      obtain ht | ht | ht := ht
      · exact ht
      · simp [Processor.execute, hm] at ht
      · simp [Processor.execute, hm] at ht
    have := h.unborn t (.inl hne) hr
    simpa [Processor.execute, hne] using this
  · simpa [Processor.execute] using hs
  · have hne : t ≠ k.current := by
      obtain ht | ht := ht
      · exact ht
      · simp [Processor.execute, hm] at ht
    exact h.saved t sp (.inl hne) (by simpa [Processor.execute, hne] using hs)
  · simp [Processor.execute, hm] at hr
  · simp [Processor.execute, hm] at hr

lemma Kept.sleep (h : Kept k) (hm : k.mode = .running ∨ k.mode = .returned) : Kept (k.sleep reason) := by
  have hns : k.mode ≠ .switched := by obtain hm | hm := hm <;> simp [hm]
  refine ⟨fun t ht hr => ?_, fun _ sp hs => h.table hns sp hs, fun t sp ht hs => ?_, fun r hr => ?_, fun hr => ?_⟩
  · obtain ht | ht | ht := ht
    · exact h.unborn t (.inl ht) hr
    · cases ht
    · cases ht
  · have hne : t ≠ k.current := by
      obtain ht | ht := ht
      · exact ht
      · cases ht
    obtain ⟨r, hl, hk⟩ := h.saved t sp (.inl hne) hs
    exact ⟨r, by simpa [Processor.sleep, leave, setStatus, hne] using hl, hk⟩
  · exact ⟨k.registers, by simp [Processor.sleep, leave, setStatus], .inl rfl⟩
  · cases hr

lemma Kept.switchTo (hs : ∀ (t : ℕ) (sp : Space), t ≠ k.current → k.space t = some sp →
      ∃ r, k.left t = some (r, some sp) ∧ Keeps r (k.userRegisters t))
    (hb : ∀ t, t ≠ k.current → k.resumeAt t = .begin → k.space t = none)
    (hown : ∀ sp, k.space k.current = some sp → ∃ r, k.left k.current = some (r, some sp) ∧ Keeps r k.registers)
    (next : ℕ) (finishing : Bool) {at_ : Resume S} (hat : at_ ≠ .begin) :
    Kept (k.switchTo next finishing at_) := by
  refine ⟨fun t _ hr => ?_, fun hne => absurd rfl hne, fun t sp _ ht => ?_, fun r hr => ?_, fun hr => ?_⟩
  · rcases eq_or_ne t k.current with rfl | hne
    · simp [Processor.switchTo, hat] at hr
    · exact hb t hne (by simpa [Processor.switchTo, hne] using hr)
  · rcases eq_or_ne t k.current with rfl | hne
    · obtain ⟨r, hl, hk⟩ := hown sp ht
      have hsome : (k.space k.current).isSome = true := by
        change k.space k.current = some sp at ht
        simp [ht]
      exact ⟨r, hl, by simpa [Processor.switchTo, hsome] using hk⟩
    · obtain ⟨r, hl, hk⟩ := hs t sp hne ht
      refine ⟨r, hl, ?_⟩
      simp only [Processor.switchTo]
      split
      · simpa [hne] using hk
      · exact hk
  · cases hr
  · cases hr

lemma Kept.returnFrom (h : Kept k) (hm : k.mode = .switched) : Kept k.returnFrom := by
  unfold Processor.returnFrom
  split
  · rename_i hbegin
    have hnone := h.unborn k.current (.inr (.inl hm)) hbegin
    refine ⟨fun t _ hr => h.unborn t (.inr (.inl hm)) hr, fun _ sp hs => ?_,
      fun t sp ht hs => h.saved t sp (.inr hm) hs, fun r hr => ?_, fun _ sp hs => ?_⟩
    · simp [hnone] at hs
    · cases hr
    · simp [hnone] at hs
  · unfold restore
    split
    · rename_i hnone
      refine ⟨fun t _ hr => h.unborn t (.inr (.inl hm)) hr, fun _ sp hs => ?_,
        fun t sp ht hs => h.saved t sp (.inr hm) hs, fun r hr => ?_, fun _ sp hs => ?_⟩
      · simp [hnone] at hs
      · cases hr
      · simp [hnone] at hs
    · rename_i space hspace
      refine ⟨fun t _ hr => h.unborn t (.inr (.inl hm)) hr, fun _ sp hs => ?_,
        fun t sp ht hs => h.saved t sp (.inr hm) hs, fun r hr => ?_, fun _ sp hs => ?_⟩
      · exact hspace.symm.trans hs
      · cases hr
      · exact h.saved k.current sp (.inr hm) hs

variable [DecidableEq S] {s : S}

omit [DecidableEq S] in
lemma checkToBeDestroyed_frame (h : k.checkToBeDestroyed = .ok k') :
    ∃ tbd deleted, k' = { k with toBeDestroyed := tbd, deleted := deleted } := by
  unfold checkToBeDestroyed at h
  split at h
  · cases h
    exact ⟨_, _, rfl⟩
  · split at h
    · cases h
    · cases h
      exact ⟨_, _, rfl⟩

lemma Kept.interrupt (h : Kept k) (hm : k.mode = .running ∨ ∃ reason, k.mode = .sleeping reason) {raised : List S}
    (hk : k.interrupt raised = .ok k') : Kept k' := by
  have hload : Kept { k with registers := Registers.delayedLoad 0 0 k.registers } := by
    refine ⟨h.unborn, h.table, h.saved, fun reason hr => ?_, fun hr => ?_⟩
    · obtain ⟨r, hl, hkeep⟩ := h.leaving reason hr
      exact ⟨r, hl, hkeep.delayedLoad⟩
    · obtain hm | ⟨reason, hm⟩ := hm <;> simp [hm] at hr
  obtain ⟨_, _, _, rfl⟩ := handlers_frame hk
  exact hload.congr rfl rfl rfl rfl rfl rfl rfl rfl

lemma Kept.p (h : Kept k) (hm : k.mode = .running ∨ k.mode = .returned) (hk : k.p s = .ok k') : Kept k' := by
  unfold Processor.p at hk
  split at hk
  · split at hk
    · cases hk
    · cases hk
      refine Kept.sleep ?_ hm
      exact h.congr rfl rfl rfl rfl rfl rfl rfl rfl
  · cases hk
    have hns : k.mode ≠ .switched := by obtain hm | hm := hm <;> simp [hm]
    refine ⟨fun t ht hr => ?_, fun _ => h.table hns, fun t sp ht hs => ?_, fun r hr => ?_, fun hr => ?_⟩
    · obtain ht | ht | ht := ht
      · exact h.unborn t (.inl ht) hr
      · cases ht
      · cases ht
    · obtain ht | ht := ht
      · exact h.saved t sp (.inl ht) hs
      · cases ht
    · cases hr
    · cases hr

omit [DecidableEq S] in
lemma Kept.yield (h : Kept k) (ho : Orderly k) (hm : k.mode = .running) (hk : k.yield = .ok k') : Kept k' := by
  cases hr : k.readyList with
  | nil =>
    have hok : k.yield = .ok k := by simp [Processor.yield, hr]
    cases hok.symm.trans hk
    exact h
  | cons next rest =>
    have hself : k.current ∉ rest := by
      intro hmem
      have hst := (ho.ready k.current).mp (by simp [hr, hmem])
      have hrun := (ho.running k.current).mpr ⟨rfl, by rw [hm]; rfl⟩
      simp [hst] at hrun
    rw [yield_eq hr hself] at hk
    have hnext : k' = (k.yielding rest).switchTo next false .yielded := by
      unfold Processor.run at hk
      split at hk
      · cases hk
      · exact (Except.ok.inj hk).symm
    rw [hnext]
    apply Kept.switchTo
    · intro t sp hne hs
      obtain ⟨r, hl, hkeep⟩ := h.saved t sp (.inl hne) hs
      have hne' : t ≠ k.current := hne
      exact ⟨r, by simpa [yielding, leave, setStatus, hne'] using hl, hkeep⟩
    · intro t hne hb
      exact h.unborn t (.inl hne) hb
    · intro sp hs
      refine ⟨k.registers, ?_, .inl rfl⟩
      have := h.table (by simp [hm]) sp hs
      simp [yielding, leave, setStatus, this]
    · simp

omit [DecidableEq S] in
lemma Kept.dispatch (h : Kept k) (hm : k.mode = .sleeping reason) {next : ℕ} {rest : List ℕ} {finishing : Bool}
    {at_ : Resume S} (hat : at_ ≠ .begin)
    (hk : Processor.run next finishing at_ { k with readyList := rest } = .ok k') :
    Kept k' := by
  have hnext : k' = Processor.switchTo next finishing at_ { k with readyList := rest } := by
    unfold Processor.run at hk
    split at hk
    · cases hk
    · exact (Except.ok.inj hk).symm
  rw [hnext]
  apply Kept.switchTo
  · exact fun t sp hne hs => h.saved t sp (.inl hne) hs
  · exact fun t hne hb => h.unborn t (.inl hne) hb
  · intro sp hs
    obtain ⟨r, hl, hkeep⟩ := h.leaving reason hm
    rw [h.table (by simp [hm]) sp hs] at hl
    exact ⟨r, hl, hkeep⟩
  · exact hat

lemma Kept.performRunning (h : Kept k) (ho : Orderly k) (hm : k.mode = .running) {op : SchedulerOp S}
    (hr : k.Performs op k') : Kept k' := by
  cases op with
  | create =>
    simp only [Performs, perform, hm, Option.some.injEq, Except.ok.injEq] at hr
    subst hr
    exact h.congr rfl hm.symm rfl rfl rfl rfl rfl rfl
  | fork t =>
    simp only [Performs, perform, hm, Option.some.injEq, Processor.fork, readyToRun] at hr
    split at hr
    · cases hr
    · cases hr
      exact h.congr rfl rfl rfl rfl rfl rfl rfl rfl
  | yield =>
    simp only [Performs, perform, hm, Option.some.injEq] at hr
    exact h.yield ho hm hr
  | finish =>
    simp only [Performs, perform, hm, Option.some.injEq, Processor.finish] at hr
    split at hr
    · cases hr
    · cases hr
      refine Kept.sleep ?_ (.inl rfl)
      exact h.congr rfl hm.symm rfl rfl rfl rfl rfl rfl
  | p s =>
    simp only [Performs, perform, hm, Option.some.injEq] at hr
    exact h.p (.inl hm) hr
  | v s =>
    simp only [Performs, perform, hm, Option.some.injEq] at hr
    obtain ⟨_, _, _, rfl⟩ := v_frame hr
    exact h.congr rfl rfl rfl rfl rfl rfl rfl rfl
  | compute registers =>
    simp only [Performs, perform, hm, Option.some.injEq, Except.ok.injEq] at hr
    subst hr
    exact (h.compute hm registers).congr rfl hm.symm rfl rfl rfl rfl rfl rfl
  | execute space =>
    simp only [Performs, perform, hm, Option.some.injEq, Except.ok.injEq] at hr
    subst hr
    exact h.execute hm space
  | interrupt raised =>
    simp only [Performs, perform, hm, Option.some.injEq] at hr
    exact h.interrupt (.inl hm) hr
  | dispatch => simp [Performs, perform, hm] at hr
  | resume => simp [Performs, perform, hm] at hr
  | proceed => simp [Performs, perform, hm] at hr

lemma Kept.perform (h : Kept k) (ho : Orderly k) {op : SchedulerOp S} (hr : k.Performs op k') : Kept k' := by
  cases hm : k.mode with
  | running => exact h.performRunning ho hm hr
  | sleeping reason =>
    cases op with
    | interrupt raised =>
      simp only [Performs, Processor.perform, hm, Option.some.injEq] at hr
      exact h.interrupt (.inr ⟨reason, hm⟩) hr
    | dispatch =>
      cases hl : k.readyList with
      | nil => cases reason <;> simp [Performs, Processor.perform, hm, hl] at hr
      | cons next rest =>
        cases reason with
        | none =>
          simp only [Performs, Processor.perform, hm, hl, Option.some.injEq] at hr
          exact h.dispatch hm (by simp) hr
        | some s =>
          simp only [Performs, Processor.perform, hm, hl, Option.some.injEq] at hr
          exact h.dispatch hm (by simp) hr
    | _ => simp [Performs, Processor.perform, hm] at hr
  | switched =>
    cases op with
    | resume =>
      simp only [Performs, Processor.perform, hm, Option.some.injEq, resume] at hr
      cases hc : k.checkToBeDestroyed with
      | error e => simp [hc, Except.map] at hr
      | ok k₁ =>
        simp only [hc, Except.map, Except.ok.injEq] at hr
        subst hr
        obtain ⟨_, _, rfl⟩ := checkToBeDestroyed_frame hc
        refine Kept.returnFrom ?_ hm
        exact h.congr rfl rfl rfl rfl rfl rfl rfl rfl
    | _ => simp [Performs, Processor.perform, hm] at hr
  | returned =>
    cases op with
    | proceed =>
      simp only [Performs, Processor.perform, hm, Option.some.injEq, proceed] at hr
      split at hr
      · exact h.p (.inr hm) hr
      · cases hr
        refine ⟨fun t ht hb => ?_, fun _ => h.table (by simp [hm]),
            fun t sp ht hs => ?_, fun r hr => ?_, fun hr => ?_⟩
        · exact h.unborn t (.inr (.inr hm)) hb
        · obtain ht | ht := ht
          · exact h.saved t sp (.inl ht) hs
          · cases ht
        · cases hr
        · cases hr
    | _ => simp [Performs, Processor.perform, hm] at hr

/-- Whenever a thread with an address space is back from `Run`, all registers are those with which it last left
the processor, with the pending load kept or completed, and so are the page table and its size. -/
theorem user_context_kept (v₀ : S → ℤ) {k : Processor S} (h : Reachable v₀ k)
    (hm : k.mode = .returned) {sp : Space}
    (hs : k.space k.current = some sp) :
    ∃ (r : Registers) (table : Option Space), k.left k.current = some (r, table) ∧
      (k.registers = r ∨ k.registers = Registers.delayedLoad 0 0 r) ∧ k.pageTable = table := by
  have hI : Orderly k ∧ Kept k := by
    refine h.invariant (I := fun k => Orderly k ∧ Kept k) (fun op k k' ⟨ho, hk⟩ hp hr => ?_)
      ⟨Orderly.boot v₀, Kept.boot v₀⟩
    obtain ⟨k₁, hok, h₁⟩ := ho.perform hp hr
    cases hok
    exact ⟨h₁, hk.perform ho hr⟩
  obtain ⟨-, hk⟩ := hI
  obtain ⟨r, hl, hkeep⟩ := hk.back hm sp hs
  exact ⟨r, some sp, hl, hkeep, hk.table (by simp [hm]) sp hs⟩

def twoPrograms (registers : Registers) : List (SchedulerOp Unit) :=
  [.create, .fork 1, .execute ⟨0, 4⟩, .compute registers, .p (), .interrupt [], .dispatch, .resume, .proceed,
    .execute ⟨1, 8⟩, .v (), .yield, .resume]

theorem user_context_kept_twoPrograms :
    ∃ k, follow (twoPrograms fun _ => 7) (boot fun _ => 0) = some k ∧ k.current = 0 ∧
      ∃ (r : Registers) (table : Option Space), k.left k.current = some (r, table) ∧
        (k.registers = r ∨ k.registers = Registers.delayedLoad 0 0 r) ∧ k.pageTable = table := by
  obtain ⟨k, hk, hc, hm, hs⟩ : ∃ k, follow (twoPrograms fun _ => 7) (boot fun _ => 0) = some k ∧ k.current = 0 ∧
      k.mode = .returned ∧ k.space k.current = some ⟨0, 4⟩ := ⟨_, rfl, rfl, rfl, rfl⟩
  exact ⟨k, hk, hc, user_context_kept (fun _ => 0) (follow_reaches hk) hm hs⟩

end Processor

end NachosFileSys
