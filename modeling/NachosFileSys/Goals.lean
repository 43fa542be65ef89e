import NachosFileSys.Monitor

namespace NachosFileSys

open Lib.Threads

variable {S M C K : Type} [DecidableEq S]

def ThreadState.goal : ThreadState S C → C
  | .ready c => c
  | .asleep _ _ next => next
  | .woken _ _ next => next

omit [DecidableEq S] in
@[simp] lemma ThreadState.goal_wake (st : ThreadState S C) : st.wake.goal = st.goal := by
  cases st <;> rfl

namespace Concurrent

variable {code : K → ℕ → C → Option (Stmt S M C)} {o : ℕ × K} {σ σ' : Concurrent S M C} {c c' : C} {t u : ℕ}

def goals (σ : Concurrent S M C) : List C := σ.threads.map ThreadState.goal

inductive Goes (code : K → ℕ → C → Option (Stmt S M C)) (o : ℕ × K) (σ σ' : Concurrent S M C) : Prop
  | again {c next : C} {s : S} (ht : σ.threads[o.1]? = some (.woken c s next)) (hm : σ'.memory = σ.memory)
      (hg : σ'.goals = σ.goals)
  | act {c c' : C} {f : M → Except Fault (M × C)} (ht : σ.threads[o.1]? = some (.ready c))
      (hc : code o.2 o.1 c = some (.act f)) (hf : f σ.memory = .ok (σ'.memory, c'))
      (hg : σ'.goals = σ.goals.set o.1 c')
  | p {c next : C} {s : S} (ht : σ.threads[o.1]? = some (.ready c)) (hc : code o.2 o.1 c = some (.p s next))
      (hm : σ'.memory = σ.memory) (hg : σ'.goals = σ.goals.set o.1 next)
  | v {c next : C} {s : S} (ht : σ.threads[o.1]? = some (.ready c)) (hc : code o.2 o.1 c = some (.v s next))
      (hm : σ'.memory = σ.memory) (hg : σ'.goals = σ.goals.set o.1 next)

omit [DecidableEq S] in
lemma goals_getElem? {st : ThreadState S C} (h : σ.threads[t]? = some st) : σ.goals[t]? = some st.goal := by
  simp [goals, h]

lemma goals_p {s : S} {next : C} (h : σ.p t c s next = .ok σ') :
    σ'.memory = σ.memory ∧ σ'.goals = σ.goals.set t next := by
  rw [p] at h
  split at h
  · split at h
    · cases h
    · cases h
      exact ⟨rfl, by simp [goals, List.map_set, ThreadState.goal]⟩
  · cases h
    exact ⟨rfl, by simp [goals, List.map_set, ThreadState.goal]⟩

lemma goals_v (t : ℕ) (s : S) (next : C) (σ : Concurrent S M C) :
    (σ.v t s next).memory = σ.memory ∧ (σ.v t s next).goals = σ.goals.set t next := by
  rw [v]
  split
  · exact ⟨rfl, by simp [goals, List.map_set, ThreadState.goal]⟩
  · rename_i u queue _
    refine ⟨rfl, ?_⟩
    have hwake : (σ.threads.modify u ThreadState.wake).map ThreadState.goal = σ.threads.map ThreadState.goal := by
      apply List.ext_getElem?
      intro i
      rw [List.getElem?_map, List.getElem?_map, List.getElem?_modify]
      by_cases hi : u = i
      · cases σ.threads[i]? <;> simp [hi]
      · simp [hi]
    simp [goals, List.map_set, hwake, ThreadState.goal]

lemma goes (h : σ.Moves code o σ') : Goes code o σ σ' := by
  rw [Moves, move] at h
  split at h
  · cases h
  · cases h
  · rename_i c s next ht
    obtain ⟨hm, hg⟩ := goals_p (Option.some.inj h)
    refine .again ht hm ?_
    obtain ⟨hlt, hget⟩ := List.getElem?_eq_some_iff.mp (goals_getElem? ht)
    have hnext : σ.goals[o.1] = next := hget
    rw [hg, ← hnext]
    exact List.set_getElem_self hlt
  · rename_i c ht
    obtain ⟨stmt, hc, h⟩ := Option.map_eq_some_iff.mp h
    cases stmt with
    | act f =>
      cases hf : f σ.memory with
      | error e => simp [hf, Except.map] at h
      | ok r =>
        simp only [hf, Except.map, Except.ok.injEq] at h
        subst h
        exact .act ht hc hf (by simp [goals, List.map_set, ThreadState.goal])
    | p s next =>
      obtain ⟨hm, hg⟩ := goals_p h
      exact .p ht hc hm hg
    | v s next =>
      cases h
      obtain ⟨hm, hg⟩ := goals_v o.1 s next σ
      exact .v ht hc hm hg

lemma ready_of_ne (h : σ.Moves code o σ') (hu : u ≠ o.1) (ht : σ.threads[u]? = some (.ready c)) :
    σ'.threads[u]? = some (.ready c) := by
  have hp : ∀ {c' s next σ'}, σ.p o.1 c' s next = .ok σ' → σ'.threads[u]? = some (.ready c) := by
    intro c' s next σ' hp
    rw [p] at hp
    split at hp
    · split at hp
      · cases hp
      · cases hp
        rw [List.getElem?_set_ne hu.symm, ht]
    · cases hp
      rw [List.getElem?_set_ne hu.symm, ht]
  rw [Moves, move] at h
  split at h
  · cases h
  · cases h
  · exact hp (Option.some.inj h)
  · obtain ⟨stmt, -, h⟩ := Option.map_eq_some_iff.mp h
    cases stmt with
    | act f =>
      cases hf : f σ.memory with
      | error e => simp [hf, Except.map] at h
      | ok r =>
        simp only [hf, Except.map, Except.ok.injEq] at h
        subst h
        rw [List.getElem?_set_ne hu.symm, ht]
    | p s next => exact hp h
    | v s next =>
      cases h
      rw [v]
      split
      · rw [List.getElem?_set_ne hu.symm, ht]
      · rename_i w queue _
        rw [List.getElem?_set_ne hu.symm, List.getElem?_modify, ht]
        by_cases hw : w = u <;> simp [hw, ThreadState.wake]

omit [DecidableEq S] in
lemma goals_start (m : M) (v₀ : S → ℤ) (cs : List C) : (start m v₀ cs).goals = cs := by
  have hid : (fun c : C => (ThreadState.ready c : ThreadState S C).goal) = id := rfl
  rw [goals, start, List.map_map]
  change cs.map (fun c => (ThreadState.ready c : ThreadState S C).goal) = cs
  rw [hid, List.map_id]

end Concurrent

end NachosFileSys
