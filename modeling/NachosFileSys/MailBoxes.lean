import NachosFileSys.SynchList
import NachosFileSys.Post

/-! `MailBox` of `network/post.cc`: a `SynchList` whose thread 0 is the postal worker, which puts
mails in, and whose other threads get them out. -/

namespace NachosFileSys

open Lib.Runs Lib.Threads Lib.Results Lib.Bytes Concurrent Client SynchList

structure Box (T : Type) where
  list : SynchList.State T
  calling : ℕ → Bool
  -- the items for which `Append` was called so far
  offered : List T
  -- the items removed so far, with the threads that removed them
  removed : List (ℕ × T)
  -- what the calls of a thread have returned so far
  returned : ℕ → List T

namespace Box

variable {T : Type} [DecidableEq T]

def move (t : ℕ) (call : Option T) (b : Box T) : Option (Except Fault (Box T)) :=
  (b.list.move (client T).code (t, call)).map fun r => r.map fun list =>
    { b with list := list, removed := b.removed ++
      (list.memory.data.taken.drop b.list.memory.data.taken.length).map fun item => (t, item) }

def ready (t : ℕ) (b : Box T) : Option (Option T) :=
  match b.list.threads[t]? with
  | some (.ready (.outside (.idle item))) => some item
  | _ => none

def enter (t : ℕ) (call : Option T) (b : Box T) : Option (Except Fault (Box T)) :=
  if b.calling t then none
  else ({ b with calling := Function.update b.calling t true, offered := b.offered ++ call.toList } :
      Box T).move t call

def go (t : ℕ) (b : Box T) : Option (Except Fault (Box T)) :=
  if b.calling t ∧ b.ready t = none then b.move t none else none

def leave (t : ℕ) (b : Box T) : Option (Option T × Box T) :=
  if b.calling t then (b.ready t).map fun item => (item, { b with
    calling := Function.update b.calling t false
    returned := Function.update b.returned t (b.returned t ++ item.toList) })
  else none

def start (T : Type) (n : ℕ) : Box T := ⟨SynchList.start T (n + 1), fun _ => false, [], [], fun _ => []⟩

structure Good (b : Box T) : Prop where
  fifo : b.list.memory.data.added = b.list.memory.data.taken ++ b.list.memory.data.list
  removed : b.removed.map Prod.snd = b.list.memory.data.taken
  idle (t : ℕ) (st : ThreadState (Sem Empty) (MonitorPoint (ListPoint T))) (ht : b.calling t = false)
    (hst : b.list.threads[t]? = some st) : ∃ item, st = .ready (.outside (.idle item))
  offered : b.offered = b.list.memory.data.added ++ (b.list.goals[0]?.map offering).getD []
  others (t : ℕ) (c : MonitorPoint (ListPoint T)) (ht : t ≠ 0) (hc : b.list.goals[t]? = some c) : offering c = []
  returned (t : ℕ) : (b.removed.filter (·.1 = t)).map Prod.snd =
    b.returned t ++ if b.calling t then (b.list.goals[t]?.map holding).getD [] else []

section Calls

variable {b b' : Box T} {t u : ℕ} {call item : Option T} {list : SynchList.State T}
    {g g' : MonitorPoint (ListPoint T)}

lemma move_ok (h : b.move t call = some (.ok b')) : ∃ list, b.list.Moves (client T).code (t, call) list ∧
    b' = { b with list := list, removed := b.removed ++
      (list.memory.data.taken.drop b.list.memory.data.taken.length).map fun item => (t, item) } := by
  rw [move] at h
  obtain ⟨r, hr, h⟩ := Option.map_eq_some_iff.mp h
  cases r with
  | error e => cases h
  | ok list =>
    cases h
    exact ⟨list, hr, rfl⟩

lemma enter_ok (h : b.enter t call = some (.ok b')) : b.calling t = false ∧
    ∃ list, b.list.Moves (client T).code (t, call) list ∧
    b' = ⟨list, Function.update b.calling t true, b.offered ++ call.toList, b.removed ++
      (list.memory.data.taken.drop b.list.memory.data.taken.length).map fun item => (t, item), b.returned⟩ := by
  rw [enter] at h
  split at h
  · cases h
  · rename_i hc
    obtain ⟨list, hm, hb⟩ := move_ok h
    exact ⟨Bool.not_eq_true _ ▸ hc, list, hm, hb⟩

omit [DecidableEq T] in
lemma ready_eq_some : b.ready t = some item ↔ b.list.threads[t]? = some (.ready (.outside (.idle item))) := by
  rw [ready]
  split
  · rename_i item' ht
    simp [ht]
  · rename_i hne
    constructor
    · intro h
      cases h
    · intro h
      exact absurd h (hne item)

omit [DecidableEq T] in
lemma under_of_ready (h : b.ready t = none) : Under t b.list := by
  intro item ht
  rw [ready_eq_some.mpr ht] at h
  cases h

lemma go_ok (h : b.go t = some (.ok b')) : b.calling t = true ∧ Under t b.list ∧
    ∃ list, b.list.Moves (client T).code (t, none) list ∧
    b' = { b with list := list, removed := b.removed ++
      (list.memory.data.taken.drop b.list.memory.data.taken.length).map fun item => (t, item) } := by
  rw [go] at h
  split at h
  · rename_i hc
    obtain ⟨list, hm, hb⟩ := move_ok h
    exact ⟨hc.1, under_of_ready hc.2, list, hm, hb⟩
  · cases h

omit [DecidableEq T] in
lemma leave_ok (h : b.leave t = some (item, b')) : b.calling t = true ∧
    b.list.threads[t]? = some (.ready (.outside (.idle item))) ∧
    b' = ⟨b.list, Function.update b.calling t false, b.offered, b.removed,
      Function.update b.returned t (b.returned t ++ item.toList)⟩ := by
  rw [leave] at h
  split at h
  · rename_i hc
    obtain ⟨item', hr, h⟩ := Option.map_eq_some_iff.mp h
    cases h
    exact ⟨hc, ready_eq_some.mp hr, rfl⟩
  · cases h

lemma Good.idle_of_ne (h : Good b) (hm : b.list.Moves (client T).code (t, call) list)
    (hg : list.goals.length = b.list.goals.length) (hu : u ≠ t) (hc : b.calling u = false)
    {st : ThreadState (Sem Empty) (MonitorPoint (ListPoint T))} (hst : list.threads[u]? = some st) :
    ∃ item, st = .ready (.outside (.idle item)) := by
  have hlt := (List.getElem?_eq_some_iff.mp hst).1
  simp only [goals, List.length_map] at hg
  have hold : b.list.threads[u]? = some b.list.threads[u] := List.getElem?_eq_getElem (by omega)
  obtain ⟨item, hitem⟩ := h.idle u _ hc hold
  rw [hitem] at hold
  have hnew := ready_of_ne hm hu hold
  exact ⟨item, Option.some.inj (hst.symm.trans hnew)⟩

lemma Good.enter (h : Good b) (ht : t ≠ 0 → call = none) (he : b.enter t call = some (.ok b')) : Good b' := by
  obtain ⟨hcall, list, hm, rfl⟩ := enter_ok he
  obtain ⟨st, hst⟩ : ∃ st, b.list.threads[t]? = some st := by
    rw [Moves, Concurrent.move] at hm
    cases hst : b.list.threads[t]? with
    | none => simp [hst] at hm
    | some st => exact ⟨st, rfl⟩
  obtain ⟨old, rfl⟩ := h.idle t st hcall hst
  have hgoal := goals_getElem? hst
  cases listGoes hm with
  | enter _ hd hg ho hh =>
    rename_i g'
    have hlt := (List.getElem?_eq_some_iff.mp hgoal).1
    refine ⟨?_, ?_, ?_, ?_, ?_, ?_⟩
    · rw [hd]
      exact h.fifo
    · rw [hd]
      simpa using h.removed
    · intro u st hu hst
      dsimp only at hu
      have hne : u ≠ t := by
        rintro rfl
        simp at hu
      rw [Function.update_of_ne hne] at hu
      exact h.idle_of_ne hm (by rw [hg, List.length_set]) hne hu hst
    · rw [hd, hg, h.offered]
      rcases eq_or_ne t 0 with rfl | hne
      · have hnone : offering (ThreadState.goal (.ready (.outside (.idle old)) :
            ThreadState (Sem Empty) (MonitorPoint (ListPoint T)))) = [] := rfl
        rw [List.getElem?_set_self hlt, hgoal, Option.map_some, Option.map_some, hnone, ho]
        simp
      · rw [List.getElem?_set_ne hne, ht hne]
        simp
    · intro u c hu hc
      rw [hg] at hc
      rcases eq_or_ne t u with rfl | hne
      · rw [List.getElem?_set_self hlt] at hc
        cases hc
        rw [ho, ht hu]
        rfl
      · rw [List.getElem?_set_ne hne] at hc
        exact h.others u c hu hc
    · intro u
      rw [hd, List.drop_length, List.map_nil, List.append_nil, hg, h.returned u]
      dsimp only
      rcases eq_or_ne u t with rfl | hne
      · simp [hcall, hlt, hh]
      · simp [Function.update_of_ne hne, List.getElem?_set_ne hne.symm]
  | pass hr => exact absurd hst (hr old)
  | append hr => exact absurd hst (hr old)
  | remove hr => exact absurd hst (hr old)

lemma Good.go (h : Good b) (he : b.go t = some (.ok b')) : Good b' := by
  obtain ⟨hcall, hunder, list, hm, rfl⟩ := go_ok he
  have hother : ∀ {g'}, list.goals = b.list.goals.set t g' →
      ∀ u st, b.calling u = false → list.threads[u]? = some st →
      ∃ item, st = .ready (.outside (.idle item)) := by
    intro g' hg u st hu hst
    have hne : u ≠ t := by
      rintro rfl
      rw [hcall] at hu
      cases hu
    exact h.idle_of_ne hm (by rw [hg, List.length_set]) hne hu hst
  cases listGoes hm with
  | enter ht => exact absurd ht (hunder _)
  | pass _ hgoal hd hg ho hh =>
    have hlt := (List.getElem?_eq_some_iff.mp hgoal).1
    refine ⟨?_, ?_, hother hg, ?_, ?_, ?_⟩
    · rw [hd]
      exact h.fifo
    · rw [hd]
      simpa using h.removed
    · rw [hd, hg, h.offered]
      rcases eq_or_ne t 0 with rfl | hne
      · rw [List.getElem?_set_self hlt, hgoal, Option.map_some, Option.map_some, ho]
      · rw [List.getElem?_set_ne hne]
    · intro u c hu hc
      rw [hg] at hc
      rcases eq_or_ne t u with rfl | hne
      · rw [List.getElem?_set_self hlt] at hc
        cases hc
        rw [ho]
        exact h.others t _ hu hgoal
      · rw [List.getElem?_set_ne hne] at hc
        exact h.others u c hu hc
    · intro u
      rw [hd, List.drop_length, List.map_nil, List.append_nil, hg, h.returned u]
      rcases eq_or_ne u t with rfl | hne
      · rw [List.getElem?_set_self hlt, hgoal, Option.map_some, Option.map_some, hh]
      · rw [List.getElem?_set_ne hne.symm]
  | append _ hgoal ho hh hlist hadded htaken hg ho' hh' =>
    have hlt := (List.getElem?_eq_some_iff.mp hgoal).1
    have hzero : t = 0 := by
      by_contra hne
      rw [h.others t _ hne hgoal] at ho
      cases ho
    subst hzero
    refine ⟨?_, ?_, hother hg, ?_, ?_, ?_⟩
    · rw [hadded, htaken, hlist, h.fifo, List.append_assoc]
    · rw [htaken]
      simpa using h.removed
    · rw [hadded, hg, h.offered, List.getElem?_set_self hlt, hgoal, Option.map_some, Option.map_some, ho, ho']
      simp
    · intro u c hu hc
      rw [hg, List.getElem?_set_ne hu.symm] at hc
      exact h.others u c hu hc
    · intro u
      rw [htaken, List.drop_length, List.map_nil, List.append_nil, hg, h.returned u]
      rcases eq_or_ne u 0 with rfl | hne
      · rw [List.getElem?_set_self hlt, hgoal, Option.map_some, Option.map_some, hh, hh']
      · rw [List.getElem?_set_ne hne.symm]
  | remove _ hgoal ho hh hlist hadded htaken hg ho' hh' =>
    rename_i g g' item _
    have hlt := (List.getElem?_eq_some_iff.mp hgoal).1
    have hdrop : list.memory.data.taken.drop b.list.memory.data.taken.length = [item] := by
      rw [htaken, List.drop_left]
    refine ⟨?_, ?_, hother hg, ?_, ?_, ?_⟩
    · rw [hadded, htaken, h.fifo, hlist, List.append_assoc, List.singleton_append]
    · rw [hdrop, htaken, ← h.removed]
      simp
    · rw [hadded, hg, h.offered]
      rcases eq_or_ne t 0 with rfl | hne
      · rw [List.getElem?_set_self hlt, hgoal, Option.map_some, Option.map_some, ho, ho']
      · rw [List.getElem?_set_ne hne]
    · intro u c hu hc
      rw [hg] at hc
      rcases eq_or_ne t u with rfl | hne
      · rw [List.getElem?_set_self hlt] at hc
        cases hc
        exact ho'
      · rw [List.getElem?_set_ne hne] at hc
        exact h.others u c hu hc
    · intro u
      rw [hdrop, List.filter_append, List.map_append, hg, h.returned u]
      rcases eq_or_ne u t with rfl | hne
      · rw [List.getElem?_set_self hlt, hgoal, Option.map_some, Option.map_some, hh, hh']
        simp [hcall]
      · simp [hne.symm, List.getElem?_set_ne hne.symm]

omit [DecidableEq T] in
lemma Good.leave (h : Good b) (he : b.leave t = some (item, b')) : Good b' := by
  obtain ⟨hcall, hready, rfl⟩ := leave_ok he
  refine ⟨h.fifo, h.removed, ?_, h.offered, h.others, ?_⟩
  · intro u st hu hst
    rcases eq_or_ne u t with rfl | hne
    · exact ⟨item, Option.some.inj (hst.symm.trans hready)⟩
    · dsimp only at hu
      rw [Function.update_of_ne hne] at hu
      exact h.idle u st hu hst
  · intro u
    dsimp only
    rw [h.returned u]
    rcases eq_or_ne u t with rfl | hne
    · have hhold : (b.list.goals[u]?.map holding).getD [] = item.toList := by
        rw [goals_getElem? hready]
        rfl
      simp [hcall, hhold]
    · simp [Function.update_of_ne hne]

omit [DecidableEq T] in
lemma Good.start (T : Type) (n : ℕ) : Good (Box.start T n) := by
  have hgoals : (SynchList.start T (n + 1)).goals = List.replicate (n + 1) (.outside (.idle none)) := by
    rw [SynchList.start, Client.start, goals_start, List.map_replicate]
  refine ⟨rfl, rfl, ?_, ?_, ?_, ?_⟩
  · intro t st _ hst
    have hmem := List.mem_of_getElem? hst
    simp only [Box.start, SynchList.start, Client.start, Concurrent.start,
        List.map_replicate, List.mem_replicate] at hmem
    exact ⟨none, hmem.2⟩
  · rw [Box.start, hgoals]
    rfl
  · intro t c _ hc
    rw [Box.start, hgoals] at hc
    have hmem := List.mem_of_getElem? hc
    rw [(List.mem_replicate.mp hmem).2]
    rfl
  · intro t
    rfl

end Calls

end Box

end NachosFileSys
