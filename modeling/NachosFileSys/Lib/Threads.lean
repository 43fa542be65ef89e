import Mathlib.Data.List.Basic
import Mathlib.Logic.Hydra

namespace NachosFileSys.Lib.Threads

variable {S T C : Type}

structure Pool (S T : Type) where
  shared : S
  threads : List T

namespace Pool

variable {move : C → S → T → Option (S × T)} {i j : ℕ} {c : C} {a b : Pool S T}

inductive Moves (move : C → S → T → Option (S × T)) : ℕ × C → Pool S T → Pool S T → Prop
  | mk {i : ℕ} {c : C} {s s' : S} {ts : List T} {t t' : T} (hi : ts[i]? = some t)
      (hm : move c s t = some (s', t')) :
      Moves move (i, c) ⟨s, ts⟩ ⟨s', ts.set i t'⟩

lemma countP_set {p : T → Bool} {ts : List T} {t : T} (hi : ts[i]? = some t) (t' : T) :
    (ts.set i t').countP p + (if p t then 1 else 0) = ts.countP p + if p t' then 1 else 0 := by
  obtain ⟨hlt, rfl⟩ := List.getElem?_eq_some_iff.mp hi
  rw [List.countP_set hlt]
  have hpos : p ts[i] = true → 0 < ts.countP p := fun h => List.countP_pos_iff.mpr ⟨_, List.getElem_mem hlt, h⟩
  split
  · have := hpos ‹_›
    omega
  · omega

lemma two_le_countP {p : T → Bool} {ts : List T} {t u : T} (hi : ts[i]? = some t)
    (hj : ts[j]? = some u) (hij : i ≠ j)
    (ht : p t = true) (hu : p u = true) : 2 ≤ ts.countP p := by
  induction ts generalizing i j with
  | nil => simp at hi
  | cons x ts ih =>
    cases i with
    | zero =>
      cases j with
      | zero => exact absurd rfl hij
      | succ j =>
        obtain rfl : x = t := by simpa using hi
        have hmem : u ∈ ts := List.mem_of_getElem? (by simpa using hj)
        have hpos : 0 < ts.countP p := List.countP_pos_iff.mpr ⟨u, hmem, hu⟩
        rw [List.countP_cons_of_pos ht]
        omega
    | succ i =>
      cases j with
      | zero =>
        obtain rfl : x = u := by simpa using hj
        have hmem : t ∈ ts := List.mem_of_getElem? (by simpa using hi)
        have hpos : 0 < ts.countP p := List.countP_pos_iff.mpr ⟨t, hmem, ht⟩
        rw [List.countP_cons_of_pos hu]
        omega
      | succ j =>
        have hle : 2 ≤ ts.countP p := ih (by simpa using hi) (by simpa using hj) (by omega)
        rw [List.countP_cons]
        omega

lemma countP_succ_le {p q : T → Bool} {ts : List T} {t : T} (hpq : ∀ u ∈ ts, p u = true → q u = true) (ht : t ∈ ts)
    (hp : p t = false) (hq : q t = true) : ts.countP p + 1 ≤ ts.countP q := by
  induction ts with
  | nil => simp at ht
  | cons x ts ih =>
    have hpq' : ∀ u ∈ ts, p u = true → q u = true := fun u hu => hpq u (List.mem_cons_of_mem x hu)
    have hle : ts.countP p ≤ ts.countP q := List.countP_mono_left hpq'
    rcases List.mem_cons.mp ht with rfl | ht
    · simp only [List.countP_cons, hp, hq, Bool.false_eq_true, if_true, if_false]
      omega
    · have := ih hpq' ht
      have hx := hpq x List.mem_cons_self
      simp only [List.countP_cons]
      split <;> split <;> simp_all

inductive Lowers (r : T → T → Prop) : List T → List T → Prop
  | mk {ts : List T} {i : ℕ} {t t' : T} (hi : ts[i]? = some t) (hr : r t' t) : Lowers r (ts.set i t') ts

lemma wellFounded_lowers {r : T → T → Prop} (hr : WellFounded r) : WellFounded (Lowers r) := by
  have hcut : WellFounded (InvImage (Relation.CutExpand r) fun ts : List T => (ts : Multiset T)) :=
    InvImage.wf _ hr.cutExpand
  apply Subrelation.wf _ hcut
  intro ts' ts h
  cases h with
  | mk hi hr =>
    rename_i i t t'
    obtain ⟨hlt, rfl⟩ := List.getElem?_eq_some_iff.mp hi
    refine ⟨{t'}, ts[i], fun u hu => by rwa [Multiset.mem_singleton.mp hu], ?_⟩
    have hset : (ts.set i t' : Multiset T) = t' ::ₘ (ts.eraseIdx i : Multiset T) :=
      Multiset.coe_eq_coe.mpr (List.set_perm_cons_eraseIdx hlt t')
    have hself : (ts : Multiset T) = ts[i] ::ₘ (ts.eraseIdx i : Multiset T) :=
      Multiset.coe_eq_coe.mpr (List.getElem_cons_eraseIdx_perm hlt).symm
    change (ts.set i t' : Multiset T) + {ts[i]} = (ts : Multiset T) + {t'}
    rw [hset, hself, Multiset.cons_add, Multiset.cons_add, Multiset.add_comm _ {ts[i]}, Multiset.add_comm _ {t'},
      Multiset.singleton_add, Multiset.singleton_add, Multiset.cons_swap]

end Pool

end NachosFileSys.Lib.Threads
