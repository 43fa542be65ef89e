import Mathlib.Data.List.Basic

namespace NachosFileSys.Lib.Slots

variable {α κ : Type} {used : α → Bool} {key : α → κ} {l l' : List α} {a b : α} {i : ℕ} {k : κ}

def Distinct (used : α → Bool) (key : α → κ) (l : List α) : Prop :=
  ∀ ⦃i j : ℕ⦄ ⦃a b : α⦄, l[i]? = some a → l[j]? = some b → used a → used b → key a = key b → i = j

lemma Distinct.of_unused (h : ∀ a ∈ l, used a = false) : Distinct used key l := by
  intro i j a b ha _ hu
  rw [h a (List.mem_of_getElem? ha)] at hu
  cases hu

lemma Distinct.occupy (hd : Distinct used key l) (hb : ∀ a ∈ l, used a → key a ≠ key b) (i : ℕ) :
    Distinct used key (l.set i b) := by
  intro m n x y hx hy hux huy hk
  rw [List.getElem?_set] at hx hy
  by_cases hm : i = m
  · by_cases hn : i = n
    · exact hm.symm.trans hn
    · rw [if_neg hn] at hy
      subst hm
      rw [if_pos rfl] at hx
      by_cases hl : i < l.length
      · rw [if_pos hl, Option.some.injEq] at hx
        subst hx
        exact absurd hk.symm (hb y (List.mem_of_getElem? hy) huy)
      · rw [if_neg hl] at hx
        cases hx
  · rw [if_neg hm] at hx
    by_cases hn : i = n
    · subst hn
      rw [if_pos rfl] at hy
      by_cases hl : i < l.length
      · rw [if_pos hl, Option.some.injEq] at hy
        subst hy
        exact absurd hk (hb x (List.mem_of_getElem? hx) hux)
      · rw [if_neg hl] at hy
        cases hy
    · rw [if_neg hn] at hy
      exact hd hx hy hux huy hk

lemma Distinct.vacate (hd : Distinct used key l) (hb : used b = false) (i : ℕ) :
    Distinct used key (l.set i b) := by
  have hold : ∀ {m : ℕ} {x : α}, (l.set i b)[m]? = some x → used x → l[m]? = some x := by
    intro m x hx hu
    rw [List.getElem?_set] at hx
    by_cases hm : i = m
    · rw [if_pos hm] at hx
      by_cases hl : i < l.length
      · rw [if_pos (by omega), Option.some.injEq] at hx
        rw [← hx, hb] at hu
        cases hu
      · rw [if_neg (by omega)] at hx
        cases hx
    · rwa [if_neg hm] at hx
  intro m n x y hx hy hux huy hk
  exact hd (hold hx hux) (hold hy huy) hux huy hk

lemma Distinct.append (hd : Distinct used key l) (h : ∀ a ∈ l', used a = false) : Distinct used key (l ++ l') := by
  have hold : ∀ {m : ℕ} {x : α}, (l ++ l')[m]? = some x → used x → l[m]? = some x := by
    intro m x hx hu
    by_cases hm : m < l.length
    · rwa [List.getElem?_append_left hm] at hx
    · rw [List.getElem?_append_right (by omega)] at hx
      rw [h x (List.mem_of_getElem? hx)] at hu
      cases hu
  intro m n x y hx hy hux huy hk
  exact hd (hold hx hux) (hold hy huy) hux huy hk

variable [DecidableEq κ]

def occupant (used : α → Bool) (key : α → κ) (l : List α) (k : κ) : Option α :=
  l.find? fun a => used a && key a = k

lemma occupant_eq_none : occupant used key l k = none ↔ ∀ a ∈ l, used a → key a ≠ k := by
  simp [occupant]

lemma occupant_spec (h : occupant used key l k = some a) : a ∈ l ∧ used a ∧ key a = k := by
  have hp := List.find?_some h
  exact ⟨List.mem_of_find?_eq_some h, by simpa using hp⟩

lemma occupant_eq_some (hd : Distinct used key l) :
    occupant used key l k = some a ↔ ∃ i : ℕ, l[i]? = some a ∧ used a ∧ key a = k := by
  constructor
  · intro h
    obtain ⟨hm, hu, hk⟩ := occupant_spec h
    obtain ⟨i, hi⟩ := List.mem_iff_getElem?.mp hm
    exact ⟨i, hi, hu, hk⟩
  · rintro ⟨i, hi, hu, hk⟩
    cases h : occupant used key l k with
    | none => exact absurd hk (occupant_eq_none.mp h a (List.mem_of_getElem? hi) hu)
    | some b =>
      obtain ⟨hm, hub, hkb⟩ := occupant_spec h
      obtain ⟨j, hj⟩ := List.mem_iff_getElem?.mp hm
      obtain rfl := hd hi hj hu hub (hk.trans hkb.symm)
      exact hj.symm.trans hi

lemma occupant_occupy (hd : Distinct used key l) (ha : l[i]? = some a) (hua : used a = false) (hub : used b)
    (hb : occupant used key l (key b) = none) (k : κ) :
    occupant used key (l.set i b) k = if k = key b then some b else occupant used key l k := by
  have hd' := hd.occupy (occupant_eq_none.mp hb) i
  have hi : i < l.length := (List.getElem?_eq_some_iff.mp ha).1
  have hself : (l.set i b)[i]? = some b := List.getElem?_set_self hi
  by_cases hk : k = key b
  · rw [if_pos hk]
    exact (occupant_eq_some hd').mpr ⟨i, hself, hub, hk.symm⟩
  · rw [if_neg hk]
    apply Option.ext
    intro c
    rw [occupant_eq_some hd', occupant_eq_some hd]
    constructor
    · rintro ⟨j, hj, hu, hc⟩
      by_cases hij : i = j
      · subst hij
        rw [hself, Option.some.injEq] at hj
        subst hj
        exact absurd hc.symm hk
      · rw [List.getElem?_set_ne hij] at hj
        exact ⟨j, hj, hu, hc⟩
    · rintro ⟨j, hj, hu, hc⟩
      refine ⟨j, ?_, hu, hc⟩
      rw [List.getElem?_set_ne, hj]
      rintro rfl
      rw [ha, Option.some.injEq] at hj
      rw [← hj, hua] at hu
      cases hu

lemma occupant_vacate (hd : Distinct used key l) (ha : l[i]? = some a)
    (hua : used a) (hub : used b = false) (k : κ) :
    occupant used key (l.set i b) k = if k = key a then none else occupant used key l k := by
  have hd' := hd.vacate hub i
  have hi : i < l.length := (List.getElem?_eq_some_iff.mp ha).1
  have hself : (l.set i b)[i]? = some b := List.getElem?_set_self hi
  have hne : ∀ {j : ℕ} {c : α}, (l.set i b)[j]? = some c → used c → i ≠ j := by
    rintro j c hj hu rfl
    rw [hself, Option.some.injEq] at hj
    rw [← hj, hub] at hu
    cases hu
  apply Option.ext
  intro c
  rw [occupant_eq_some hd']
  by_cases hk : k = key a
  · rw [if_pos hk]
    constructor
    · rintro ⟨j, hj, hu, hc⟩
      have hij := hne hj hu
      rw [List.getElem?_set_ne hij] at hj
      exact absurd (hd ha hj hua hu (hk.symm.trans hc.symm)) hij
    · intro h
      cases h
  · rw [if_neg hk, occupant_eq_some hd]
    constructor
    · rintro ⟨j, hj, hu, hc⟩
      rw [List.getElem?_set_ne (hne hj hu)] at hj
      exact ⟨j, hj, hu, hc⟩
    · rintro ⟨j, hj, hu, hc⟩
      refine ⟨j, ?_, hu, hc⟩
      rw [List.getElem?_set_ne, hj]
      rintro rfl
      rw [ha, Option.some.injEq] at hj
      subst hj
      exact hk hc.symm

lemma occupant_append (h : ∀ a ∈ l', used a = false) (k : κ) :
    occupant used key (l ++ l') k = occupant used key l k := by
  have hnone : occupant used key l' k = none := occupant_eq_none.mpr fun a ha hu => by
    rw [h a ha] at hu
    cases hu
  rw [occupant] at hnone
  rw [occupant, List.find?_append, hnone, Option.or_none]
  rfl

end NachosFileSys.Lib.Slots
