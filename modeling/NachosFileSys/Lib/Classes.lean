import Mathlib.Tactic

namespace NachosFileSys.Lib.Classes

variable {α : Type} {f : α → ℕ} {p : α → Bool} {i : ℕ} {x : α} {xs ys : List α}

def members (f : α → ℕ) (i : ℕ) (xs : List α) : List α := xs.filter fun x => f x = i

lemma mem_members : x ∈ members f i xs ↔ x ∈ xs ∧ f x = i := by
  rw [members, List.mem_filter, decide_eq_true_iff]

lemma members_perm (h : xs.Perm ys) : (members f i xs).Perm (members f i ys) := h.filter _

lemma members_concat_self (h : f x = i) : members f i (xs ++ [x]) = members f i xs ++ [x] := by
  rw [members, List.filter_append]
  congr 1
  exact List.filter_cons_of_pos (decide_eq_true h)

lemma members_concat_of_ne (h : f x ≠ i) : members f i (xs ++ [x]) = members f i xs := by
  have hnone : [x].filter (fun x => f x = i) = [] := by
    rw [List.filter_eq_nil_iff]
    simpa using h
  rw [members, List.filter_append, hnone, List.append_nil]
  rfl

lemma members_erase [DecidableEq α] : members f i (xs.erase x) = (members f i xs).erase x := List.erase_filter.symm

lemma members_erase_of_ne [DecidableEq α] (h : f x ≠ i) : members f i (xs.erase x) = members f i xs := by
  rw [members_erase]
  exact List.erase_of_not_mem fun hmem => h (mem_members.mp hmem).2

lemma find_members (h : ∀ x, p x → f x = i) : (members f i xs).find? p = xs.find? p := by
  rw [members, List.find?_filter]
  congr 1
  funext x
  rw [Bool.eq_iff_iff, decide_eq_true_iff, decide_eq_true_iff]
  exact ⟨fun hx => hx.2, fun hx => ⟨h x hx, hx⟩⟩

lemma find_perm (h : xs.Perm ys) (hone : ∀ x ∈ xs, ∀ y ∈ xs, p x → p y → x = y) : xs.find? p = ys.find? p := by
  cases hy : ys.find? p with
  | none =>
    rw [List.find?_eq_none] at hy ⊢
    exact fun x hx => hy x (h.mem_iff.mp hx)
  | some y =>
    have hmem := h.mem_iff.mpr (List.mem_of_find?_eq_some hy)
    have hpy := List.find?_some hy
    obtain ⟨x, hx⟩ := Option.isSome_iff_exists.mp (List.find?_isSome.mpr ⟨y, hmem, hpy⟩)
    rw [hx, hone x (List.mem_of_find?_eq_some hx) y hmem (List.find?_some hx) hpy]

lemma flatten_perm {bs : List (List α)}
    (h : ∀ (j : ℕ) (ys : List α), bs[j]? = some ys → ys.Perm (members f (i + j) xs)) :
    bs.flatten.Perm (xs.filter fun x => i ≤ f x ∧ f x < i + bs.length) := by
  induction bs generalizing i with
  | nil =>
    rw [List.flatten_nil, List.filter_eq_nil_iff.mpr]
    intro x _ hx
    have hx := of_decide_eq_true hx
    rw [List.length_nil] at hx
    omega
  | cons b bs ih =>
    have hb := h 0 b rfl
    have hrest := ih (i := i + 1) fun j ys hj => by
      have hj' := h (j + 1) ys hj
      rwa [← Nat.add_assoc, Nat.add_right_comm] at hj'
    rw [List.flatten_cons, List.length_cons]
    refine (hb.append hrest).trans ?_
    -- the class `i` comes first, and then the later ones
    have hsplit :=
      List.filter_append_perm (fun x => decide (f x = i)) (xs.filter fun x => i ≤ f x ∧ f x < i + (bs.length + 1))
    rw [List.filter_filter, List.filter_filter] at hsplit
    have hfirst : xs.filter (fun x => decide (f x = i) && decide (i ≤ f x ∧ f x < i + (bs.length + 1))) =
        members f i xs :=
      List.filter_congr fun x _ => by
        rw [← Bool.decide_and, decide_eq_decide]
        omega
    have hlater : xs.filter (fun x => !decide (f x = i) && decide (i ≤ f x ∧ f x < i + (bs.length + 1))) =
        xs.filter fun x => i + 1 ≤ f x ∧ f x < i + 1 + bs.length :=
      List.filter_congr fun x _ => by
        rw [← decide_not, ← Bool.decide_and, decide_eq_decide]
        omega
    rwa [hfirst, hlater] at hsplit

lemma exists_forall₂ {β : Type} {R : α → β → Prop} {Q : ℕ → β → Prop} {l : List α}
    (h : ∀ (i : ℕ) (a : α), l[i]? = some a → ∃ b, R a b ∧ Q i b) :
    ∃ bs, List.Forall₂ R l bs ∧ ∀ (i : ℕ) (b : β), bs[i]? = some b → Q i b := by
  induction l generalizing Q with
  | nil => exact ⟨[], .nil, fun i b hb => absurd hb (by simp)⟩
  | cons a l ih =>
    obtain ⟨b, hab, hb⟩ := h 0 a rfl
    obtain ⟨bs, hbs, hQ⟩ := ih (Q := fun i => Q (i + 1)) fun i a ha => h (i + 1) a ha
    refine ⟨b :: bs, .cons hab hbs, fun i b' hb' => ?_⟩
    cases i with
    | zero =>
      cases hb'
      exact hb
    | succ i => exact hQ i b' hb'

end NachosFileSys.Lib.Classes
