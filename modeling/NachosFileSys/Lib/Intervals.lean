import Mathlib.Tactic
import Mathlib.Data.Int.Interval

namespace NachosFileSys.Lib.Intervals

variable {l : List (ℤ × ℤ)} {a v : ℤ}

def covered (l : List (ℤ × ℤ)) (v : ℤ) : Prop := ∃ r ∈ l, r.1 ≤ v ∧ v < r.1 + r.2

def total (l : List (ℤ × ℤ)) : ℤ := (l.map Prod.snd).sum

def Tiles : ℤ → List (ℤ × ℤ) → Prop
  | _, [] => True
  | a, r :: l => r.1 = a ∧ Tiles (a + r.2) l

@[simp] lemma covered_nil : ¬covered [] v := by simp [covered]

@[simp] lemma covered_cons {r : ℤ × ℤ} : covered (r :: l) v ↔ (r.1 ≤ v ∧ v < r.1 + r.2) ∨ covered l v := by
  simp [covered]

@[simp] lemma total_nil : total [] = 0 := rfl

@[simp] lemma total_cons {r : ℤ × ℤ} : total (r :: l) = r.2 + total l := by simp [total]

lemma covered_perm {l' : List (ℤ × ℤ)} (h : l'.Perm l) : covered l' v ↔ covered l v := by
  simp [covered, h.mem_iff]

lemma total_perm {l' : List (ℤ × ℤ)} (h : l'.Perm l) : total l' = total l := (h.map Prod.snd).sum_eq

lemma total_nonneg (hl : ∀ r ∈ l, 0 ≤ r.2) : 0 ≤ total l := by
  induction l with
  | nil => simp
  | cons r l ih =>
    have hr := hl r (by simp)
    have ht := ih fun r h => hl r (by simp [h])
    rw [total_cons]
    omega

lemma Tiles.covered_iff (h : Tiles a l) (hl : ∀ r ∈ l, 0 ≤ r.2) : covered l v ↔ a ≤ v ∧ v < a + total l := by
  induction l generalizing a with
  | nil =>
    simp only [covered_nil, total_nil, add_zero, false_iff]
    omega
  | cons r l ih =>
    obtain ⟨hr, h⟩ := h
    have hrest := total_nonneg fun r h => hl r (List.mem_cons_of_mem _ h)
    have hlen := hl r (by simp)
    rw [covered_cons, ih h fun r h => hl r (by simp [h]), total_cons, hr]
    omega

lemma card_le_total (hl : ∀ r ∈ l, 0 ≤ r.2) : ∀ S : Finset ℤ, (∀ v ∈ S, covered l v) → (S.card : ℤ) ≤ total l := by
  induction l with
  | nil =>
    intro S hS
    have hempty : S = ∅ := Finset.eq_empty_of_forall_notMem fun v hv => covered_nil (hS v hv)
    simp [hempty]
  | cons r l ih =>
    intro S hS
    have hrest := ih (fun r h => hl r (by simp [h])) (S \ Finset.Ico r.1 (r.1 + r.2)) (by
      intro v hv
      rw [Finset.mem_sdiff, Finset.mem_Ico] at hv
      exact (covered_cons.mp (hS v hv.1)).resolve_left hv.2)
    have hcard := Finset.card_le_card_sdiff_add_card (s := S) (t := Finset.Ico r.1 (r.1 + r.2))
    have hlen := hl r (by simp)
    rw [Int.card_Ico] at hcard
    rw [total_cons]
    omega

lemma exists_tiles (hl : ∀ r ∈ l, 0 < r.2) (h : ∀ v, a ≤ v → v < a + total l → covered l v) :
    ∃ order, order.Perm l ∧ Tiles a order := by
  induction hn : l.length generalizing l a with
  | zero => exact ⟨[], by rw [List.length_eq_zero_iff.mp hn], trivial⟩
  | succ n ih =>
    obtain ⟨s, rest, rfl⟩ := List.exists_cons_of_length_eq_add_one hn
    have hs := hl s (by simp)
    have hpos := total_nonneg fun r h => (hl r (List.mem_cons_of_mem s h)).le
    obtain ⟨r, hr, hra, hlt⟩ := h a le_rfl (by rw [total_cons]; omega)
    have hperm := List.perm_cons_erase hr
    have htotal := total_perm hperm
    have hlen := hperm.length_eq
    have hl' : ∀ t ∈ (s :: rest).erase r, 0 < t.2 := fun t ht => hl t (List.mem_of_mem_erase ht)
    rw [total_cons (r := r)] at htotal
    have hrest : ∀ v, r.1 + r.2 ≤ v → v < a + total (s :: rest) → covered ((s :: rest).erase r) v := by
      intro v hv hv'
      have hcov := (covered_perm hperm).mp (h v (by omega) hv')
      exact (covered_cons.mp hcov).resolve_left (by omega)
    -- the others do not suffice for more than what is left
    have hcard := card_le_total (fun t ht => (hl' t ht).le) (Finset.Ico (r.1 + r.2) (a + total (s :: rest))) (by
      intro v hv
      rw [Finset.mem_Ico] at hv
      exact hrest v hv.1 hv.2)
    rw [Int.card_Ico] at hcard
    have hstart : r.1 = a := by omega
    obtain ⟨order, ho, ht⟩ := ih (a := a + r.2) hl' (by
      intro v hv hv'
      exact hrest v (by omega) (by omega))
          (by rw [List.length_cons, List.length_cons] at hlen; rw [List.length_cons] at hn; omega)
    exact ⟨r :: order, (ho.cons r).trans hperm.symm, hstart, ht⟩

end NachosFileSys.Lib.Intervals
