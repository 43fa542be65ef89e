import Mathlib.Tactic

namespace NachosFileSys.Lib.Results

variable {ε α β σ : Type}

lemma bind_eq_ok {x : Except ε α} {f : α → Except ε β} {b : β} :
    (x >>= f) = .ok b ↔ ∃ a, x = .ok a ∧ f a = .ok b := by
  cases x with
  | error e => simp [bind, Except.bind]
  | ok a => simp [bind, Except.bind]

lemma foldlM_invariant {f : σ → α → Except ε σ} {I : σ → Prop} (hf : ∀ s a s', I s → f s a = .ok s' → I s')
    {l : List α} {s s' : σ} (hs : I s) (h : l.foldlM f s = .ok s') : I s' := by
  induction l generalizing s with
  | nil =>
    cases h
    exact hs
  | cons a l ih =>
    rw [List.foldlM_cons] at h
    obtain ⟨s₁, h₁, h⟩ := bind_eq_ok.mp h
    exact ih (hf s a s₁ hs h₁) h

lemma foldlM_returns {f : σ → α → Except ε σ} {I : σ → Prop} {E : ε → Prop} {l : List α}
    (hf : ∀ s, ∀ a ∈ l, I s → (∃ s', f s a = .ok s' ∧ I s') ∨ ∃ e, f s a = .error e ∧ E e) {s : σ} (hs : I s) :
    (∃ s', l.foldlM f s = .ok s' ∧ I s') ∨ ∃ e, l.foldlM f s = .error e ∧ E e := by
  induction l generalizing s with
  | nil => exact .inl ⟨s, rfl, hs⟩
  | cons a l ih =>
    rw [List.foldlM_cons]
    obtain ⟨s₁, h₁, hs₁⟩ | ⟨e, h₁, he⟩ := hf s a (by simp) hs
    · rw [h₁]
      exact ih (fun s a ha => hf s a (by simp [ha])) hs₁
    · rw [h₁]
      exact .inr ⟨e, rfl, he⟩

end NachosFileSys.Lib.Results
