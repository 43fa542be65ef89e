import NachosFileSys.Lib.Results

namespace NachosFileSys.Lib.Refinement

variable {ε σ τ ω ρ : Type}

def runAll {m : Type → Type} [Monad m] (step : σ → ω → m (ρ × σ)) : List ω → σ → m (List ρ × σ)
  | [], s => pure ([], s)
  | op :: ops, s => do
    let (reply, s) ← step s op
    let (replies, s) ← runAll step ops s
    pure (reply :: replies, s)

lemma runAll_cons {g : τ → ω → Option (ρ × τ)} {op : ω} {ops : List ω} {t t'' : τ} {replies : List ρ}
    (h : runAll g (op :: ops) t = some (replies, t'')) :
    ∃ reply rest t', g t op = some (reply, t') ∧ runAll g ops t' = some (rest, t'') ∧ replies = reply :: rest := by
  obtain ⟨x, hx, h⟩ := Option.bind_eq_some_iff.mp h
  obtain ⟨y, hy, h⟩ := Option.bind_eq_some_iff.mp h
  cases h
  exact ⟨x.1, y.1, x.2, hx, hy, rfl⟩

lemma runAll_refines {f : σ → ω → Except ε (ρ × σ)} {g : τ → ω → Option (ρ × τ)} {I : σ → τ → Prop}
    (hstep : ∀ s t op reply t', I s t → g t op = some (reply, t') → ∃ s', f s op = .ok (reply, s') ∧ I s' t')
    {ops : List ω} {s : σ} {t t' : τ} {replies : List ρ} (hI : I s t) (h : runAll g ops t = some (replies, t')) :
    ∃ s', runAll f ops s = .ok (replies, s') ∧ I s' t' := by
  induction ops generalizing s t replies with
  | nil =>
    cases h
    exact ⟨s, rfl, hI⟩
  | cons op ops ih =>
    obtain ⟨reply, rest, t₁, hg, hrest, rfl⟩ := runAll_cons h
    obtain ⟨s₁, hf, hI₁⟩ := hstep _ _ _ _ _ hI hg
    obtain ⟨s', hr, hI'⟩ := ih hI₁ hrest
    refine ⟨s', ?_, hI'⟩
    change (f s op >>= fun x => runAll f ops x.2 >>= fun y => pure (x.1 :: y.1, y.2)) = _
    rw [hf]
    change (runAll f ops s₁ >>= fun y => pure (reply :: y.1, y.2)) = _
    rw [hr]
    rfl

end NachosFileSys.Lib.Refinement
