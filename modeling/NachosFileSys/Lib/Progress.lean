import NachosFileSys.Lib.Runs

/-! What happens in every run that goes on for as long as it can: a state of the kind `done` is reached within a
number of steps, whichever of the permitted steps are taken. -/

namespace NachosFileSys.Lib.Runs

variable {S O : Type} {next : O → S → S → Prop} {ok : S → O → Prop} {done : S → Prop} {s t : S} {m n : ℕ}

inductive Within (next : O → S → S → Prop) (ok : S → O → Prop) (done : S → Prop) : ℕ → S → Prop
  | now {n : ℕ} {s : S} (h : done s) : Within next ok done n s
  | later {n : ℕ} {s : S} (hlive : ∃ o t, ok s o ∧ next o s t)
      (hall : ∀ o t, ok s o → next o s t → Within next ok done n t) : Within next ok done (n + 1) s

namespace Within

lemma of_rank {I : S → Prop} {rank : S → ℕ} (hI : ∀ o s t, I s → ok s o → next o s t → I t)
    (hrank : ∀ o s t, I s → ok s o → next o s t → rank t < rank s)
    (hlive : ∀ s, I s → done s ∨ ∃ o t, ok s o ∧ next o s t) : ∀ {n : ℕ} {s : S}, I s → rank s ≤ n →
    Within next ok done n s := by
  intro n
  induction n with
  | zero =>
    intro s hs hle
    obtain hd | ⟨o, t, ho, hn⟩ := hlive s hs
    · exact .now hd
    · have hlt := hrank o s t hs ho hn
      omega
  | succ n ih =>
    intro s hs hle
    obtain hd | hstep := hlive s hs
    · exact .now hd
    · apply later hstep
      intro o t ho hn
      have hlt := hrank o s t hs ho hn
      apply ih (hI o s t hs ho hn)
      omega

end Within

inductive Eventually (next : O → S → S → Prop) (ok : S → O → Prop) (done : S → Prop) : S → Prop
  | now {s : S} (h : done s) : Eventually next ok done s
  | later {s : S} (hlive : ∃ o t, ok s o ∧ next o s t)
      (hall : ∀ o t, ok s o → next o s t → Eventually next ok done t) : Eventually next ok done s

namespace Eventually

lemma of_wellFounded {I : S → Prop} {r : S → S → Prop} (hr : WellFounded r)
    (hI : ∀ o s t, I s → ok s o → next o s t → I t) (hlower : ∀ o s t, I s → ok s o → next o s t → r t s)
    (hlive : ∀ s, I s → done s ∨ ∃ o t, ok s o ∧ next o s t) (s : S) (hs : I s) : Eventually next ok done s := by
  induction s using hr.induction with
  | h s ih =>
    obtain hd | hstep := hlive s hs
    · exact .now hd
    · apply later hstep
      intro o t ho hn
      exact ih t (hlower o s t hs ho hn) (hI o s t hs ho hn)

end Eventually

end NachosFileSys.Lib.Runs
