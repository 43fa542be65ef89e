import NachosFileSys.Lib.Programs

/-! Programs that run beside others and take turns with them at every request. What a program relies
on is in a ledger, which the others may change too. -/

namespace NachosFileSys.Lib.Programs.Prog

variable {E : Type} {R : E → Type} {G α β : Type}

/-- How the others may change the ledger between two requests, what a request does to it, and which
answers there are. -/
structure Terms (E : Type) (R : E → Type) (G : Type) where
  others : G → G → Prop
  acts : G → E → G → Prop
  answers : G → (e : E) → R e → Prop

/-- Every request of the program is one that the terms allow, whatever the others do, and it returns
as `Q` says. -/
def Safe (T : Terms E R G) (Q : G → α → Prop) : Prog E R α → G → Prop
  | .pure a, g => Q g a
  | .request e k, g => ∀ g₁, T.others g g₁ → ∃ g₂, T.acts g₁ e g₂ ∧ ∀ r, T.answers g₁ e r → Safe T Q (k r) g₂

namespace Safe

variable {T : Terms E R G} {Q : G → α → Prop} {g g₁ : G} {p : Prog E R α} {e : E} {k : R e → Prog E R α} {a : α}

lemma pure_iff : Safe T Q (Pure.pure a) g ↔ Q g a := .rfl

lemma request_iff : Safe T Q (.request e k) g ↔
    ∀ g₁, T.others g g₁ → ∃ g₂, T.acts g₁ e g₂ ∧ ∀ r, T.answers g₁ e r → Safe T Q (k r) g₂ := .rfl

attribute [irreducible] Safe

lemma pure (h : Q g a) : Safe T Q (Pure.pure a) g := pure_iff.mpr h

lemma request (h : ∀ g₁, T.others g g₁ → ∃ g₂, T.acts g₁ e g₂ ∧ ∀ r, T.answers g₁ e r → Safe T Q (k r) g₂) :
    Safe T Q (.request e k) g :=
  request_iff.mpr h

lemma bind {Q' : G → β → Prop} {f : α → Prog E R β} (hp : Safe T Q p g) (hf : ∀ a g, Q g a → Safe T Q' (f a) g) :
    Safe T Q' (p >>= f) g := by
  induction p generalizing g with
  | pure a => exact hf a g (pure_iff.mp hp)
  | request e k ih =>
    refine request fun g₁ hg => ?_
    obtain ⟨g₂, he, hk⟩ := request_iff.mp hp g₁ hg
    exact ⟨g₂, he, fun r hr => ih r (hk r hr)⟩

lemma mono {Q' : G → α → Prop} (hp : Safe T Q p g) (hQ : ∀ a g, Q g a → Q' g a) : Safe T Q' p g := by
  have h := hp.bind fun a g ha => pure (T := T) (Q := Q') (hQ a g ha)
  rwa [bind_pure] at h

lemma others (hT : ∀ g₁ g₂, T.others g g₁ → T.others g₁ g₂ → T.others g g₂) (hQ : ∀ a, Q g a → Q g₁ a)
    (hg : T.others g g₁) (hp : Safe T Q p g) : Safe T Q p g₁ := by
  cases p with
  | pure a => exact pure (hQ a (pure_iff.mp hp))
  | request e k => exact request fun g₂ hg₂ => request_iff.mp hp g₂ (hT g₁ g₂ hg hg₂)

lemma of_all {P : E → Prop} {I : G → Prop} (hP : ∀ e g, P e → T.acts g e g)
    (hI : ∀ g g₁, I g → T.others g g₁ → I g₁)
    (hp : p.All P) (hg : I g) : Safe T (fun g _ => I g) p g := by
  induction p generalizing g with
  | pure a => exact pure hg
  | request e k ih =>
    refine request fun g₁ hg₁ => ?_
    exact ⟨g₁, hP e g₁ hp.1, fun r _ => ih r (hp.2 r) (hI g g₁ hg hg₁)⟩

end Safe

end NachosFileSys.Lib.Programs.Prog
