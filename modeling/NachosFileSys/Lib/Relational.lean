import NachosFileSys.Lib.Programs

namespace NachosFileSys.Lib.Programs.Prog

variable {E : Type} {R : E → Type} {S F : Type} {α β γ δ : Type}

inductive Rel (P : α → β → Prop) : Prog E R α → Prog E R β → Prop
  | pure {a : α} {b : β} : P a b → Rel P (.pure a) (.pure b)
  | request (e : E) {k : R e → Prog E R α} {k' : R e → Prog E R β} :
    (∀ r, Rel P (k r) (k' r)) → Rel P (.request e k) (.request e k')

lemma Rel.bind {P : α → β → Prop} {Q : γ → δ → Prop} {p : Prog E R α} {q : Prog E R β} {f : α → Prog E R γ}
    {g : β → Prog E R δ} (h : Rel P p q) (hf : ∀ a b, P a b → Rel Q (f a) (g b)) : Rel Q (p >>= f) (q >>= g) := by
  induction h with
  | pure hab => exact hf _ _ hab
  | request e _ ih => exact .request e ih

variable {h : Handler E R S F}

lemma Rel.run {P : α → β → Prop} {T : S → S → Prop}
    (hT : ∀ e s t r s' r' t', T s t → h e s = .ok (r, s') → h e t = .ok (r', t') → r = r' ∧ T s' t')
    {p : Prog E R α} {q : Prog E R β} (hp : Rel P p q) {s t s' t' : S} {a : α} {b : β} (hst : T s t)
    (hs : p.run h s = .ok (a, s')) (ht : q.run h t = .ok (b, t')) : P a b ∧ T s' t' := by
  induction hp generalizing s t with
  | pure hab =>
    cases hs
    cases ht
    exact ⟨hab, hst⟩
  | request e _ ih =>
    rw [run_request] at hs ht
    cases hes : h e s with
    | error x => simp [hes] at hs
    | ok rs =>
      cases het : h e t with
      | error x => simp [het] at ht
      | ok rt =>
        obtain ⟨r, s₁⟩ := rs
        obtain ⟨r', t₁⟩ := rt
        obtain ⟨rfl, hst₁⟩ := hT e s t r s₁ r' t₁ hst hes het
        simp only [hes] at hs
        simp only [het] at ht
        exact ih r hst₁ hs ht

lemma Rel.diag {P : α → α → Prop} {p : Prog E R α} (h : Rel P p p) : Rel (fun a b => a = b ∧ P a b) p p := by
  induction p with
  | pure a =>
    cases h with
    | pure hab => exact .pure ⟨rfl, hab⟩
  | request e k ih =>
    cases h with
    | request _ hk => exact .request e fun r => ih r (hk r)

inductive Returns : Prog E R α → α → Prop
  | pure (a : α) : Returns (.pure a) a
  | request {e : E} {k : R e → Prog E R α} {a : α} (r : R e) : Returns (k r) a → Returns (.request e k) a

inductive Asks : Prog E R α → E → Prop
  | now {e : E} {k : R e → Prog E R α} : Asks (.request e k) e
  | later {e e' : E} {k : R e → Prog E R α} (r : R e) : Asks (k r) e' → Asks (.request e k) e'

lemma All.asks {P : E → Prop} {p : Prog E R α} {e : E} (hp : p.All P) (h : Asks p e) : P e := by
  induction h with
  | now => exact hp.1
  | later r _ ih => exact ih (hp.2 r)

lemma Rel.returns {P : α → β → Prop} {p : Prog E R α} {q : Prog E R β} (h : Rel P p q) {a : α} (ha : Returns p a) :
    ∃ b, P a b := by
  induction h with
  | pure hab =>
    cases ha
    exact ⟨_, hab⟩
  | request e _ ih =>
    cases ha with
    | request r ha => exact ih r ha

inductive Retryable (safe : E → Prop) : Prog E R α → Prop
  | pure (a : α) : Retryable safe (.pure a)
  | last (e : E) (f : R e → α) : Retryable safe (.request e fun r => .pure (f r))
  | request {e : E} {k : R e → Prog E R α} : safe e → (∀ r, Retryable safe (k r)) → Retryable safe (.request e k)

lemma Retryable.map {safe : E → Prop} {p : Prog E R α} (f : α → β) (hp : Retryable safe p) :
    Retryable safe (p >>= fun a => Pure.pure (f a)) := by
  induction hp with
  | pure a => exact .pure (f a)
  | last e g => exact .last e (fun r => f (g r))
  | request he _ ih => exact .request he ih

lemma Retryable.run_error {safe : E → Prop} {I : S → Prop} {J : F → Prop}
    (hsafe : ∀ e s r s', safe e → I s → h e s = .ok (r, s') → I s')
    (herror : ∀ e s x, I s → h e s = .error x → J x)
    {p : Prog E R α} (hp : Retryable safe p) {s : S} {x : F} (hs : I s) (hr : p.run h s = .error x) : J x := by
  induction hp generalizing s with
  | pure a => cases hr
  | last e f =>
    rw [run_request] at hr
    cases he : h e s with
    | error y =>
      rw [he] at hr
      cases hr
      exact herror e s _ hs he
    | ok r => simp [he] at hr
  | request hsafe' _ ih =>
    rename_i e k _
    rw [run_request] at hr
    cases he : h e s with
    | error y =>
      rw [he] at hr
      cases hr
      exact herror e s _ hs he
    | ok r =>
      obtain ⟨r, s₁⟩ := r
      simp only [he] at hr
      exact ih r (hsafe e s r s₁ hsafe' hs he) hr

end NachosFileSys.Lib.Programs.Prog
