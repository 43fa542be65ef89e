import Mathlib.Tactic
import Mathlib.Logic.Function.Basic

/-! Sequential programs as trees of requests to a machine. The same tree is run to completion by
`Prog.run` and one request at a time by `Prog.Step`. -/

namespace NachosFileSys.Lib.Programs

variable {E : Type} {R : E → Type} {S F : Type} {α β γ : Type}

inductive Prog (E : Type) (R : E → Type) (α : Type) : Type
  | pure (a : α) : Prog E R α
  | request (e : E) (k : R e → Prog E R α) : Prog E R α

abbrev Handler (E : Type) (R : E → Type) (S F : Type) := (e : E) → S → Except F (R e × S)

namespace Prog

def bind : Prog E R α → (α → Prog E R β) → Prog E R β
  | .pure a, f => f a
  | .request e k, f => .request e (fun r => (k r).bind f)

instance : Monad (Prog E R) where
  pure := Prog.pure
  bind := Prog.bind

def send (e : E) : Prog E R (R e) := .request e .pure

@[simp] lemma pure_eq (a : α) : (Prog.pure a : Prog E R α) = Pure.pure a := rfl

@[simp] lemma bind_eq (p : Prog E R α) (f : α → Prog E R β) : p.bind f = p >>= f := rfl

@[simp] lemma pure_bind' (a : α) (f : α → Prog E R β) : (Pure.pure a : Prog E R α) >>= f = f a := rfl

@[simp] lemma request_bind (e : E) (k : R e → Prog E R α) (f : α → Prog E R β) :
    Prog.request e k >>= f = .request e (fun r => k r >>= f) := rfl

lemma bind_pure' (p : Prog E R α) : p >>= Pure.pure = p := by
  induction p with
  | pure a => rfl
  | request e k ih =>
    rw [request_bind]
    congr 1
    funext r
    exact ih r

lemma bind_assoc' (p : Prog E R α) (f : α → Prog E R β) (g : β → Prog E R γ) :
    p >>= f >>= g = p >>= fun a => f a >>= g := by
  induction p with
  | pure a => rfl
  | request e k ih =>
    rw [request_bind, request_bind, request_bind]
    congr 1
    funext r
    exact ih r

instance : LawfulMonad (Prog E R) :=
  LawfulMonad.mk' _ (fun p => bind_pure' p) (fun _ _ => rfl) bind_assoc'

variable (h : Handler E R S F)

def run : Prog E R α → S → Except F (α × S)
  | .pure a, s => .ok (a, s)
  | .request e k, s =>
    match h e s with
    | .ok (r, s') => (k r).run s'
    | .error x => .error x

@[simp] lemma run_pure (a : α) (s : S) : (Pure.pure a : Prog E R α).run h s = .ok (a, s) := rfl

lemma run_request (e : E) (k : R e → Prog E R α) (s : S) :
    (Prog.request e k).run h s =
      match h e s with
      | .ok (r, s') => (k r).run h s'
      | .error x => .error x := by
  rw [run]

lemma run_send (e : E) (s : S) : (send e).run h s = h e s := by
  rw [send, run_request]
  cases h e s <;> rfl

lemma run_bind (p : Prog E R α) (f : α → Prog E R β) (s : S) :
    (p >>= f).run h s =
      match p.run h s with
      | .ok (a, s') => (f a).run h s'
      | .error x => .error x := by
  induction p generalizing s with
  | pure a => rfl
  | request e k ih =>
    rw [request_bind, run_request, run_request]
    cases h e s with
    | error x => rfl
    | ok r => exact ih r.1 r.2

lemma run_bind_ok {p : Prog E R α} {f : α → Prog E R β} {s s' : S} {b : β} :
    (p >>= f).run h s = .ok (b, s') ↔
      ∃ a t, p.run h s = .ok (a, t) ∧ (f a).run h t = .ok (b, s') := by
  rw [run_bind]
  cases p.run h s with
  | error x => simp
  | ok r =>
    constructor
    · intro hr
      exact ⟨r.1, r.2, rfl, hr⟩
    · rintro ⟨a, t, hr, hf⟩
      cases hr
      exact hf

/-- Every request that the program can issue, whatever the answers, satisfies `P`. -/
def All (P : E → Prop) : Prog E R α → Prop
  | .pure _ => True
  | .request e k => P e ∧ ∀ r, (k r).All P

lemma all_pure {P : E → Prop} (a : α) : (Pure.pure a : Prog E R α).All P := trivial

lemma all_send {P : E → Prop} {e : E} (he : P e) : (send e : Prog E R (R e)).All P := ⟨he, fun _ => trivial⟩

lemma All.bind {P : E → Prop} {p : Prog E R α} {f : α → Prog E R β} (hp : p.All P) (hf : ∀ a, (f a).All P) :
    (p >>= f).All P := by
  induction p with
  | pure a => exact hf a
  | request e k ih => exact ⟨hp.1, fun r => ih r (hp.2 r)⟩

lemma All.mono {P Q : E → Prop} (hPQ : ∀ e, P e → Q e) {p : Prog E R α} (hp : p.All P) : p.All Q := by
  induction p with
  | pure a => trivial
  | request e k ih => exact ⟨hPQ e hp.1, fun r => ih r (hp.2 r)⟩

lemma All.run_invariant {P : E → Prop} {I : S → Prop} (hI : ∀ e, P e → ∀ s r s', I s → h e s = .ok (r, s') → I s')
    {p : Prog E R α} (hp : p.All P) {s s' : S} {a : α} (hs : I s) (hr : p.run h s = .ok (a, s')) : I s' := by
  induction p generalizing s with
  | pure b =>
    cases hr
    exact hs
  | request e k ih =>
    rw [run_request] at hr
    cases he : h e s with
    | error x =>
      rw [he] at hr
      cases hr
    | ok r =>
      rw [he] at hr
      exact ih r.1 (hp.2 r.1) (hI e hp.1 s r.1 r.2 hs he) hr

/-- Every request that the program can issue satisfies `P`, as long as the answers satisfy `A`. -/
def Within (A : (e : E) → R e → Prop) (P : E → Prop) : Prog E R α → Prop
  | .pure _ => True
  | .request e k => P e ∧ ∀ r, A e r → (k r).Within A P

lemma All.within {A : (e : E) → R e → Prop} {P : E → Prop} {p : Prog E R α} (hp : p.All P) : p.Within A P := by
  induction p with
  | pure a => trivial
  | request e k ih => exact ⟨hp.1, fun r _ => ih r (hp.2 r)⟩

lemma Within.bind {A : (e : E) → R e → Prop} {P : E → Prop} {p : Prog E R α} {f : α → Prog E R β}
    (hp : p.Within A P) (hf : ∀ a, (f a).Within A P) : (p >>= f).Within A P := by
  induction p with
  | pure a => exact hf a
  | request e k ih => exact ⟨hp.1, fun r hr => ih r (hp.2 r hr)⟩

/-- Every request that the program can issue satisfies `P`, and every result that it can have satisfies `Q`. -/
def Yields (P : E → Prop) (Q : α → Prop) : Prog E R α → Prop
  | .pure a => Q a
  | .request e k => P e ∧ ∀ r, (k r).Yields P Q

lemma Yields.bind {P : E → Prop} {Q : α → Prop} {Q' : β → Prop} {p : Prog E R α} {f : α → Prog E R β}
    (hp : p.Yields P Q) (hf : ∀ a, Q a → (f a).Yields P Q') : (p >>= f).Yields P Q' := by
  induction p with
  | pure a => exact hf a hp
  | request e k ih => exact ⟨hp.1, fun r => ih r (hp.2 r)⟩

lemma All.yields {P : E → Prop} {p : Prog E R α} (hp : p.All P) : p.Yields P fun _ => True := by
  induction p with
  | pure a => trivial
  | request e k ih => exact ⟨hp.1, fun r => ih r (hp.2 r)⟩

/-- The program is what is left of another one after the answer to its first request. -/
inductive Rest : Prog E R α → Prog E R α → Prop
  | mk (e : E) (k : R e → Prog E R α) (r : R e) : Rest (k r) (.request e k)

lemma wellFounded_rest : WellFounded (Rest (E := E) (R := R) (α := α)) := by
  constructor
  intro p
  induction p with
  | pure a =>
    constructor
    intro q hq
    cases hq
  | request e k ih =>
    constructor
    intro q hq
    cases hq with
    | mk _ _ r => exact ih r

end Prog

end NachosFileSys.Lib.Programs
