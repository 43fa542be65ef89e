import Mathlib.Tactic

namespace NachosFileSys.Lib.Runs

variable {S O : Type} {next : O → S → S → Prop} {ok : S → O → Prop} {s t u : S}

inductive Reaches (next : O → S → S → Prop) (ok : S → O → Prop) (s : S) : S → Prop
  | refl : Reaches next ok s s
  | step {t u : S} (o : O) : Reaches next ok s t → ok t o → next o t u → Reaches next ok s u

namespace Reaches

lemma invariant {I : S → Prop} (hI : ∀ o t u, I t → ok t o → next o t u → I u) (hs : I s)
    (h : Reaches next ok s t) : I t := by
  induction h with
  | refl => exact hs
  | step o _ ho hn ih => exact hI o _ _ ih ho hn

lemma trans (h : Reaches next ok s t) (h' : Reaches next ok t u) : Reaches next ok s u := by
  induction h' with
  | refl => exact h
  | step o _ ho hn ih => exact .step o ih ho hn

end Reaches

inductive Path (next : O → S → S → Prop) (ok : S → Prop) (s : S) : List O → S → Prop
  | nil : Path next ok s [] s
  | snoc {os : List O} {t u : S} (o : O) : Path next ok s os t → ok t → next o t u → Path next ok s (os ++ [o]) u

namespace Path

variable {ok : S → Prop} {os : List O}

lemma invariant {I : List O → S → Prop} (hI : ∀ os o t u, I os t → ok t → next o t u → I (os ++ [o]) u)
    (hs : I [] s)
    (h : Path next ok s os t) : I os t := by
  induction h with
  | nil => exact hs
  | snoc o _ ho hn ih => exact hI _ o _ _ ih ho hn

end Path

end NachosFileSys.Lib.Runs
