import Mathlib.Data.Set.Card
import Mathlib.Data.Set.Finite.Basic
import Mathlib.Tactic

namespace NachosFileSys.Lib.Trees

variable {α : Type} {children : α → List α} {root x y z : α} {m n : ℕ}

inductive Below (children : α → List α) (x : α) : ℕ → α → Prop
  | self : Below children x 0 x
  | child {n : ℕ} {y z : α} : Below children x n y → z ∈ children y → Below children x (n + 1) z

structure Rooted (children : α → List α) (root : α) : Prop where
  parentless : ∀ {n x}, Below children root n x → root ∉ children x
  unique : ∀ {m n x y z}, Below children root m x → Below children root n y →
      z ∈ children x → z ∈ children y → x = y
  nodup : ∀ {n x}, Below children root n x → (children x).Nodup

def preorder (children : α → List α) : ℕ → α → Option (List α)
  | 0, x => if (children x).isEmpty then some [x] else none
  | fuel + 1, x => ((children x).mapM (preorder children fuel)).map fun ls => x :: ls.flatten

namespace Below

lemma zero_iff : Below children x 0 y ↔ x = y := by
  constructor
  · intro h
    cases h
    rfl
  · rintro rfl
    exact self

lemma trans (h : Below children x m y) (h' : Below children y n z) : Below children x (m + n) z := by
  induction h' with
  | self => exact h
  | child _ hz ih => exact child ih hz

lemma succ_iff : Below children x (n + 1) z ↔ ∃ y ∈ children x, Below children y n z := by
  constructor
  · intro h
    generalize hm : n + 1 = m at h
    induction h generalizing n with
    | self => cases hm
    | @child k y z hy hz ih =>
      obtain rfl : n = k := by omega
      cases n with
      | zero =>
        rw [zero_iff] at hy
        exact ⟨z, hy ▸ hz, self⟩
      | succ n =>
        obtain ⟨w, hw, hb⟩ := ih rfl
        exact ⟨w, hw, child hb hz⟩
  · rintro ⟨y, hy, hb⟩
    rw [Nat.add_comm]
    exact (child self hy).trans hb

lemma exists_of_le (h : Below children x n z) (hm : m ≤ n) : ∃ y, Below children x m y := by
  induction h with
  | self =>
    obtain rfl : m = 0 := by omega
    exact ⟨x, self⟩
  | @child k y z hy hz ih =>
    by_cases he : m = k + 1
    · exact ⟨z, he ▸ child hy hz⟩
    · exact ih (by omega)

end Below

namespace Rooted

lemma depth_eq (hr : Rooted children root) (h : Below children root m x) :
    ∀ {n : ℕ}, Below children root n x → m = n := by
  induction h with
  | self =>
    intro n h'
    cases h' with
    | self => rfl
    | child hy hz => exact absurd hz (hr.parentless hy)
  | child hx hz ih =>
    intro n h'
    cases h' with
    | self => exact absurd hz (hr.parentless hx)
    | child hy hz' =>
      rw [hr.unique hx hy hz hz'] at ih
      rw [ih hy]

lemma eq_of_below (hr : Rooted children root) {k : ℕ} (hx : Below children root k x) (hy : Below children root k y)
    (h : Below children x m z) : Below children y n z → x = y := by
  induction h generalizing n with
  | self =>
    intro h'
    have := hr.depth_eq hx (hy.trans h')
    obtain rfl : n = 0 := by omega
    exact (Below.zero_iff.mp h').symm
  | @child j w z hw hz ih =>
    intro h'
    have := hr.depth_eq (hx.trans (hw.child hz)) (hy.trans h')
    cases h' with
    | self => omega
    | child hw' hz' =>
      rw [hr.unique (hy.trans hw') (hx.trans hw) hz' hz] at hw'
      exact ih hw'

lemma depth_lt (hr : Rooted children root) {s : Set α} (hs : s.Finite)
    (hin : ∀ n x, Below children root n x → x ∈ s)
    (h : Below children root m x) : m < s.ncard := by
  choose node hnode using fun k : Fin (m + 1) => h.exists_of_le (Nat.lt_succ_iff.mp k.isLt)
  have hinj : Function.Injective node := fun k k' he => by
    have hk := hnode k
    rw [he] at hk
    exact Fin.ext (hr.depth_eq hk (hnode k'))
  have hsub : Set.range node ⊆ s := by
    rintro - ⟨k, rfl⟩
    exact hin _ _ (hnode k)
  have hcard := Set.ncard_le_ncard hsub hs
  rw [← Set.image_univ, Set.ncard_image_of_injective _ hinj, Set.ncard_univ, Nat.card_eq_fintype_card,
    Fintype.card_fin] at hcard
  exact hcard

lemma mapM_preorder (hr : Rooted children root) {fuel : ℕ} (hx : Below children root m x) (cs : List α)
    (hcs : cs ⊆ children x) (hnd : cs.Nodup)
    (hsub : ∀ y ∈ cs, ∃ l, preorder children fuel y = some l ∧ l.Nodup ∧ ∀ z, z ∈ l ↔ ∃ n, Below children y n z) :
    ∃ ls, cs.mapM (preorder children fuel) = some ls ∧ ls.flatten.Nodup ∧
      ∀ z, z ∈ ls.flatten ↔ ∃ y ∈ cs, ∃ n, Below children y n z := by
  induction cs with
  | nil => exact ⟨[], rfl, List.nodup_nil, fun z => by simp⟩
  | cons c cs ih =>
    obtain ⟨hc, hcs⟩ := List.cons_subset.mp hcs
    obtain ⟨hnot, hnd⟩ := List.nodup_cons.mp hnd
    obtain ⟨l, hl, hlnd, hmem⟩ := hsub c List.mem_cons_self
    obtain ⟨ls, hls, hlsnd, hmems⟩ := ih hcs hnd fun y hy => hsub y (List.mem_cons_of_mem _ hy)
    refine ⟨l :: ls, by rw [List.mapM_cons, hl, hls]; rfl, ?_, fun z => ?_⟩
    · rw [List.flatten_cons, List.nodup_append]
      refine ⟨hlnd, hlsnd, fun z hz z' hz' he => ?_⟩
      subst he
      obtain ⟨n, hn⟩ := (hmem z).mp hz
      obtain ⟨c', hc', n', hn'⟩ := (hmems z).mp hz'
      have := hr.eq_of_below (hx.child hc) (hx.child (hcs hc')) hn hn'
      subst this
      exact hnot hc'
    · rw [List.flatten_cons, List.mem_append, hmem, hmems]
      simp

lemma preorder_eq (hr : Rooted children root) {s : Set α} (hs : s.Finite)
    (hin : ∀ n x, Below children root n x → x ∈ s) : ∀ {fuel m : ℕ} {x : α}, Below children root m x →
      s.ncard ≤ m + fuel + 1 → ∃ l, preorder children fuel x = some l ∧ l.Nodup ∧
        ∀ y, y ∈ l ↔ ∃ n, Below children x n y := by
  intro fuel
  induction fuel with
  | zero =>
    intro m x hx hle
    have hleaf : children x = [] := by
      rw [List.eq_nil_iff_forall_not_mem]
      intro y hy
      have := hr.depth_lt hs hin (hx.child hy)
      omega
    refine ⟨[x], by rw [preorder, hleaf]; rfl, List.nodup_singleton x, fun y => ?_⟩
    rw [List.mem_singleton]
    constructor
    · rintro rfl
      exact ⟨0, .self⟩
    · rintro ⟨n, hn⟩
      cases n with
      | zero => exact (Below.zero_iff.mp hn).symm
      | succ n =>
        obtain ⟨z, hz, -⟩ := Below.succ_iff.mp hn
        rw [hleaf] at hz
        cases hz
  | succ fuel ih =>
    intro m x hx hle
    obtain ⟨ls, hls, hnd, hmem⟩ := hr.mapM_preorder hx (children x) (List.Subset.refl _) (hr.nodup hx) fun y hy =>
      ih (hx.child hy) (by omega)
    refine ⟨x :: ls.flatten, by rw [preorder, hls]; rfl, List.nodup_cons.mpr ⟨fun hself => ?_, hnd⟩, fun y => ?_⟩
    · obtain ⟨c, hc, n, hn⟩ := (hmem x).mp hself
      have := hr.depth_eq hx ((hx.child hc).trans hn)
      omega
    · rw [List.mem_cons, hmem]
      constructor
      · rintro (rfl | ⟨c, hc, n, hn⟩)
        · exact ⟨0, .self⟩
        · exact ⟨n + 1, Below.succ_iff.mpr ⟨c, hc, hn⟩⟩
      · rintro ⟨n, hn⟩
        cases n with
        | zero => exact Or.inl (Below.zero_iff.mp hn).symm
        | succ n =>
          obtain ⟨c, hc, hn⟩ := Below.succ_iff.mp hn
          exact Or.inr ⟨c, hc, n, hn⟩

end Rooted

end NachosFileSys.Lib.Trees
