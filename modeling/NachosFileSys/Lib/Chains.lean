import Mathlib.Tactic

namespace NachosFileSys.Lib.Chains

variable {T : Type}

structure Cell (T : Type) where
  item : T
  next : Option ℕ

/-- Cells by their addresses. An address is handed out once, so that a cell that is freed is not met again. -/
structure Heap (T : Type) where
  cells : ℕ → Option (Cell T)
  limit : ℕ
  fresh (a : ℕ) (h : limit ≤ a) : cells a = none

namespace Heap

def empty : Heap T := ⟨fun _ => none, 0, fun _ _ => rfl⟩

def alloc (h : Heap T) (c : Cell T) : Heap T where
  cells := Function.update h.cells h.limit (some c)
  limit := h.limit + 1
  fresh a ha := by
    rw [Function.update_of_ne (by omega)]
    exact h.fresh a (by omega)

def free (h : Heap T) (a : ℕ) : Heap T where
  cells := Function.update h.cells a none
  limit := h.limit
  fresh b hb := by
    rw [Function.update_apply]
    split
    · rfl
    · exact h.fresh b hb

def link (h : Heap T) (a : ℕ) (next : Option ℕ) : Heap T where
  cells := Function.update h.cells a ((h.cells a).map fun c => { c with next := next })
  limit := h.limit
  fresh b hb := by
    rw [Function.update_apply]
    split
    · rename_i hba
      rw [← hba, h.fresh b hb]
      rfl
    · exact h.fresh b hb

variable {h : Heap T} {a b : ℕ} {c : Cell T} {next : Option ℕ}

lemma alloc_self (h : Heap T) (c : Cell T) : (h.alloc c).cells h.limit = some c := Function.update_self _ _ _

lemma alloc_of_ne (hb : b ≠ h.limit) : (h.alloc c).cells b = h.cells b := Function.update_of_ne hb _ _

lemma free_of_ne (hb : b ≠ a) : (h.free a).cells b = h.cells b := Function.update_of_ne hb _ _

lemma link_self (ha : h.cells a = some c) : (h.link a next).cells a = some { c with next := next } := by
  refine (Function.update_self _ _ _).trans ?_
  rw [ha]
  rfl

lemma link_of_ne (hb : b ≠ a) : (h.link a next).cells b = h.cells b := Function.update_of_ne hb _ _

lemma lt_limit (ha : h.cells a = some c) : a < h.limit := by
  by_contra hle
  rw [h.fresh a (not_lt.mp hle)] at ha
  cases ha

end Heap

def Seg (h : Heap T) : Option ℕ → List (ℕ × T) → Option ℕ → Prop
  | p, [], q => p = q
  | p, x :: l, q => p = some x.1 ∧ ∃ next, h.cells x.1 = some ⟨x.2, next⟩ ∧ Seg h next l q

namespace Seg

variable {h h' : Heap T} {p q m : Option ℕ} {l l₁ l₂ : List (ℕ × T)} {a : ℕ} {x : T} {c : Cell T}

lemma append_iff : Seg h p (l₁ ++ l₂) q ↔ ∃ m, Seg h p l₁ m ∧ Seg h m l₂ q := by
  induction l₁ generalizing p with
  | nil =>
    constructor
    · exact fun hl => ⟨p, rfl, hl⟩
    · rintro ⟨m, rfl, hl⟩
      exact hl
  | cons y l ih =>
    constructor
    · rintro ⟨hp, next, hy, hl⟩
      obtain ⟨m, h₁, h₂⟩ := ih.mp hl
      exact ⟨m, ⟨hp, next, hy, h₁⟩, h₂⟩
    · rintro ⟨m, ⟨hp, next, hy, h₁⟩, h₂⟩
      exact ⟨hp, next, hy, ih.mpr ⟨m, h₁, h₂⟩⟩

lemma append (h₁ : Seg h p l₁ m) (h₂ : Seg h m l₂ q) : Seg h p (l₁ ++ l₂) q := append_iff.mpr ⟨m, h₁, h₂⟩

lemma cons (ha : h.cells a = some ⟨x, m⟩) (hl : Seg h m l q) : Seg h (some a) ((a, x) :: l) q := ⟨rfl, m, ha, hl⟩

lemma congr (hl : Seg h p l q) (hc : ∀ y ∈ l, h'.cells y.1 = h.cells y.1) : Seg h' p l q := by
  induction l generalizing p with
  | nil => exact hl
  | cons y l ih =>
    obtain ⟨hp, next, hy, hl⟩ := hl
    exact ⟨hp, next, (hc y List.mem_cons_self).trans hy, ih hl fun z hz => hc z (List.mem_cons_of_mem _ hz)⟩

lemma exists_cell (hl : Seg h p l q) {y : ℕ × T} (hy : y ∈ l) : ∃ next, h.cells y.1 = some ⟨y.2, next⟩ := by
  induction l generalizing p with
  | nil => exact absurd hy List.not_mem_nil
  | cons z l ih =>
    obtain ⟨-, next, hz, hl⟩ := hl
    rcases List.mem_cons.mp hy with rfl | hy
    · exact ⟨next, hz⟩
    · exact ih hl hy

lemma lt_limit (hl : Seg h p l q) {y : ℕ × T} (hy : y ∈ l) : y.1 < h.limit := by
  obtain ⟨next, hc⟩ := hl.exists_cell hy
  exact Heap.lt_limit hc

lemma alloc (hl : Seg h p l q) (c : Cell T) : Seg (h.alloc c) p l q :=
  hl.congr fun _ hy => Heap.alloc_of_ne (ne_of_lt (hl.lt_limit hy))

lemma free (hl : Seg h p l q) (ha : a ∉ l.map Prod.fst) : Seg (h.free a) p l q :=
  hl.congr fun _ hy => Heap.free_of_ne fun he => ha (he ▸ List.mem_map_of_mem hy)

lemma link (hl : Seg h p l q) (ha : a ∉ l.map Prod.fst) (next : Option ℕ) : Seg (h.link a next) p l q :=
  hl.congr fun _ hy => Heap.link_of_ne fun he => ha (he ▸ List.mem_map_of_mem hy)

lemma length_le (hl : Seg h p l q) (hn : (l.map Prod.fst).Nodup) : l.length ≤ h.limit := by
  have hsub : (l.map Prod.fst).toFinset ⊆ Finset.range h.limit := by
    intro a ha
    obtain ⟨y, hy, rfl⟩ := List.mem_map.mp (List.mem_toFinset.mp ha)
    exact Finset.mem_range.mpr (hl.lt_limit hy)
  have hcard := Finset.card_le_card hsub
  rwa [List.toFinset_card_of_nodup hn, List.length_map, Finset.card_range] at hcard

lemma link_last (hl : Seg h p (l ++ [(a, x)]) q) (ha : a ∉ l.map Prod.fst) (next : Option ℕ) :
    Seg (h.link a next) p (l ++ [(a, x)]) next := by
  obtain ⟨m, h₁, rfl, q', hc, -⟩ := append_iff.mp hl
  exact (h₁.link ha next).append (cons (Heap.link_self hc) rfl)

end Seg

end NachosFileSys.Lib.Chains
