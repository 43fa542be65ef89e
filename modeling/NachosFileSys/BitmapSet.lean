import NachosFileSys.Bitmap
import NachosFileSys.Lib.Results

namespace NachosFileSys

inductive BitmapOp
  | mark (which : ℤ)
  | clear (which : ℤ)
  | findAndSet
  deriving DecidableEq

namespace BitmapOp

def InRange (n : ℕ) : BitmapOp → Prop
  | .mark which => 0 ≤ which ∧ which < n
  | .clear which => 0 ≤ which ∧ which < n
  | .findAndSet => True

instance (n : ℕ) : DecidablePred (InRange n)
  | .mark which => inferInstanceAs (Decidable (0 ≤ which ∧ which < n))
  | .clear which => inferInstanceAs (Decidable (0 ≤ which ∧ which < n))
  | .findAndSet => inferInstanceAs (Decidable True)

inductive Does (n : ℕ) (s : Finset ℕ) : BitmapOp → Option ℤ → Finset ℕ → Prop
  | mark (i : ℕ) : Does n s (.mark i) none (insert i s)
  | clear (i : ℕ) : Does n s (.clear i) none (s.erase i)
  -- the least index that is not in the set
  | found {i : ℕ} : i < n → i ∉ s → (∀ j < i, j ∈ s) → Does n s .findAndSet (some i) (insert i s)
  | full : (∀ j < n, j ∈ s) → Does n s .findAndSet (some (-1)) s

inductive Run (n : ℕ) : Finset ℕ → List BitmapOp → List (Option ℤ) → Finset ℕ → Prop
  | nil (s : Finset ℕ) : Run n s [] [] s
  | cons {s s' s'' : Finset ℕ} {op : BitmapOp} {ops : List BitmapOp}
      {reply : Option ℤ} {replies : List (Option ℤ)} :
    Does n s op reply s' → Run n s' ops replies s'' → Run n s (op :: ops) (reply :: replies) s''

end BitmapOp

namespace Bitmap

variable {n : ℕ} {b b' : Bitmap n}

def perform (b : Bitmap n) : BitmapOp → Except Fault (Option ℤ × Bitmap n)
  | .mark which => do
    let b ← b.mark which
    pure (none, b)
  | .clear which => do
    let b ← b.clear which
    pure (none, b)
  | .findAndSet => do
    let (i, b) ← b.findAndSet
    pure (some i, b)

def execute (b : Bitmap n) : List BitmapOp → Except Fault (List (Option ℤ) × Bitmap n)
  | [] => .ok ([], b)
  | op :: ops => do
    let (reply, b) ← b.perform op
    let (replies, b) ← b.execute ops
    pure (reply :: replies, b)

def members (b : Bitmap n) : Finset ℕ := (Finset.range n).filter fun i => b.bit i

lemma mem_members {i : ℕ} : i ∈ b.members ↔ i < n ∧ b.bit i = true := by
  rw [members, Finset.mem_filter, Finset.mem_range]

lemma members_empty : (empty n).members = ∅ := by
  apply Finset.eq_empty_of_forall_notMem
  intro i hi
  obtain ⟨hlt, hbit⟩ := mem_members.mp hi
  rw [bit_empty i hlt] at hbit
  exact Bool.false_ne_true hbit

lemma members_mark {i : ℕ} (h : i < n) (hb : ∀ j < n, b'.bit j = (b.bit j || decide (j = i))) :
    b'.members = insert i b.members := by
  ext j
  rw [mem_members, Finset.mem_insert, mem_members]
  constructor
  · rintro ⟨hj, hbit⟩
    rw [hb j hj, Bool.or_eq_true, decide_eq_true_iff] at hbit
    exact hbit.symm.imp id fun hbit => ⟨hj, hbit⟩
  · rintro (rfl | ⟨hj, hbit⟩)
    · exact ⟨h, by rw [hb j h, decide_eq_true rfl, Bool.or_true]⟩
    · exact ⟨hj, by rw [hb j hj, hbit, Bool.true_or]⟩

lemma members_clear {i : ℕ} (hb : ∀ j < n, b'.bit j = (b.bit j && !decide (j = i))) :
    b'.members = b.members.erase i := by
  ext j
  rw [mem_members, Finset.mem_erase, mem_members]
  constructor
  · rintro ⟨hj, hbit⟩
    rw [hb j hj, Bool.and_eq_true, Bool.not_eq_true', decide_eq_false_iff_not] at hbit
    exact ⟨hbit.2, hj, hbit.1⟩
  · rintro ⟨hne, hj, hbit⟩
    exact ⟨hj, by rw [hb j hj, hbit, decide_eq_false hne]; rfl⟩

lemma free_least {i : ℕ} {rest : List ℕ} (h : b.free = i :: rest) : ∀ j < i, b.bit j = true := by
  intro j hj
  have hi := (mem_free.mp (h ▸ List.mem_cons_self : i ∈ b.free)).1
  have hsorted : b.free.Pairwise (· < ·) := List.pairwise_lt_range.filter _
  rw [h, List.pairwise_cons] at hsorted
  by_contra hclear
  have hmem : j ∈ b.free := mem_free.mpr ⟨lt_trans hj hi, Bool.eq_false_of_not_eq_true hclear⟩
  rw [h, List.mem_cons] at hmem
  rcases hmem with rfl | hmem
  · exact lt_irrefl _ hj
  · exact absurd (hsorted.1 j hmem) (by omega)

lemma perform_does (b : Bitmap n) {op : BitmapOp} (h : op.InRange n) :
    ∃ reply b', b.perform op = .ok (reply, b') ∧ op.Does n b.members reply b'.members := by
  cases op with
  | mark which =>
    obtain ⟨i, rfl⟩ := Int.eq_ofNat_of_zero_le h.1
    have hi : i < n := by exact_mod_cast h.2
    obtain ⟨b', hm, hb⟩ := mark_spec b i hi
    refine ⟨none, b', by rw [perform, hm]; rfl, ?_⟩
    rw [members_mark hi hb]
    exact .mark i
  | clear which =>
    obtain ⟨i, rfl⟩ := Int.eq_ofNat_of_zero_le h.1
    have hi : i < n := by exact_mod_cast h.2
    obtain ⟨b', hc, hb⟩ := clear_spec b i hi
    refine ⟨none, b', by rw [perform, hc]; rfl, ?_⟩
    rw [members_clear hb]
    exact .clear i
  | findAndSet =>
    cases hfree : b.free with
    | nil =>
      refine ⟨some (-1), b, by rw [perform, findAndSet_full b hfree]; rfl, .full fun j hj => ?_⟩
      by_contra hmem
      have hclear : b.bit j = false := Bool.eq_false_of_not_eq_true fun hbit => hmem (mem_members.mpr ⟨hj, hbit⟩)
      have hin := mem_free.mpr ⟨hj, hclear⟩
      rw [hfree] at hin
      exact absurd hin List.not_mem_nil
    | cons i rest =>
      obtain ⟨hi, hclear⟩ := mem_free.mp (hfree ▸ List.mem_cons_self : i ∈ b.free)
      obtain ⟨b', hf, -, hb⟩ := findAndSet_cons b hfree
      refine ⟨some i, b', by rw [perform, hf]; rfl, ?_⟩
      rw [members_mark hi hb]
      refine .found hi (fun hmem => ?_) fun j hj => mem_members.mpr ⟨lt_trans hj hi, free_least hfree j hj⟩
      rw [(mem_members.mp hmem).2] at hclear
      exact absurd hclear.symm Bool.false_ne_true

lemma execute_run (ops : List BitmapOp) : ∀ (b : Bitmap n), (∀ op ∈ ops, op.InRange n) →
    ∃ replies b', b.execute ops = .ok (replies, b') ∧ BitmapOp.Run n b.members ops replies b'.members := by
  induction ops with
  | nil => exact fun b _ => ⟨[], b, rfl, .nil _⟩
  | cons op ops ih =>
    intro b h
    obtain ⟨reply, b₁, hp, hdoes⟩ := b.perform_does (h op List.mem_cons_self)
    obtain ⟨replies, b₂, he, hrun⟩ := ih b₁ fun op' hop' => h op' (List.mem_cons_of_mem _ hop')
    refine ⟨reply :: replies, b₂, ?_, .cons hdoes hrun⟩
    rw [execute, hp]
    change (b₁.execute ops >>= fun x => pure (reply :: x.1, x.2)) = _
    rw [he]
    rfl

lemma test_members (b : Bitmap n) {which : ℤ} (h₀ : 0 ≤ which) (h₁ : which < n) :
    b.test which = .ok (decide (which.toNat ∈ b.members)) := by
  obtain ⟨i, rfl⟩ := Int.eq_ofNat_of_zero_le h₀
  have hi : i < n := by exact_mod_cast h₁
  rw [test_eq b i hi, Int.toNat_natCast]
  congr 1
  rw [Bool.eq_iff_iff, decide_eq_true_iff, mem_members]
  exact (and_iff_right hi).symm

lemma numClear_members (b : Bitmap n) : b.numClear = .ok (n - b.members.card : ℤ) := by
  have hfree : b.free.toFinset = Finset.range n \ b.members := by
    ext i
    rw [List.mem_toFinset, mem_free, Finset.mem_sdiff, Finset.mem_range, mem_members, not_and, Bool.not_eq_true]
    exact ⟨fun h => ⟨h.1, fun _ => h.2⟩, fun h => ⟨h.1, h.2 h.1⟩⟩
  have hsub : b.members ⊆ Finset.range n := Finset.filter_subset _ _
  have hle := Finset.card_le_card hsub
  rw [numClear_eq, ← List.toFinset_card_of_nodup (free_nodup b),
      hfree, Finset.card_sdiff_of_subset hsub, Finset.card_range]
  rw [Finset.card_range] at hle
  rw [Nat.cast_sub hle]

/-- The operations on a new bitmap do what they do on a finite set, and no assertion fails. -/
theorem bitmap_set (n : ℕ) (hn : 0 < n) (ops : List BitmapOp) (hops : ∀ op ∈ ops, op.InRange n) :
    ∃ replies b s, (do let b ← Bitmap.new n; b.execute ops) = .ok (replies, b) ∧ BitmapOp.Run n ∅ ops replies s ∧
      (∀ which : ℤ, 0 ≤ which → which < n → b.test which = .ok (decide (which.toNat ∈ s))) ∧
      b.numClear = .ok (n - s.card : ℤ) := by
  obtain ⟨replies, b, he, hrun⟩ := execute_run ops (empty n) hops
  rw [members_empty] at hrun
  refine ⟨replies, b, b.members, ?_, hrun, fun which h₀ h₁ => b.test_members h₀ h₁, b.numClear_members⟩
  rw [new_eq hn]
  exact he

theorem bitmap_set_words : ∃ replies b s,
    (do let b ← Bitmap.new 33; b.execute [.mark 31, .findAndSet, .mark 32, .clear 0, .findAndSet]) =
    .ok (replies, b) ∧
      BitmapOp.Run 33 ∅ [.mark 31, .findAndSet, .mark 32, .clear 0, .findAndSet] replies s ∧
      (∀ which : ℤ, 0 ≤ which → which < (33 : ℕ) → b.test which = .ok (decide (which.toNat ∈ s))) ∧
      b.numClear = .ok ((33 : ℕ) - s.card : ℤ) :=
  bitmap_set 33 (by decide) _ (by decide)

end Bitmap

end NachosFileSys
