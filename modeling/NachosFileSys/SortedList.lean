import NachosFileSys.Interrupt
import NachosFileSys.Lib.Refinement
import NachosFileSys.LinkedList

namespace NachosFileSys

open Lib.Chains Lib.Refinement

namespace SortedList

open LinkedList

section Code

variable {T : Type} [DecidableEq T] (compare : T → T → ℤ)

def insertLoop (item : T) (element : ℕ) : ℕ → Option ℕ → LinkedList T → Except Fault (Option (LinkedList T))
  | 0, _, _ => .error .depth
  | turns + 1, ptr, s => do
    let c ← deref s.elements ptr
    if c.next = none then pure none
    else do
      let next ← deref s.elements c.next
      if compare item next.item < 0 then do
        let h ← setNext s.elements (some element) c.next
        let h ← setNext h ptr (some element)
        pure (some { s with elements := h, numInList := s.numInList + 1 })
      else insertLoop item element turns c.next s

def insert (s : LinkedList T) (item : T) : Except Fault (LinkedList T) := do
  let element := s.elements.limit
  let s := { s with elements := s.elements.alloc ⟨item, none⟩ }
  check (!(← s.isInList item))
  if s.isEmpty then count { s with first := some element, last := some element } item
  else do
    let c ← deref s.elements s.first
    if compare item c.item < 0 then do
      let h ← setNext s.elements (some element) s.first
      count { s with elements := h, first := some element } item
    else do
      let found ← insertLoop compare item element s.elements.limit s.first s
      match found with
      | some s => pure s
      | none => do
        let h ← setNext s.elements s.last (some element)
        count { s with elements := h, last := some element } item

def sanityCheckLoop (h : Heap T) : ℕ → Option ℕ → Option ℕ → Except Fault Unit
  | _, _, none => .ok ()
  | 0, _, some _ => .error .depth
  | turns + 1, prev, some ptr => do
    let p ← deref h prev
    let c ← deref h (some ptr)
    check (decide (compare p.item c.item ≤ 0))
    sanityCheckLoop h turns (some ptr) c.next

def sanityCheck (s : LinkedList T) : Except Fault Unit := do
  s.sanityCheck
  if s.first ≠ s.last then do
    let c ← deref s.elements s.first
    sanityCheckLoop compare s.elements s.elements.limit s.first c.next
  else pure ()

end Code

end SortedList

namespace LinkedList.Linked

variable {T : Type} {s : LinkedList T} {l l₁ l₂ : List (ℕ × T)} {x item : T} {a p : ℕ} {compare : T → T → ℤ}

lemma relink {y : T} {next : Option ℕ} (hs : s.Linked (l₁ ++ (p, y) :: l₂))
    (hp : s.elements.cells p = some ⟨y, next⟩)
    (ha : s.elements.cells a = some ⟨item, none⟩) (hnew : a ∉ (l₁ ++ (p, y) :: l₂).map Prod.fst) (hne : l₂ ≠ []) :
    Linked ⟨s.first, s.last, s.numInList + 1, (s.elements.link a next).link p (some a)⟩
      (l₁ ++ (p, y) :: (a, item) :: l₂) := by
  obtain ⟨next', hp', hl₁, hl₂, hp₁, hp₂⟩ := hs.split
  obtain rfl : next = next' := congrArg Cell.next (Option.some.inj (hp.symm.trans hp'))
  have hnew' := hnew
  rw [List.map_append, List.map_cons, List.mem_append, List.mem_cons, not_or, not_or] at hnew'
  obtain ⟨ha₁, hap, ha₂⟩ := hnew'
  refine ⟨?_, ?_, ?_, ?_⟩
  · have hperm : (l₁ ++ (p, y) :: (a, item) :: l₂).Perm ((a, item) :: (l₁ ++ (p, y) :: l₂)) := by
      have h : ((l₁ ++ [(p, y)]) ++ (a, item) :: l₂).Perm ((a, item) :: ((l₁ ++ [(p, y)]) ++ l₂)) :=
        List.perm_middle
      rwa [List.append_assoc, List.append_assoc] at h
    exact (hperm.map Prod.fst).nodup_iff.mpr (List.nodup_cons.mpr ⟨hnew, hs.nodup⟩)
  · refine ((hl₁.link ha₁ next).link hp₁ _).append (.cons ?_ (.cons ?_ ((hl₂.link ha₂ next).link hp₂ _)))
    · rw [Heap.link_self ((Heap.link_of_ne (Ne.symm hap)).trans hp)]
    · rw [Heap.link_of_ne hap, Heap.link_self ha]
  · have hlast := hs.last
    obtain ⟨z, l₂, rfl⟩ := List.exists_cons_of_ne_nil hne
    rw [List.map_append, List.getLast?_append_of_ne_nil _ (by simp)] at hlast ⊢
    exact hlast
  · have hcount := hs.count
    simp only [List.length_append, List.length_cons] at hcount ⊢
    omega

variable [DecidableEq T]

omit [DecidableEq T] in
lemma insertLoop (compare : T → T → ℤ) (turns : ℕ) (ha : s.elements.cells a = some ⟨item, none⟩) :
    ∀ {p : ℕ} {y : T} {l₁ l₂ : List (ℕ × T)}, s.Linked (l₁ ++ (p, y) :: l₂) →
    a ∉ (l₁ ++ (p, y) :: l₂).map Prod.fst → l₂.length < turns →
    (∃ s' l', SortedList.insertLoop compare item a turns (some p) s = .ok (some s') ∧
    s'.Linked (l₁ ++ (p, y) :: l') ∧
      l'.map Prod.snd = SortedList.place compare item (l₂.map Prod.snd)) ∨
    SortedList.insertLoop compare item a turns (some p) s = .ok none ∧
      SortedList.place compare item (l₂.map Prod.snd) = l₂.map Prod.snd ++ [item] := by
  induction turns with
  | zero =>
    intro p y l₁ l₂ _ _ hlt
    exact absurd hlt (Nat.not_lt_zero _)
  | succ turns ih =>
    intro p y l₁ l₂ hs hnew hlt
    obtain ⟨next, hp, -, hl₂, -⟩ := hs.split
    cases l₂ with
    | nil =>
      obtain rfl : next = none := hl₂
      refine .inr ⟨?_, rfl⟩
      rw [SortedList.insertLoop, deref_eq hp, ok_bind, if_pos rfl]
      rfl
    | cons z l₂ =>
      obtain ⟨rfl, next, hz, -⟩ := hl₂
      rw [SortedList.insertLoop, deref_eq hp, ok_bind, if_neg (Option.some_ne_none _),
        deref_eq hz, ok_bind, List.map_cons,
        SortedList.place]
      by_cases hc : compare item z.2 < 0
      · have hpa : p ≠ a := by
          rintro rfl
          exact hnew (List.mem_map.mpr ⟨(p, y), List.mem_append_right _ List.mem_cons_self, rfl⟩)
        have hp' : (s.elements.link a (some z.1)).cells p = some ⟨y, some z.1⟩ := (Heap.link_of_ne hpa).trans hp
        rw [if_pos hc, if_pos hc, setNext_eq ha, ok_bind, setNext_eq hp', ok_bind]
        exact .inl ⟨_, _, rfl, hs.relink hp ha hnew (List.cons_ne_nil _ _), rfl⟩
      · have hnew' : a ∉ ((l₁ ++ [(p, y)]) ++ (z.1, z.2) :: l₂).map Prod.fst := by
          rw [List.append_assoc]
          exact hnew
        rw [if_neg hc, if_neg hc]
        rcases ih hs.past hnew' (Nat.lt_of_succ_lt_succ hlt) with ⟨s', l', he, hl, hplace⟩ | ⟨he, hplace⟩
        · rw [List.append_assoc] at hl
          exact .inl ⟨s', z :: l', he, hl, by rw [List.map_cons, hplace]⟩
        · exact .inr ⟨he, by rw [hplace, List.cons_append]⟩

lemma insert (compare : T → T → ℤ) (hs : s.Linked l) (hitem : item ∉ l.map Prod.snd) :
    ∃ s' l', SortedList.insert compare s item = .ok s' ∧ s'.Linked l' ∧
      l'.map Prod.snd = SortedList.place compare item (l.map Prod.snd) := by
  have ha := hs.alloc ⟨item, none⟩
  rw [SortedList.insert, ha.isInList, ok_bind, decide_eq_false hitem,
      Bool.not_false, check_true, ok_bind, ha.isEmpty]
  cases l with
  | nil =>
    obtain ⟨s', he, hs'⟩ := hs.counted_only item
    exact ⟨s', _, he, hs', rfl⟩
  | cons y l =>
    obtain ⟨hfirst, next, hc, -⟩ := ha.seg
    have hderef : deref (s.elements.alloc ⟨item, none⟩) s.first = .ok ⟨y.2, next⟩ := by
      rw [show s.first = some y.1 from hfirst]
      exact deref_eq hc
    rw [decide_eq_false (List.cons_ne_nil _ _), if_neg Bool.false_ne_true,
        hderef, ok_bind, List.map_cons, SortedList.place]
    have hne := List.cons_ne_nil y l
    by_cases hfront : compare item y.2 < 0
    · obtain ⟨h, s', hset, he, hs'⟩ := hs.counted_front hne item
      rw [if_pos hfront, if_pos hfront, hset, ok_bind]
      exact ⟨s', _, he, hs', rfl⟩
    · have hlen := ha.length_le
      have hloop := insertLoop compare (s.elements.alloc ⟨item, none⟩).limit (Heap.alloc_self _ _)
        (show Linked { s with elements := s.elements.alloc ⟨item, none⟩ } ([] ++ (y.1, y.2) :: l) from ha)
        hs.notMem_limit hlen
      rw [← show s.first = some y.1 from hfirst] at hloop
      rw [if_neg hfront, if_neg hfront]
      dsimp only at hloop ⊢
      rcases hloop with ⟨s', l', he, hs', hplace⟩ | ⟨he, hplace⟩
      · rw [he, ok_bind]
        exact ⟨s', _, rfl, hs', by rw [List.nil_append, List.map_cons, hplace]⟩
      · obtain ⟨h, s', hset, hcount, hs'⟩ := hs.counted_back hne item
        rw [he, ok_bind]
        dsimp only
        rw [hset, ok_bind]
        refine ⟨s', _, hcount, hs', ?_⟩
        rw [hplace, List.map_append, List.map_cons, List.cons_append]
        rfl

omit [DecidableEq T] in
lemma orderLoop (turns : ℕ) : ∀ {p : ℕ} {y : T} {l₁ l₂ : List (ℕ × T)} {ptr : Option ℕ},
    s.Linked (l₁ ++ (p, y) :: l₂) →
    s.elements.cells p = some ⟨y, ptr⟩ → (((p, y) :: l₂).map Prod.snd).Pairwise (fun x z => compare x z ≤ 0) →
    l₂.length ≤ turns → SortedList.sanityCheckLoop compare s.elements turns (some p) ptr = .ok () := by
  induction turns with
  | zero =>
    intro p y l₁ l₂ ptr hs hp _ hlen
    obtain ⟨next, hp', -, hl₂, -⟩ := hs.split
    obtain rfl : ptr = next := congrArg Cell.next (Option.some.inj (hp.symm.trans hp'))
    obtain rfl := List.length_eq_zero_iff.mp (Nat.le_zero.mp hlen)
    obtain rfl : ptr = none := hl₂
    rfl
  | succ turns ih =>
    intro p y l₁ l₂ ptr hs hp hsorted hlen
    obtain ⟨next, hp', -, hl₂, -⟩ := hs.split
    obtain rfl : ptr = next := congrArg Cell.next (Option.some.inj (hp.symm.trans hp'))
    cases l₂ with
    | nil =>
      obtain rfl : ptr = none := hl₂
      rfl
    | cons z l₂ =>
      obtain ⟨rfl, next, hz, -⟩ := hl₂
      obtain ⟨hle, hsorted⟩ := List.pairwise_cons.mp hsorted
      rw [SortedList.sanityCheckLoop, deref_eq hp, ok_bind, deref_eq hz, ok_bind,
        decide_eq_true (hle z.2 List.mem_cons_self), check_true, ok_bind]
      exact ih hs.past hz hsorted (Nat.le_of_succ_le_succ hlen)

omit [DecidableEq T] in
lemma sortedSanityCheck (hs : s.Linked l) (hsorted : (l.map Prod.snd).Pairwise fun x z => compare x z ≤ 0) :
    SortedList.sanityCheck compare s = .ok () := by
  rw [SortedList.sanityCheck, hs.sanityCheck, ok_bind]
  cases l with
  | nil =>
    have hfirst : s.first = none := hs.seg
    have hlast : s.last = none := hs.last
    rw [hfirst, hlast, if_neg (not_not.mpr rfl)]
    rfl
  | cons y l =>
    obtain ⟨hfirst, next, hc, -⟩ := hs.seg
    have hlen := hs.length_le
    rw [List.length_cons] at hlen
    split
    · rw [hfirst, deref_eq hc, ok_bind]
      exact orderLoop _ (show s.Linked ([] ++ (y.1, y.2) :: l) from hs) hc hsorted (by omega)
    · rfl

end LinkedList.Linked

namespace SortedList

variable {T : Type} {compare : T → T → ℤ} {item x y z : T} {xs ys : List T}

structure TotalPreorder (compare : T → T → ℤ) : Prop where
  swap (x y : T) : compare x y < 0 ↔ 0 < compare y x
  trans (x y z : T) : compare x y ≤ 0 → compare y z ≤ 0 → compare x z ≤ 0

structure StableSorted (compare : T → T → ℤ) (xs ys : List T) : Prop where
  sorted : xs.Pairwise fun x y => compare x y ≤ 0
  perm : xs.Perm ys
  stable (z : T) : xs.filter (fun x => compare z x = 0) = ys.filter fun x => compare z x = 0

namespace TotalPreorder

lemma self (h : TotalPreorder compare) (x : T) : compare x x = 0 := by
  have hswap := h.swap x x
  omega

lemma le_of_not_lt (h : TotalPreorder compare) (hxy : ¬compare x y < 0) : compare y x ≤ 0 := by
  have hswap := h.swap x y
  omega

lemma lt_of_lt_of_le (h : TotalPreorder compare) (hxy : compare x y < 0) (hyz : compare y z ≤ 0) :
    compare x z < 0 := by
  by_contra hle
  have hback := h.trans y z x hyz (h.le_of_not_lt hle)
  have hswap := h.swap x y
  omega

lemma eq_comm (h : TotalPreorder compare) : compare x y = 0 ↔ compare y x = 0 := by
  have h₁ := h.swap x y
  have h₂ := h.swap y x
  omega

lemma eq_trans (h : TotalPreorder compare) (hxy : compare x y = 0) (hyz : compare y z = 0) : compare x z = 0 := by
  have h₁ := h.trans x y z (le_of_eq hxy) (le_of_eq hyz)
  have h₂ := h.trans z y x (le_of_eq (h.eq_comm.mp hyz)) (le_of_eq (h.eq_comm.mp hxy))
  have h₃ := h.swap x z
  omega

end TotalPreorder

lemma place_sorted (h : TotalPreorder compare) (hxs : xs.Pairwise fun x y => compare x y ≤ 0) (item : T) :
    (place compare item xs).Pairwise fun x y => compare x y ≤ 0 :=
  pairwise_place h.trans hxs (fun _ _ hlt => le_of_lt hlt) fun _ _ hge => h.le_of_not_lt hge

lemma filter_place (h : TotalPreorder compare) (hxs : xs.Pairwise fun x y => compare x y ≤ 0) (item z : T) :
    (place compare item xs).filter (fun x => compare z x = 0) =
    (xs ++ [item]).filter fun x => compare z x = 0 := by
  induction xs with
  | nil => rfl
  | cons first rest ih =>
    obtain ⟨hfirst, hrest⟩ := List.pairwise_cons.mp hxs
    rw [place]
    by_cases hlt : compare item first < 0
    · rw [if_pos hlt]
      by_cases hz : compare z item = 0
      · have hnone : (first :: rest).filter (fun x => compare z x = 0) = [] := by
          rw [List.filter_eq_nil_iff]
          intro x hx heq
          have hlt' : compare item x < 0 := by
            rcases List.mem_cons.mp hx with rfl | hx
            · exact hlt
            · exact h.lt_of_lt_of_le hlt (hfirst x hx)
          have hzero := h.eq_trans (h.eq_comm.mp hz) (of_decide_eq_true heq)
          omega
        rw [List.filter_append, hnone, List.filter_cons_of_pos (by simpa using hz), hnone]
        rw [List.filter_cons_of_pos (by simpa using hz)]
        rfl
      · rw [List.filter_append, List.filter_cons_of_neg (by simpa using hz),
          List.filter_cons_of_neg (p := fun x => compare z x = 0)
          (a := item) (l := []) (by simpa using hz), List.filter_nil, List.append_nil]
    · rw [if_neg hlt, List.filter_cons, List.cons_append, List.filter_cons, ih hrest]

namespace StableSorted

lemma insert (hs : StableSorted compare xs ys) (h : TotalPreorder compare) (item : T) :
    StableSorted compare (place compare item xs) (ys ++ [item]) := by
  refine ⟨place_sorted h hs.sorted item, ?_, fun z => ?_⟩
  · exact (perm_place compare item xs).trans ((hs.perm.cons item).trans (List.perm_append_singleton item ys).symm)
  · rw [filter_place h hs.sorted, List.filter_append, List.filter_append, hs.stable]

lemma erase [DecidableEq T] (hs : StableSorted compare xs ys) (item : T) :
    StableSorted compare (xs.erase item) (ys.erase item) := by
  refine ⟨hs.sorted.sublist List.erase_sublist, hs.perm.erase item, fun z => ?_⟩
  rw [← List.erase_filter, ← List.erase_filter, hs.stable]

lemma find_front (hs : StableSorted compare (x :: xs) ys) (h : TotalPreorder compare) :
    ys.find? (fun y => ys.all fun z => compare y z ≤ 0) = some x := by
  obtain ⟨hle, -⟩ := List.pairwise_cons.mp hs.sorted
  have hleast (y : T) (hy : y ∈ ys) : (ys.all fun z => compare y z ≤ 0) = decide (compare x y = 0) := by
    have hfront (z : T) (hz : z ∈ ys) : compare x z ≤ 0 := by
      rcases List.mem_cons.mp (hs.perm.mem_iff.mpr hz) with rfl | hz
      · exact le_of_eq (h.self _)
      · exact hle z hz
    rw [Bool.eq_iff_iff, List.all_eq_true, decide_eq_true_iff]
    constructor
    · intro hall
      have hback := of_decide_eq_true (hall x (hs.perm.mem_iff.mp List.mem_cons_self))
      have hforth := hfront y hy
      have hswap := h.swap x y
      omega
    · intro heq z hz
      exact decide_eq_true (h.trans y x z (le_of_eq (h.eq_comm.mp heq)) (hfront z hz))
  rw [← List.head?_filter, List.filter_congr hleast, ← hs.stable x,
      List.filter_cons_of_pos (by simpa using h.self x)]
  rfl

end StableSorted

end SortedList

inductive SortedOp (T : Type)
  | insert (item : T)
  | removeFront
  | remove (item : T)

section

variable {T : Type} [DecidableEq T] (compare : T → T → ℤ)

def SortedList.perform (s : LinkedList T) : SortedOp T → Except Fault (Option T × LinkedList T)
  | .insert item => do
    let s ← SortedList.insert compare s item
    pure (none, s)
  | .removeFront => do
    let (item, s) ← s.removeFront
    pure (some item, s)
  | .remove item => do
    let s ← s.remove item
    pure (none, s)

/-- An operation on the items in the order of their insertion, where its assertion holds: the first of the least
items is removed from the front. -/
def SortedOp.apply (ys : List T) : SortedOp T → Option (Option T × List T)
  | .insert item => if item ∈ ys then none else some (none, ys ++ [item])
  | .removeFront =>
    match ys.find? fun y => ys.all fun z => compare y z ≤ 0 with
    | none => none
    | some y => some (some y, ys.erase y)
  | .remove item => if item ∈ ys then some (none, ys.erase item) else none

end

namespace LinkedList

variable {T : Type} [DecidableEq T] {s : LinkedList T} {ys : List T} {compare : T → T → ℤ}

lemma sorted_apply (hcompare : SortedList.TotalPreorder compare)
    {op : SortedOp T} {reply : Option T} {ys' : List T}
    (hs : (∃ xs, s.Represents xs ∧ SortedList.StableSorted compare xs ys) ∧ ys.Nodup)
    (h : op.apply compare ys = some (reply, ys')) :
    ∃ s', SortedList.perform compare s op = .ok (reply, s') ∧
      (∃ xs, s'.Represents xs ∧ SortedList.StableSorted compare xs ys') ∧ ys'.Nodup := by
  obtain ⟨⟨xs, hs, hsort⟩, hn⟩ := hs
  cases op with
  | insert item =>
    obtain ⟨hitem, he⟩ := Option.ite_none_left_eq_some.mp h
    cases he
    obtain ⟨l, hl, rfl⟩ := hs
    obtain ⟨s', l', hinsert, hs', hplace⟩ := hl.insert compare (hsort.perm.mem_iff.not.mpr hitem)
    refine ⟨s', by rw [SortedList.perform, hinsert]; rfl, ⟨_, ⟨l', hs', hplace⟩, hsort.insert hcompare item⟩, ?_⟩
    exact hn.append (List.nodup_singleton item) (List.disjoint_singleton.mpr hitem)
  | removeFront =>
    cases xs with
    | nil =>
      rw [List.nil_perm.mp hsort.perm] at h
      cases h
    | cons x xs =>
      rw [SortedOp.apply, hsort.find_front hcompare] at h
      cases h
      obtain ⟨s', hremove, hs'⟩ := hs.removeFront
      have herase := hsort.erase x
      rw [List.erase_cons_head] at herase
      exact ⟨s', by rw [SortedList.perform, hremove]; rfl, ⟨_, hs', herase⟩, hn.erase x⟩
  | remove item =>
    obtain ⟨hitem, he⟩ := Option.ite_none_right_eq_some.mp h
    cases he
    obtain ⟨s', hremove, hs'⟩ := hs.remove (hsort.perm.nodup_iff.mpr hn) (hsort.perm.mem_iff.mpr hitem)
    exact ⟨s', by rw [SortedList.perform, hremove]; rfl, ⟨_, hs', hsort.erase item⟩, hn.erase item⟩

/-- A list holds the expected sequence after any operations whose assertions hold, and a sorted list
a stable sort of the items that are left; the links keep their shape, and the sanity checks pass. -/
theorem linked_lists (T : Type) [DecidableEq T] :
    (∀ (ops : List (ListOp T)) (replies : List (Option T)) (xs : List T),
    runAll ListOp.apply ops [] = some (replies, xs) →
      ∃ s, runAll LinkedList.perform ops new = .ok (replies, s) ∧
      s.Represents xs ∧ s.Shaped ∧ s.sanityCheck = .ok ()) ∧
    ∀ compare : T → T → ℤ, SortedList.TotalPreorder compare →
      ∀ (ops : List (SortedOp T)) (replies : List (Option T)) (ys : List T),
        runAll (SortedOp.apply compare) ops [] = some (replies, ys) →
        ∃ s xs, runAll (SortedList.perform compare) ops new = .ok (replies, s) ∧ s.Represents xs ∧
          SortedList.StableSorted compare xs ys ∧ s.Shaped ∧ SortedList.sanityCheck compare s = .ok () := by
  have hempty : (new : LinkedList T).Represents [] := ⟨[], new_linked, rfl⟩
  refine ⟨fun ops replies xs h => ?_, fun compare hcompare ops replies ys h => ?_⟩
  · obtain ⟨s, hrun, hs, -⟩ := runAll_refines (g := ListOp.apply)
      (I := fun (s : LinkedList T) xs => s.Represents xs ∧ xs.Nodup) (fun _ _ _ _ _ => perform_apply)
      ⟨hempty, List.nodup_nil⟩ h
    obtain ⟨l, hl, -⟩ := id hs
    exact ⟨s, hrun, hs, hl.shaped, hl.sanityCheck⟩
  · obtain ⟨s, hrun, ⟨xs, hs, hsort⟩, -⟩ := runAll_refines (g := SortedOp.apply compare)
      (I := fun (s : LinkedList T) ys => (∃ xs, s.Represents xs ∧ SortedList.StableSorted compare xs ys) ∧
      ys.Nodup)
      (fun _ _ _ _ _ => sorted_apply hcompare)
      ⟨⟨[], hempty, .nil, .refl _, fun _ => rfl⟩, List.nodup_nil⟩ h
    obtain ⟨l, hl, rfl⟩ := id hs
    exact ⟨s, _, hrun, hs, hsort, hl.shaped, hl.sortedSanityCheck hsort.sorted⟩

theorem linked_lists_tens :
    (∃ s : LinkedList ℤ,
    runAll LinkedList.perform [.append 9, .prepend 5, .append 7, .remove 9, .removeFront] new =
        .ok ([none, none, none, none, some 5], s) ∧ s.Represents [7] ∧ s.Shaped ∧ s.sanityCheck = .ok ()) ∧
    ∃ (s : LinkedList ℤ) (xs : List ℤ), runAll (SortedList.perform fun x y => x / 10 - y / 10)
        [.insert 27, .insert 13, .insert 21, .insert 35, .removeFront, .remove 35] new =
          .ok ([none, none, none, none, some 13, none], s) ∧ s.Represents xs ∧
      SortedList.StableSorted (fun x y => x / 10 - y / 10) xs [27, 21] ∧ s.Shaped ∧
      SortedList.sanityCheck (fun x y => x / 10 - y / 10) s = .ok () := by
  have hcompare : SortedList.TotalPreorder fun x y : ℤ => x / 10 - y / 10 :=
    ⟨fun x y => by omega, fun x y z hxy hyz => by omega⟩
  exact ⟨(linked_lists ℤ).1 [.append 9, .prepend 5, .append 7, .remove 9, .removeFront] _ _ (by decide),
    (linked_lists ℤ).2 _ hcompare [.insert 27, .insert 13, .insert 21, .insert 35, .removeFront, .remove 35] _ _
    (by decide)⟩

end LinkedList

end NachosFileSys
