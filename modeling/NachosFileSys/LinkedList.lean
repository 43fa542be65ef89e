import NachosFileSys.Kernel
import NachosFileSys.Lib.Chains

/-! `lib/list.cc`: lists of elements that are linked by pointers. -/

namespace NachosFileSys

open Lib.Chains

structure LinkedList (T : Type) where
  first : Option ℕ
  last : Option ℕ
  numInList : ℤ
  elements : Heap T

namespace LinkedList

section Code

variable {T : Type} [DecidableEq T]

def new : LinkedList T := ⟨none, none, 0, .empty⟩

def deref (h : Heap T) (ptr : Option ℕ) : Except Fault (Cell T) :=
  match ptr.bind h.cells with
  | some c => .ok c
  | none => .error .null

def setNext (h : Heap T) (ptr next : Option ℕ) : Except Fault (Heap T) :=
  match ptr with
  | none => .error .null
  | some a => if (h.cells a).isSome then .ok (h.link a next) else .error .null

def delete (h : Heap T) (ptr : Option ℕ) : Heap T :=
  match ptr with
  | none => h
  | some a => h.free a

def isEmpty (s : LinkedList T) : Bool := s.numInList = 0

/-- The loops over the elements are given as many turns as there have been elements, and are stopped when they
want more, as none of them would end then. -/
def isInListLoop (h : Heap T) (item : T) : ℕ → Option ℕ → Except Fault Bool
  | _, none => .ok false
  | 0, some _ => .error .depth
  | turns + 1, some ptr => do
    let c ← deref h (some ptr)
    if item = c.item then pure true else isInListLoop h item turns c.next

def isInList (s : LinkedList T) (item : T) : Except Fault Bool :=
  isInListLoop s.elements item s.elements.limit s.first

def count (s : LinkedList T) (item : T) : Except Fault (LinkedList T) := do
  let s := { s with numInList := s.numInList + 1 }
  check (← s.isInList item)
  pure s

def append (s : LinkedList T) (item : T) : Except Fault (LinkedList T) := do
  let element := s.elements.limit
  let s := { s with elements := s.elements.alloc ⟨item, none⟩ }
  check (!(← s.isInList item))
  if s.isEmpty then count { s with first := some element, last := some element } item
  else do
    let h ← setNext s.elements s.last (some element)
    count { s with elements := h, last := some element } item

def prepend (s : LinkedList T) (item : T) : Except Fault (LinkedList T) := do
  let element := s.elements.limit
  let s := { s with elements := s.elements.alloc ⟨item, none⟩ }
  check (!(← s.isInList item))
  if s.isEmpty then count { s with first := some element, last := some element } item
  else do
    let h ← setNext s.elements (some element) s.first
    count { s with elements := h, first := some element } item

def removeFront (s : LinkedList T) : Except Fault (T × LinkedList T) := do
  check (!s.isEmpty)
  let c ← deref s.elements s.first
  let h := delete s.elements s.first
  if s.first = s.last then
    pure (c.item, { first := none, last := none, numInList := s.numInList - 1, elements := h })
  else pure (c.item, { s with first := c.next, numInList := s.numInList - 1, elements := h })

def removeLoop (item : T) : ℕ → Option ℕ → Option ℕ → LinkedList T → Except Fault (LinkedList T)
  -- `ASSERT(ptr != NULL)` after the loop
  | _, _, none, _ => .error .assertion
  | 0, _, some _, _ => .error .depth
  | turns + 1, prev, some ptr, s => do
    let c ← deref s.elements (some ptr)
    if item = c.item then do
      let h ← setNext s.elements prev c.next
      let last := if c.next = none then prev else s.last
      pure { s with last := last, numInList := s.numInList - 1, elements := delete h (some ptr) }
    else removeLoop item turns (some ptr) c.next s

def takeOut (s : LinkedList T) (item : T) : Except Fault (LinkedList T) := do
  let c ← deref s.elements s.first
  if item = c.item then do
    let (removed, s) ← s.removeFront
    check (decide (item = removed))
    pure s
  else removeLoop item s.elements.limit s.first c.next s

def remove (s : LinkedList T) (item : T) : Except Fault (LinkedList T) := do
  check (← s.isInList item)
  let s ← s.takeOut item
  check (!(← s.isInList item))
  pure s

def sanityCheckLoop (s : LinkedList T) : ℕ → Option ℕ → ℤ → Except Fault ℤ
  | turns, ptr, numFound =>
    if ptr = s.last then .ok numFound
    else
      match turns with
      | 0 => .error .depth
      | turns + 1 => do
        check (decide (numFound + 1 ≤ s.numInList))
        let c ← deref s.elements ptr
        sanityCheckLoop s turns c.next (numFound + 1)

def sanityCheck (s : LinkedList T) : Except Fault Unit :=
  if s.first = none then check (decide (s.numInList = 0 ∧ s.last = none))
  else if s.first = s.last then do
    let c ← deref s.elements s.last
    check (decide (s.numInList = 1 ∧ c.next = none))
  else do
    let numFound ← s.sanityCheckLoop s.elements.limit s.first 1
    check (decide (numFound = s.numInList))
    let c ← deref s.elements s.last
    check (decide (c.next = none))

end Code

end LinkedList

namespace LinkedList

variable {T : Type} {s s' : LinkedList T} {l l₁ l₂ : List (ℕ × T)} {h : Heap T} {a : ℕ} {x item : T}
  {c : Cell T} {p q : Option ℕ}

structure Linked (s : LinkedList T) (l : List (ℕ × T)) : Prop where
  nodup : (l.map Prod.fst).Nodup
  seg : Seg s.elements s.first l none
  last : s.last = (l.map Prod.fst).getLast?
  count : s.numInList = l.length

@[simp] lemma ok_bind {α β : Type} (a : α) (f : α → Except Fault β) : (Except.ok a >>= f) = f a := rfl

@[simp] lemma check_true : check true = .ok () := rfl

lemma deref_eq (hc : h.cells a = some c) : deref h (some a) = .ok c := by
  rw [deref, Option.bind_some, hc]

lemma setNext_eq (hc : h.cells a = some c) (q : Option ℕ) : setNext h (some a) q = .ok (h.link a q) := by
  rw [setNext, hc]
  rfl

lemma new_linked : (new : LinkedList T).Linked [] := ⟨List.nodup_nil, rfl, rfl, rfl⟩

namespace Linked

variable {p : ℕ}

lemma isEmpty (hs : s.Linked l) : s.isEmpty = decide (l = []) := by
  rw [LinkedList.isEmpty, hs.count]
  cases l with
  | nil => rfl
  | cons y l =>
    rw [decide_eq_false (List.cons_ne_nil y l), decide_eq_false]
    rw [List.length_cons]
    omega

lemma notMem_limit (hs : s.Linked l) : s.elements.limit ∉ l.map Prod.fst := by
  intro hmem
  obtain ⟨y, hy, he⟩ := List.mem_map.mp hmem
  exact absurd (hs.seg.lt_limit hy) (by omega)

lemma alloc (hs : s.Linked l) (c : Cell T) : Linked { s with elements := s.elements.alloc c } l :=
  ⟨hs.nodup, hs.seg.alloc c, hs.last, hs.count⟩

lemma length_le (hs : s.Linked l) : l.length ≤ s.elements.limit := hs.seg.length_le hs.nodup

lemma nodup_concat (hs : s.Linked l) (item : T) : ((l ++ [(s.elements.limit, item)]).map Prod.fst).Nodup := by
  rw [List.map_append, List.nodup_append]
  refine ⟨hs.nodup, List.nodup_singleton _, fun b hb b' hb' => ?_⟩
  obtain rfl := List.mem_singleton.mp hb'
  rintro rfl
  exact hs.notMem_limit hb

lemma exists_last (hs : s.Linked l) (hne : l ≠ []) :
    ∃ l₀ a x, l = l₀ ++ [(a, x)] ∧ s.last = some a ∧ a ∉ l₀.map Prod.fst ∧ Seg s.elements s.first l₀ (some a) ∧
      s.elements.cells a = some ⟨x, none⟩ := by
  obtain ⟨l₀, y, rfl⟩ := (List.eq_nil_or_concat l).resolve_left hne
  rw [List.concat_eq_append] at hs
  obtain ⟨m, hl, rfl, next, hc, hnext⟩ := Seg.append_iff.mp hs.seg
  obtain rfl : next = none := hnext
  refine ⟨l₀, y.1, y.2, List.concat_eq_append, ?_, ?_, hl, hc⟩
  · rw [hs.last, List.map_append, List.map_singleton, List.getLast?_concat]
  · have hn := hs.nodup
    rw [List.map_append, List.nodup_append] at hn
    exact fun hmem => hn.2.2 _ hmem _ (List.mem_singleton.mpr rfl) rfl

lemma link_last (hs : s.Linked l) (hne : l ≠ []) (item : T) :
    ∃ h, setNext (s.elements.alloc ⟨item, none⟩) s.last (some s.elements.limit) = .ok h ∧
      Seg h s.first (l ++ [(s.elements.limit, item)]) none := by
  obtain ⟨l₀, a, x, rfl, hlast, ha, hl, hc⟩ := hs.exists_last hne
  have hlt := Heap.lt_limit hc
  have hc' : (s.elements.alloc ⟨item, none⟩).cells a = some ⟨x, none⟩ := (Heap.alloc_of_ne (ne_of_lt hlt)).trans hc
  refine ⟨_, by rw [hlast, setNext_eq hc'],
      ((hs.seg.alloc ⟨item, none⟩).link_last ha _).append (.cons (m := none) ?_ rfl)⟩
  rw [Heap.link_of_ne (ne_of_gt hlt), Heap.alloc_self]

lemma split (hs : s.Linked (l₁ ++ (a, x) :: l₂)) :
    ∃ next, s.elements.cells a = some ⟨x, next⟩ ∧ Seg s.elements s.first l₁ (some a) ∧
    Seg s.elements next l₂ none ∧
      a ∉ l₁.map Prod.fst ∧ a ∉ l₂.map Prod.fst := by
  obtain ⟨m, hl₁, rfl, next, hc, hl₂⟩ := Seg.append_iff.mp hs.seg
  have hn := hs.nodup
  rw [List.map_append, List.map_cons, List.nodup_append] at hn
  exact ⟨next, hc, hl₁, hl₂, fun hmem => hn.2.2 _ hmem _ List.mem_cons_self rfl, (List.nodup_cons.mp hn.2.1).1⟩

lemma past (hs : s.Linked (l₁ ++ (a, x) :: l₂)) : s.Linked ((l₁ ++ [(a, x)]) ++ l₂) := by
  rwa [List.append_cons] at hs

lemma last_iff (hs : s.Linked (l₁ ++ (a, x) :: l₂)) : some a = s.last ↔ l₂ = [] := by
  obtain ⟨-, -, -, -, -, ha⟩ := hs.split
  have hlast : s.last = (((a, x) :: l₂).map Prod.fst).getLast? := by
    rw [hs.last, List.map_append, List.getLast?_append_of_ne_nil _ (by simp)]
  constructor
  · intro he
    by_contra hne
    rw [List.map_cons, List.getLast?_cons_of_ne_nil (by simpa using hne), ← he] at hlast
    exact ha (List.mem_of_getLast? hlast.symm)
  · rintro rfl
    exact hlast.symm

lemma unlink {y : T} {r : List (ℕ × T)} {next : Option ℕ} (hs : s.Linked (l₁ ++ (p, y) :: (a, x) :: r))
    (hc : s.elements.cells a = some ⟨x, next⟩) :
    Linked ⟨s.first, if next = none then some p else s.last, s.numInList - 1, (s.elements.link p next).free a⟩
      (l₁ ++ (p, y) :: r) := by
  obtain ⟨_, hp, hl₁, -, hp₁, hp₂⟩ := hs.split
  obtain ⟨next', hc', -, hr, ha₁, ha₂⟩ := hs.past.split
  obtain rfl : next = next' := congrArg Cell.next (Option.some.inj (hc.symm.trans hc'))
  have hpa : p ≠ a := fun he => hp₂ (he ▸ List.mem_cons_self)
  have ha₁' : a ∉ l₁.map Prod.fst := fun hmem => ha₁ (by rw [List.map_append]; exact List.mem_append_left _ hmem)
  have hp₂' : p ∉ r.map Prod.fst := fun hmem => hp₂ (List.mem_cons_of_mem _ hmem)
  refine ⟨?_, ?_, ?_, ?_⟩
  · refine hs.nodup.sublist (List.Sublist.map _ ((List.Sublist.refl l₁).append (.cons_cons _ (.cons _ (.refl r)))))
  · refine ((hl₁.link hp₁ next).free ha₁').append (.cons ?_ ((hr.link hp₂' next).free ha₂))
    rw [Heap.free_of_ne hpa, Heap.link_self hp]
  · have hlast := hs.last
    rw [List.map_append, List.getLast?_append_of_ne_nil _ (by simp)] at hlast ⊢
    cases r with
    | nil =>
      obtain rfl : next = none := hr
      rfl
    | cons z r =>
      obtain ⟨rfl, -⟩ := hr
      exact hlast
  · have hcount := hs.count
    simp only [List.length_append, List.length_cons] at hcount ⊢
    omega

lemma removeFront (hs : s.Linked ((a, x) :: l)) : ∃ s', s.removeFront = .ok (x, s') ∧ s'.Linked l := by
  obtain ⟨hfirst, next, hc, hl⟩ := hs.seg
  dsimp only at hfirst hc
  obtain ⟨ha, hn⟩ := List.nodup_cons.mp hs.nodup
  have hcount := hs.count
  rw [List.length_cons] at hcount
  rw [LinkedList.removeFront, hs.isEmpty, decide_eq_false (List.cons_ne_nil _ _),
    Bool.not_false, check_true, ok_bind, hfirst,
    deref_eq hc, ok_bind]
  have hiff : some a = s.last ↔ l = [] := last_iff (show s.Linked ([] ++ (a, x) :: l) from hs)
  by_cases hnil : l = []
  · subst hnil
    rw [if_pos (hiff.mpr rfl)]
    refine ⟨_, rfl, hn, rfl, rfl, ?_⟩
    change s.numInList - 1 = _
    rw [hcount]
    simp
  · rw [if_neg (hiff.not.mpr hnil)]
    refine ⟨_, rfl, hn, hl.free ha, ?_, ?_⟩
    · have hlast := hs.last
      rwa [List.map_cons, List.getLast?_cons_of_ne_nil (by simpa using hnil)] at hlast
    · change s.numInList - 1 = _
      omega

variable [DecidableEq T]

lemma isInListLoop (item : T) (turns : ℕ) : ∀ {p : Option ℕ} {l : List (ℕ × T)}, Seg h p l none →
    l.length ≤ turns →
    LinkedList.isInListLoop h item turns p = .ok (decide (item ∈ l.map Prod.snd)) := by
  induction turns with
  | zero =>
    intro p l hl hlen
    obtain rfl := List.length_eq_zero_iff.mp (Nat.le_zero.mp hlen)
    obtain rfl : p = none := hl
    rfl
  | succ turns ih =>
    intro p l hl hlen
    cases l with
    | nil =>
      obtain rfl : p = none := hl
      rfl
    | cons y l =>
      obtain ⟨rfl, next, hy, hl⟩ := hl
      rw [LinkedList.isInListLoop, deref_eq hy, ok_bind, ih hl (by simpa using hlen)]
      by_cases he : item = y.2
      · rw [if_pos he, decide_eq_true (by rw [he]; exact List.mem_cons_self)]
        rfl
      · rw [if_neg he]
        congr 1
        simp [he]

lemma isInList (hs : s.Linked l) (item : T) : s.isInList item = .ok (decide (item ∈ l.map Prod.snd)) :=
  isInListLoop item _ hs.seg hs.length_le

lemma counted (item : T) {s : LinkedList T} {l : List (ℕ × T)}
    (hn : (l.map Prod.fst).Nodup) (hl : Seg s.elements s.first l none)
    (hlast : s.last = (l.map Prod.fst).getLast?) (hc : s.numInList + 1 = l.length) (hmem : item ∈ l.map Prod.snd) :
    ∃ s', s.count item = .ok s' ∧ s'.Linked l := by
  have hs : Linked { s with numInList := s.numInList + 1 } l := ⟨hn, hl, hlast, hc⟩
  refine ⟨_, ?_, hs⟩
  rw [LinkedList.count, hs.isInList, ok_bind, decide_eq_true hmem]
  rfl

lemma counted_only (hs : s.Linked []) (item : T) :
    ∃ s', LinkedList.count
    ⟨some s.elements.limit, some s.elements.limit, s.numInList, s.elements.alloc ⟨item, none⟩⟩ item =
        .ok s' ∧ s'.Linked [(s.elements.limit, item)] := by
  refine counted item (List.nodup_singleton _) (.cons (Heap.alloc_self _ _) rfl) rfl ?_ List.mem_cons_self
  change s.numInList + 1 = _
  rw [hs.count]
  rfl

lemma counted_back (hs : s.Linked l) (hne : l ≠ []) (item : T) :
    ∃ h s', setNext (s.elements.alloc ⟨item, none⟩) s.last (some s.elements.limit) = .ok h ∧
      LinkedList.count ⟨s.first, some s.elements.limit, s.numInList, h⟩ item = .ok s' ∧
      s'.Linked (l ++ [(s.elements.limit, item)]) := by
  obtain ⟨h, hset, hl⟩ := hs.link_last hne item
  obtain ⟨s', he, hs'⟩ := counted item (s := ⟨s.first, some s.elements.limit, s.numInList, h⟩)
    (hs.nodup_concat item) hl (by rw [List.map_append, List.map_singleton, List.getLast?_concat])
    (by rw [List.length_append, List.length_singleton, Nat.cast_add, Nat.cast_one, hs.count])
    (by rw [List.map_append]; exact List.mem_append_right _ List.mem_cons_self)
  exact ⟨h, s', hset, he, hs'⟩

lemma counted_front (hs : s.Linked l) (hne : l ≠ []) (item : T) :
    ∃ h s', setNext (s.elements.alloc ⟨item, none⟩) (some s.elements.limit) s.first = .ok h ∧
      LinkedList.count ⟨some s.elements.limit, s.last, s.numInList, h⟩ item = .ok s' ∧
      s'.Linked ((s.elements.limit, item) :: l) := by
  have hcell : (s.elements.alloc ⟨item, none⟩).cells s.elements.limit = some ⟨item, none⟩ := Heap.alloc_self _ _
  have hlast : s.last = (((s.elements.limit, item) :: l).map Prod.fst).getLast? := by
    rw [List.map_cons, List.getLast?_cons_of_ne_nil (by simpa using hne)]
    exact hs.last
  obtain ⟨s', he, hs'⟩ := counted item (s := ⟨some s.elements.limit, s.last, s.numInList,
      (s.elements.alloc ⟨item, none⟩).link s.elements.limit s.first⟩)
    (l := (s.elements.limit, item) :: l) (List.nodup_cons.mpr ⟨hs.notMem_limit, hs.nodup⟩)
    (.cons (Heap.link_self hcell) ((hs.seg.alloc _).link hs.notMem_limit _)) hlast
    (by rw [List.length_cons, Nat.cast_add, Nat.cast_one, hs.count]) List.mem_cons_self
  exact ⟨_, s', setNext_eq hcell _, he, hs'⟩

lemma append (hs : s.Linked l) (hitem : item ∉ l.map Prod.snd) :
    ∃ s', s.append item = .ok s' ∧ s'.Linked (l ++ [(s.elements.limit, item)]) := by
  have ha := hs.alloc ⟨item, none⟩
  rw [LinkedList.append, ha.isInList, ok_bind, decide_eq_false hitem,
      Bool.not_false, check_true, ok_bind, ha.isEmpty]
  by_cases hne : l = []
  · subst hne
    exact hs.counted_only item
  · obtain ⟨h, s', hset, he, hs'⟩ := hs.counted_back hne item
    rw [decide_eq_false hne, if_neg Bool.false_ne_true, hset, ok_bind]
    exact ⟨s', he, hs'⟩

lemma prepend (hs : s.Linked l) (hitem : item ∉ l.map Prod.snd) :
    ∃ s', s.prepend item = .ok s' ∧ s'.Linked ((s.elements.limit, item) :: l) := by
  have ha := hs.alloc ⟨item, none⟩
  rw [LinkedList.prepend, ha.isInList, ok_bind, decide_eq_false hitem,
      Bool.not_false, check_true, ok_bind, ha.isEmpty]
  by_cases hne : l = []
  · subst hne
    exact hs.counted_only item
  · obtain ⟨h, s', hset, he, hs'⟩ := hs.counted_front hne item
    rw [decide_eq_false hne, if_neg Bool.false_ne_true, hset, ok_bind]
    exact ⟨s', he, hs'⟩

lemma removeLoop (turns : ℕ) : ∀ {p : ℕ} {y : T} {l₁ r₁ r₂ : List (ℕ × T)} {ptr : Option ℕ},
    s.Linked (l₁ ++ (p, y) :: (r₁ ++ (a, item) :: r₂)) → s.elements.cells p = some ⟨y, ptr⟩ →
    item ∉ r₁.map Prod.snd →
    r₁.length < turns →
    ∃ s', LinkedList.removeLoop item turns (some p) ptr s = .ok s' ∧ s'.Linked (l₁ ++ (p, y) :: (r₁ ++ r₂)) := by
  induction turns with
  | zero =>
    intro p y l₁ r₁ r₂ ptr _ _ _ hlt
    exact absurd hlt (Nat.not_lt_zero _)
  | succ turns ih =>
    intro p y l₁ r₁ r₂ ptr hs hp hitem hlt
    obtain ⟨next, hp', -, hr, -⟩ := hs.split
    obtain rfl : ptr = next := congrArg Cell.next (Option.some.inj (hp.symm.trans hp'))
    cases r₁ with
    | nil =>
      obtain ⟨rfl, next, hc, -⟩ := hr
      rw [LinkedList.removeLoop, deref_eq hc, ok_bind, if_pos rfl, setNext_eq hp, ok_bind]
      exact ⟨_, rfl, hs.unlink hc⟩
    | cons z r₁ =>
      obtain ⟨rfl, next, hz, -⟩ := hr
      have hne : item ≠ z.2 := fun he => hitem (he ▸ List.mem_cons_self)
      obtain ⟨s', he, hs'⟩ :=
        ih hs.past hz (fun hmem => hitem (List.mem_cons_of_mem _ hmem)) (Nat.lt_of_succ_lt_succ hlt)
      rw [LinkedList.removeLoop, deref_eq hz, ok_bind, if_neg hne]
      refine ⟨s', he, ?_⟩
      rwa [List.append_assoc] at hs'

lemma takeOut (hs : s.Linked l) (hitem : item ∈ l.map Prod.snd) :
    ∃ s' l', s.takeOut item = .ok s' ∧ s'.Linked l' ∧ l'.map Prod.snd = (l.map Prod.snd).erase item := by
  cases l with
  | nil => exact absurd hitem List.not_mem_nil
  | cons y l =>
    obtain ⟨hfirst, next, hc, hl⟩ := hs.seg
    rw [LinkedList.takeOut, hfirst, deref_eq hc, ok_bind]
    by_cases he : item = y.2
    · subst he
      obtain ⟨s', hr, hs'⟩ := removeFront (a := y.1) (x := y.2) hs
      refine ⟨s', l, ?_, hs', by rw [List.map_cons, List.erase_cons_head]⟩
      rw [if_pos rfl, hr, ok_bind]
      dsimp only
      rw [decide_eq_true rfl, check_true]
      rfl
    · have hin : item ∈ l.map Prod.snd := (List.mem_cons.mp hitem).resolve_left he
      obtain ⟨xs, ys, hxs, hnot⟩ := List.eq_append_cons_of_mem hin
      obtain ⟨r₁, r₃, rfl, rfl, hr⟩ := List.map_eq_append_iff.mp hxs
      obtain ⟨z, r₂, rfl, rfl, rfl⟩ := List.map_eq_cons_iff.mp hr
      have hlen := hs.length_le
      simp only [List.length_cons, List.length_append] at hlen
      obtain ⟨s', hr, hs'⟩ := removeLoop s.elements.limit
        (show s.Linked ([] ++ (y.1, y.2) :: (r₁ ++ (z.1, z.2) :: r₂)) from hs) hc hnot (by omega)
      refine ⟨s', _, ?_, hs', ?_⟩
      · rw [if_neg he]
        exact hr
      · rw [List.nil_append, List.map_cons, List.map_cons, List.erase_cons_tail (by simpa using Ne.symm he),
          List.map_append,
          List.map_append, List.map_cons, List.erase_append_right _ hnot, List.erase_cons_head]

lemma remove (hs : s.Linked l) (hn : (l.map Prod.snd).Nodup) (hitem : item ∈ l.map Prod.snd) :
    ∃ s' l', s.remove item = .ok s' ∧ s'.Linked l' ∧ l'.map Prod.snd = (l.map Prod.snd).erase item := by
  obtain ⟨s', l', he, hs', herase⟩ := hs.takeOut hitem
  have hout : item ∉ l'.map Prod.snd := by
    rw [herase]
    exact hn.not_mem_erase
  refine ⟨s', l', ?_, hs', herase⟩
  rw [LinkedList.remove, hs.isInList, ok_bind, decide_eq_true hitem,
    check_true, ok_bind, he, ok_bind, hs'.isInList, ok_bind,
    decide_eq_false hout]
  rfl

omit [DecidableEq T] in
lemma sanityCheckLoop (turns : ℕ) :
    ∀ {l₁ l₂ : List (ℕ × T)} {a : ℕ} {x : T} {n : ℤ}, s.Linked (l₁ ++ (a, x) :: l₂) →
    n = l₁.length + 1 → l₂.length ≤ turns → s.sanityCheckLoop turns (some a) n = .ok s.numInList := by
  induction turns with
  | zero =>
    intro l₁ l₂ a x n hs hn hlen
    obtain rfl := List.length_eq_zero_iff.mp (Nat.le_zero.mp hlen)
    rw [LinkedList.sanityCheckLoop, if_pos (hs.last_iff.mpr rfl), hn, hs.count, List.length_append]
    rfl
  | succ turns ih =>
    intro l₁ l₂ a x n hs hn hlen
    have hcount := hs.count
    rw [List.length_append, List.length_cons] at hcount
    cases l₂ with
    | nil =>
      rw [LinkedList.sanityCheckLoop, if_pos (hs.last_iff.mpr rfl), hn, hcount]
      rfl
    | cons y l₂ =>
      obtain ⟨next, hc, -, ⟨rfl, -⟩, -⟩ := hs.split
      have hrest := ih (n := n + 1) hs.past (by rw [List.length_append, hn]; rfl) (Nat.le_of_succ_le_succ hlen)
      rw [LinkedList.sanityCheckLoop, if_neg (hs.last_iff.not.mpr (List.cons_ne_nil _ _)),
        decide_eq_true (by rw [hn, hcount, List.length_cons]; omega), check_true, ok_bind, deref_eq hc, ok_bind]
      exact hrest

omit [DecidableEq T] in
lemma sanityCheck (hs : s.Linked l) : s.sanityCheck = .ok () := by
  rw [LinkedList.sanityCheck]
  cases l with
  | nil =>
    have hfirst : s.first = none := hs.seg
    rw [if_pos hfirst, decide_eq_true ⟨hs.count, hs.last⟩]
    rfl
  | cons y l =>
    obtain ⟨hfirst, next, hc, hl⟩ := hs.seg
    obtain ⟨l₀, a, x, -, hlast, -, -, ha⟩ := hs.exists_last (List.cons_ne_nil _ _)
    have hiff : some y.1 = s.last ↔ l = [] := last_iff (show s.Linked ([] ++ (y.1, y.2) :: l) from hs)
    rw [if_neg (by rw [hfirst]; exact Option.some_ne_none _), hlast, deref_eq ha]
    rw [← hlast, hfirst]
    by_cases hnil : l = []
    · rw [if_pos (hiff.mpr hnil), ok_bind, decide_eq_true ⟨by rw [hs.count, hnil]; rfl, rfl⟩]
      rfl
    · have hlen := hs.length_le
      rw [List.length_cons] at hlen
      have hloop := sanityCheckLoop (n := 1) s.elements.limit
        (show s.Linked ([] ++ (y.1, y.2) :: l) from hs) rfl (by omega)
      rw [if_neg (hiff.not.mpr hnil), hloop, ok_bind, decide_eq_true rfl, check_true, ok_bind, ok_bind,
        decide_eq_true rfl, check_true]

end Linked

end LinkedList

inductive ListOp (T : Type)
  | append (item : T)
  | prepend (item : T)
  | removeFront
  | remove (item : T)

section

variable {T : Type} [DecidableEq T]

def LinkedList.perform (s : LinkedList T) : ListOp T → Except Fault (Option T × LinkedList T)
  | .append item => do
    let s ← s.append item
    pure (none, s)
  | .prepend item => do
    let s ← s.prepend item
    pure (none, s)
  | .removeFront => do
    let (item, s) ← s.removeFront
    pure (some item, s)
  | .remove item => do
    let s ← s.remove item
    pure (none, s)

def ListOp.apply (xs : List T) : ListOp T → Option (Option T × List T)
  | .append item => if item ∈ xs then none else some (none, xs ++ [item])
  | .prepend item => if item ∈ xs then none else some (none, item :: xs)
  | .removeFront =>
    match xs with
    | [] => none
    | x :: xs => some (some x, xs)
  | .remove item => if item ∈ xs then some (none, xs.erase item) else none

end

namespace LinkedList

variable {T : Type} {s : LinkedList T} {xs : List T}

def Represents (s : LinkedList T) (xs : List T) : Prop := ∃ l, s.Linked l ∧ l.map Prod.snd = xs

/-- From `first` the links lead to `last` past `numInList` elements in all, and no further. -/
structure Shaped (s : LinkedList T) : Prop where
  first : s.first = none ↔ s.numInList = 0
  last : s.last = none ↔ s.numInList = 0
  reaches (h : s.numInList ≠ 0) : ∃ l a x, Seg s.elements s.first l (some a) ∧ s.last = some a ∧
    s.elements.cells a = some ⟨x, none⟩ ∧ s.numInList = l.length + 1

lemma Linked.shaped {l : List (ℕ × T)} (hs : s.Linked l) : s.Shaped := by
  by_cases hne : l = []
  · subst hne
    have hcount : s.numInList = 0 := hs.count
    exact ⟨iff_of_true hs.seg hcount, iff_of_true hs.last hcount, fun h => absurd hcount h⟩
  · obtain ⟨l₀, a, x, rfl, hlast, -, hl, hc⟩ := hs.exists_last hne
    have hcount := hs.count
    rw [List.length_append, List.length_singleton] at hcount
    push_cast at hcount
    have hpos : s.numInList ≠ 0 := by omega
    refine ⟨iff_of_false (fun hfirst => ?_) hpos, iff_of_false (by rw [hlast]; exact Option.some_ne_none _) hpos,
      fun _ => ⟨l₀, a, x, hl, hlast, hc, hcount⟩⟩
    rw [hfirst] at hl
    cases l₀ with
    | nil => exact absurd hl (Option.some_ne_none _).symm
    | cons y l₀ => exact absurd hl.1 (Option.some_ne_none _).symm

namespace Represents

variable {item : T}

lemma isEmpty (hs : s.Represents xs) : s.isEmpty = decide (xs = []) := by
  obtain ⟨l, hl, rfl⟩ := hs
  rw [hl.isEmpty, decide_eq_decide, List.map_eq_nil_iff]

lemma numInList (hs : s.Represents xs) : s.numInList = xs.length := by
  obtain ⟨l, hl, rfl⟩ := hs
  rw [hl.count, List.length_map]

lemma removeFront {x : T} (hs : s.Represents (x :: xs)) :
    ∃ s', s.removeFront = .ok (x, s') ∧ s'.Represents xs := by
  obtain ⟨l, hl, hmap⟩ := hs
  obtain ⟨y, l, rfl, rfl, rfl⟩ := List.map_eq_cons_iff.mp hmap
  obtain ⟨s', hremove, hs'⟩ := hl.removeFront (a := y.1) (x := y.2)
  exact ⟨s', hremove, l, hs', rfl⟩

lemma sanityCheck (hs : s.Represents xs) : s.sanityCheck = .ok () := by
  obtain ⟨l, hl, -⟩ := hs
  exact hl.sanityCheck

variable [DecidableEq T]

lemma isInList (hs : s.Represents xs) (item : T) : s.isInList item = .ok (decide (item ∈ xs)) := by
  obtain ⟨l, hl, rfl⟩ := hs
  exact hl.isInList item

lemma append (hs : s.Represents xs) (hitem : item ∉ xs) :
    ∃ s', s.append item = .ok s' ∧ s'.Represents (xs ++ [item]) := by
  obtain ⟨l, hl, rfl⟩ := hs
  obtain ⟨s', happend, hs'⟩ := hl.append hitem
  exact ⟨s', happend, _, hs', by rw [List.map_append, List.map_singleton]⟩

lemma prepend (hs : s.Represents xs) (hitem : item ∉ xs) :
    ∃ s', s.prepend item = .ok s' ∧ s'.Represents (item :: xs) := by
  obtain ⟨l, hl, rfl⟩ := hs
  obtain ⟨s', hprepend, hs'⟩ := hl.prepend hitem
  exact ⟨s', hprepend, _, hs', List.map_cons⟩

lemma remove (hs : s.Represents xs) (hn : xs.Nodup) (hitem : item ∈ xs) :
    ∃ s', s.remove item = .ok s' ∧ s'.Represents (xs.erase item) := by
  obtain ⟨l, hl, rfl⟩ := hs
  obtain ⟨s', l', hremove, hs', herase⟩ := hl.remove hn hitem
  exact ⟨s', hremove, l', hs', herase⟩

end Represents

variable [DecidableEq T]

lemma perform_apply {op : ListOp T} {reply : Option T} {xs' : List T} (hs : s.Represents xs ∧ xs.Nodup)
    (h : op.apply xs = some (reply, xs')) :
    ∃ s', s.perform op = .ok (reply, s') ∧ s'.Represents xs' ∧ xs'.Nodup := by
  obtain ⟨hs, hn⟩ := hs
  cases op with
  | append item =>
    obtain ⟨hitem, he⟩ := Option.ite_none_left_eq_some.mp h
    cases he
    obtain ⟨s', happend, hs'⟩ := hs.append hitem
    refine ⟨s', by rw [perform, happend]; rfl, hs', ?_⟩
    exact hn.append (List.nodup_singleton item) (List.disjoint_singleton.mpr hitem)
  | prepend item =>
    obtain ⟨hitem, he⟩ := Option.ite_none_left_eq_some.mp h
    cases he
    obtain ⟨s', hprepend, hs'⟩ := hs.prepend hitem
    exact ⟨s', by rw [perform, hprepend]; rfl, hs', List.nodup_cons.mpr ⟨hitem, hn⟩⟩
  | removeFront =>
    cases xs with
    | nil => cases h
    | cons x xs =>
      cases h
      obtain ⟨s', hremove, hs'⟩ := hs.removeFront
      exact ⟨s', by rw [perform, hremove]; rfl, hs', (List.nodup_cons.mp hn).2⟩
  | remove item =>
    obtain ⟨hitem, he⟩ := Option.ite_none_right_eq_some.mp h
    cases he
    obtain ⟨s', hremove, hs'⟩ := hs.remove hn hitem
    exact ⟨s', by rw [perform, hremove]; rfl, hs', hn.erase item⟩

end LinkedList

end NachosFileSys
