import NachosFileSys.Lib.Bytes
import NachosFileSys.Lib.Classes
import NachosFileSys.Lib.Refinement
import NachosFileSys.LinkedList

/-! `lib/hash.cc`: hash tables that grow, with chains of items that hash to the same bucket. -/

namespace NachosFileSys

open Lib.Bytes Lib.Chains Lib.Classes Lib.Refinement
open LinkedList (deref deref_eq ok_bind check_true)

structure ListIterator (T : Type) where
  elements : Heap T
  current : Option ℕ

namespace ListIterator

variable {T : Type}

def new (list : LinkedList T) : ListIterator T := ⟨list.elements, list.first⟩

def isDone (it : ListIterator T) : Bool := it.current.isNone

def item (it : ListIterator T) : Except Fault T := do
  check (!it.isDone)
  let c ← deref it.elements it.current
  pure c.item

def next (it : ListIterator T) : Except Fault (ListIterator T) := do
  let c ← deref it.elements it.current
  pure { it with current := c.next }

end ListIterator

def InitialBuckets : ℕ := 4

def ResizeRatio : ℤ := 3

def IncreaseSizeBy : ℕ := 4

/-- `HashTable`; the functions `getKey` and `hash` are given to the operations that call them. -/
structure HashTable (T : Type) where
  buckets : List (LinkedList T)
  numBuckets : ℕ
  numItems : ℤ
  length_buckets : buckets.length = numBuckets

namespace HashTable

section Code

variable {Key T : Type} [DecidableEq Key] [DecidableEq T] (getKey : T → Key) (hash : Key → Word)

def initBuckets (s : HashTable T) (sz : ℕ) : HashTable T where
  buckets := List.replicate sz LinkedList.new
  numBuckets := sz
  numItems := s.numItems
  length_buckets := List.length_replicate

def new : HashTable T := initBuckets ⟨[], 0, 0, rfl⟩ InitialBuckets

def hashValue (s : HashTable T) (key : Key) : Except Fault ℕ := do
  let result := (hash key).toNat % s.numBuckets
  check (decide (result < s.numBuckets))
  pure result

def bucketAt (s : HashTable T) (bucket : ℕ) : Except Fault (LinkedList T) :=
  match s.buckets[bucket]? with
  | some list => .ok list
  | none => .error .index

def set (s : HashTable T) (bucket : ℕ) (list : LinkedList T) : HashTable T where
  buckets := s.buckets.set bucket list
  numBuckets := s.numBuckets
  numItems := s.numItems
  length_buckets := List.length_set.trans s.length_buckets

def findLoop (key : Key) : ℕ → ListIterator T → Except Fault (Option T)
  | turns, it =>
    if it.isDone then .ok none
    else
      match turns with
      | 0 => .error .depth
      | turns + 1 => do
        let x ← it.item
        if key = getKey x then do
          let x ← it.item
          pure (some x)
        else do
          let it ← it.next
          findLoop key turns it

def findInBucket (s : HashTable T) (bucket : ℕ) (key : Key) : Except Fault (Option T) := do
  let list ← s.bucketAt bucket
  findLoop getKey key list.elements.limit (.new list)

def find (s : HashTable T) (key : Key) : Except Fault (Option T) := do
  let bucket ← s.hashValue hash key
  s.findInBucket getKey bucket key

def isInTable (s : HashTable T) (key : Key) : Except Fault Bool := do
  let found ← s.find getKey hash key
  pure found.isSome

def placedLoop (s : HashTable T) (i : ℕ) : ℕ → ListIterator T → Except Fault Unit
  | turns, it =>
    if it.isDone then .ok ()
    else
      match turns with
      | 0 => .error .depth
      | turns + 1 => do
        let x ← it.item
        let bucket ← s.hashValue hash (getKey x)
        check (decide (i = bucket))
        let it ← it.next
        placedLoop s i turns it

def sanityCheckLoop (s : HashTable T) : ℕ → List (LinkedList T) → ℤ → Except Fault ℤ
  | _, [], numFound => .ok numFound
  | i, list :: rest, numFound => do
    list.sanityCheck
    s.placedLoop getKey hash i list.elements.limit (.new list)
    sanityCheckLoop s (i + 1) rest (numFound + list.numInList)

def sanityCheck (s : HashTable T) : Except Fault Unit := do
  let numFound ← s.sanityCheckLoop getKey hash 0 s.buckets 0
  check (decide (s.numItems = numFound))

def append (s : HashTable T) (item : T) : Except Fault (HashTable T) := do
  let bucket ← s.hashValue hash (getKey item)
  let list ← s.bucketAt bucket
  let list ← list.append item
  pure (s.set bucket list)

def moveLoop : ℕ → LinkedList T → HashTable T → Except Fault (HashTable T)
  | turns, list, s =>
    if list.isEmpty then .ok s
    else
      match turns with
      | 0 => .error .depth
      | turns + 1 => do
        let (item, list) ← list.removeFront
        let s ← s.append getKey hash item
        moveLoop turns list s

def moveAll : List (LinkedList T) → HashTable T → Except Fault (HashTable T)
  | [], s => .ok s
  | list :: oldTable, s => do
    let s ← moveLoop getKey hash list.elements.limit list s
    moveAll oldTable s

def reHash (s : HashTable T) : Except Fault (HashTable T) := do
  s.sanityCheck getKey hash
  let s ← moveAll getKey hash s.buckets (s.initBuckets (s.numBuckets * IncreaseSizeBy))
  s.sanityCheck getKey hash
  pure s

def grow (s : HashTable T) : Except Fault (HashTable T) :=
  if s.numItems.tdiv s.numBuckets ≥ ResizeRatio then s.reHash getKey hash else pure s

def insert (s : HashTable T) (item : T) : Except Fault (HashTable T) := do
  let key := getKey item
  check (!(← s.isInTable getKey hash key))
  let s ← s.grow getKey hash
  let s ← s.append getKey hash item
  let s := { s with numItems := s.numItems + 1 }
  check (← s.isInTable getKey hash key)
  pure s

def remove (s : HashTable T) (key : Key) : Except Fault (T × HashTable T) := do
  let bucket ← s.hashValue hash key
  let found ← s.findInBucket getKey bucket key
  match found with
  | none => .error .assertion
  | some item => do
    let list ← s.bucketAt bucket
    let list ← list.remove item
    let s := { s.set bucket list with numItems := s.numItems - 1 }
    check (!(← s.isInTable getKey hash key))
    pure (item, s)

def nextFull : ℕ → List (LinkedList T) → ℕ
  | bucket, [] => bucket
  | bucket, list :: rest => if !list.isEmpty then bucket else nextFull (bucket + 1) rest

def findNextFullBucket (s : HashTable T) (bucket : ℕ) : ℕ := nextFull bucket (s.buckets.drop bucket)

end Code

end HashTable

structure HashIterator (T : Type) where
  table : HashTable T
  bucket : ℕ
  bucketIter : Option (ListIterator T)

namespace HashIterator

variable {T : Type} [DecidableEq T]

def start (table : HashTable T) (bucket : ℕ) : HashIterator T :=
  let bucket := table.findNextFullBucket bucket
  ⟨table, bucket, table.buckets[bucket]?.map .new⟩

def new (table : HashTable T) : HashIterator T := start table 0

def isDone (it : HashIterator T) : Bool := it.bucket = it.table.numBuckets

def item (it : HashIterator T) : Except Fault T := do
  check (!it.isDone)
  match it.bucketIter with
  | some bucketIter => bucketIter.item
  | none => .error .null

def next (it : HashIterator T) : Except Fault (HashIterator T) :=
  match it.bucketIter with
  | some bucketIter => do
    let bucketIter ← bucketIter.next
    pure (if bucketIter.isDone then start it.table (it.bucket + 1) else { it with bucketIter := some bucketIter })
  | none => .error .null

def items : ℕ → HashIterator T → Except Fault (List T)
  | turns, it =>
    if it.isDone then .ok []
    else
      match turns with
      | 0 => .error .depth
      | turns + 1 => do
        let x ← it.item
        let it ← it.next
        let rest ← items turns it
        pure (x :: rest)

end HashIterator

namespace ListIterator

variable {T : Type} {it : ListIterator T} {list : LinkedList T} {x : T} {xs : List T}

def Yields (it : ListIterator T) (xs : List T) : Prop :=
  ∃ l, Seg it.elements it.current l none ∧ l.map Prod.snd = xs

lemma new_yields (hl : list.Represents xs) : (new list).Yields xs ∧ xs.length ≤ list.elements.limit := by
  obtain ⟨l, hl, rfl⟩ := hl
  exact ⟨⟨l, hl.seg, rfl⟩, by rw [List.length_map]; exact hl.length_le⟩

namespace Yields

lemma done (h : it.Yields []) : it.isDone = true := by
  obtain ⟨l, hl, hmap⟩ := h
  obtain rfl := List.map_eq_nil_iff.mp hmap
  have hcurrent : it.current = none := hl
  rw [isDone, hcurrent]
  rfl

lemma not_done (h : it.Yields (x :: xs)) : it.isDone = false := by
  obtain ⟨l, hl, hmap⟩ := h
  obtain ⟨y, l, rfl, -, -⟩ := List.map_eq_cons_iff.mp hmap
  rw [isDone, hl.1]
  rfl

lemma item (h : it.Yields (x :: xs)) : it.item = .ok x := by
  rw [ListIterator.item, h.not_done]
  obtain ⟨l, hl, hmap⟩ := h
  obtain ⟨y, l, rfl, rfl, -⟩ := List.map_eq_cons_iff.mp hmap
  obtain ⟨hcurrent, next, hc, -⟩ := hl
  rw [hcurrent, deref_eq hc]
  rfl

lemma next (h : it.Yields (x :: xs)) : ∃ it', it.next = .ok it' ∧ it'.Yields xs := by
  obtain ⟨l, hl, hmap⟩ := h
  obtain ⟨y, l, rfl, -, rfl⟩ := List.map_eq_cons_iff.mp hmap
  obtain ⟨hcurrent, next, hc, hl⟩ := hl
  refine ⟨⟨it.elements, next⟩, ?_, l, hl, rfl⟩
  rw [ListIterator.next, hcurrent, deref_eq hc]
  rfl

end Yields

end ListIterator

namespace HashTable

variable {Key T : Type} {getKey : T → Key} {hash : Key → Word}
  {s : HashTable T} {key : Key} {item x : T} {xs ys : List T}
  {i : ℕ} {list : LinkedList T}

def slot (getKey : T → Key) (hash : Key → Word) (s : HashTable T) (x : T) : ℕ :=
  (hash (getKey x)).toNat % s.numBuckets

structure Filed (getKey : T → Key) (hash : Key → Word) (s : HashTable T) (xs : List T) : Prop where
  pos : 0 < s.numBuckets
  bucket (i : ℕ) (list : LinkedList T) (h : s.buckets[i]? = some list) :
    ∃ ys, list.Represents ys ∧ ys.Perm (members (slot getKey hash s) i xs)

lemma hashValue_eq (hpos : 0 < s.numBuckets) (key : Key) :
    s.hashValue hash key = .ok ((hash key).toNat % s.numBuckets) := by
  rw [hashValue, decide_eq_true (Nat.mod_lt _ hpos)]
  rfl

lemma bucketAt_eq (h : s.buckets[i]? = some list) : s.bucketAt i = .ok list := by
  rw [bucketAt, h]

lemma initBuckets_filed (s : HashTable T) {n : ℕ} (hn : 0 < n) : Filed getKey hash (s.initBuckets n) [] := by
  refine ⟨hn, fun i list h => ⟨[], ?_, .nil⟩⟩
  obtain rfl := List.eq_of_mem_replicate (List.mem_of_getElem? h)
  exact ⟨[], LinkedList.new_linked, rfl⟩

namespace Filed

lemma perm (hs : Filed getKey hash s xs) (h : xs.Perm ys) : Filed getKey hash s ys := by
  refine ⟨hs.pos, fun i list hi => ?_⟩
  obtain ⟨zs, hl, hzs⟩ := hs.bucket i list hi
  exact ⟨zs, hl, hzs.trans (members_perm h)⟩

lemma at_key (hs : Filed getKey hash s xs) (key : Key) :
    ∃ list ys, s.buckets[(hash key).toNat % s.numBuckets]? = some list ∧ list.Represents ys ∧
      ys.Perm (members (slot getKey hash s) ((hash key).toNat % s.numBuckets) xs) := by
  have hlt : (hash key).toNat % s.numBuckets < s.buckets.length := by
    rw [s.length_buckets]
    exact Nat.mod_lt _ hs.pos
  obtain ⟨ys, hl, hys⟩ := hs.bucket _ _ (List.getElem?_eq_getElem hlt)
  exact ⟨_, ys, List.getElem?_eq_getElem hlt, hl, hys⟩

lemma set (hs : Filed getKey hash s xs) {zs : List T} (hl : list.Represents zs)
    (hzs : zs.Perm (members (slot getKey hash s) i ys))
    (hothers : ∀ j, j ≠ i → members (slot getKey hash s) j ys = members (slot getKey hash s) j xs) :
    Filed getKey hash (s.set i list) ys := by
  refine ⟨hs.pos, fun j list' hj => ?_⟩
  change (s.buckets.set i list)[j]? = some list' at hj
  change ∃ ys', list'.Represents ys' ∧ ys'.Perm (members (slot getKey hash s) j ys)
  by_cases hji : j = i
  · subst hji
    rw [List.getElem?_set, if_pos rfl] at hj
    obtain rfl := Option.some.inj (Option.ite_none_right_eq_some.mp hj).2
    exact ⟨zs, hl, hzs⟩
  · rw [List.getElem?_set_ne (Ne.symm hji)] at hj
    rw [hothers j hji]
    exact hs.bucket j list' hj

lemma contents (hs : Filed getKey hash s xs) :
    ∃ bs, List.Forall₂ LinkedList.Represents s.buckets bs ∧
      (∀ (i : ℕ) (ys : List T), bs[i]? = some ys → ∀ x ∈ ys, slot getKey hash s x = i) ∧ bs.flatten.Perm xs := by
  obtain ⟨bs, hbs, hperm⟩ := exists_forall₂ hs.bucket
  refine ⟨bs, hbs, fun i ys hi x hx => (mem_members.mp ((hperm i ys hi).mem_iff.mp hx)).2, ?_⟩
  have hall := flatten_perm (i := 0) (fun j ys hj => by
    rw [Nat.zero_add]
    exact hperm j ys hj)
  rwa [List.filter_eq_self.mpr] at hall
  intro x _
  have hlen := hbs.length_eq.symm.trans s.length_buckets
  refine decide_eq_true ⟨Nat.zero_le _, ?_⟩
  rw [hlen, Nat.zero_add]
  exact Nat.mod_lt _ hs.pos

section Items

variable [DecidableEq T]

lemma append (hs : Filed getKey hash s xs) (hitem : item ∉ xs) :
    ∃ s', s.append getKey hash item = .ok s' ∧ Filed getKey hash s' (xs ++ [item]) ∧ s'.numBuckets = s.numBuckets ∧
      s'.numItems = s.numItems := by
  obtain ⟨list, ys, hi, hl, hys⟩ := hs.at_key (getKey item)
  have hnot : item ∉ ys := fun hmem => hitem (mem_members.mp (hys.mem_iff.mp hmem)).1
  obtain ⟨list', happend, hl'⟩ := hl.append hnot
  refine ⟨_, ?_, hs.set hl' ?_ fun j hj => members_concat_of_ne (Ne.symm hj), rfl, rfl⟩
  · rw [HashTable.append, hashValue_eq hs.pos, ok_bind, bucketAt_eq hi, ok_bind, happend, ok_bind]
    rfl
  · rw [members_concat_self rfl]
    exact hys.append_right [item]

lemma erase (hs : Filed getKey hash s xs) (hn : xs.Nodup) (hitem : item ∈ xs) :
    ∃ list list', s.bucketAt ((hash (getKey item)).toNat % s.numBuckets) = .ok list ∧
    list.remove item = .ok list' ∧
      Filed getKey hash (s.set ((hash (getKey item)).toNat % s.numBuckets) list') (xs.erase item) := by
  obtain ⟨list, ys, hi, hl, hys⟩ := hs.at_key (getKey item)
  have hmem : item ∈ ys := hys.mem_iff.mpr (mem_members.mpr ⟨hitem, rfl⟩)
  obtain ⟨list', hremove, hl'⟩ := hl.remove (hys.nodup_iff.mpr (hn.filter _)) hmem
  refine ⟨list, list', bucketAt_eq hi, hremove, hs.set hl' ?_ fun j hj => members_erase_of_ne (Ne.symm hj)⟩
  rw [members_erase]
  exact hys.erase item

end Items

end Filed

section Finding

variable [DecidableEq Key]

lemma findLoop_eq (getKey : T → Key) (key : Key) (turns : ℕ) :
    ∀ {it : ListIterator T} {xs : List T}, it.Yields xs →
    xs.length ≤ turns → findLoop getKey key turns it = .ok (xs.find? fun x => key = getKey x) := by
  induction turns with
  | zero =>
    intro it xs hy hlen
    obtain rfl := List.length_eq_zero_iff.mp (Nat.le_zero.mp hlen)
    rw [findLoop, hy.done]
    rfl
  | succ turns ih =>
    intro it xs hy hlen
    cases xs with
    | nil =>
      rw [findLoop, hy.done]
      rfl
    | cons x xs =>
      obtain ⟨it', hnext, hy'⟩ := hy.next
      rw [findLoop, hy.not_done, if_neg Bool.false_ne_true, hy.item, ok_bind, ok_bind, hnext,
        ok_bind, ih hy' (Nat.le_of_succ_le_succ hlen), List.find?_cons]
      by_cases hkey : key = getKey x
      · rw [if_pos hkey, decide_eq_true hkey]
        rfl
      · rw [if_neg hkey, decide_eq_false hkey]

lemma eq_of_key (hn : (xs.map getKey).Nodup) :
    ∀ x ∈ xs, ∀ y ∈ xs, decide (key = getKey x) = true → decide (key = getKey y) = true → x = y :=
  fun _ hx _ hy hkx hky =>
    List.inj_on_of_nodup_map hn hx hy ((of_decide_eq_true hkx).symm.trans (of_decide_eq_true hky))

lemma key_of_find (h : (xs.find? fun y => key = getKey y) = some x) : getKey x = key := by
  have hx := List.find?_some h
  exact (of_decide_eq_true hx).symm

lemma find_eq_some_iff (hn : (xs.map getKey).Nodup) :
    (xs.find? fun y => key = getKey y) = some x ↔ x ∈ xs ∧ getKey x = key := by
  constructor
  · intro h
    exact ⟨List.mem_of_find?_eq_some h, key_of_find h⟩
  · rintro ⟨hx, rfl⟩
    have hsome : (xs.find? fun y => getKey x = getKey y).isSome :=
      List.find?_isSome.mpr ⟨x, hx, decide_eq_true rfl⟩
    obtain ⟨y, hy⟩ := Option.isSome_iff_exists.mp hsome
    rw [hy, List.inj_on_of_nodup_map hn (List.mem_of_find?_eq_some hy) hx (key_of_find hy)]

namespace Filed

lemma findInBucket (hs : Filed getKey hash s xs) (hn : (xs.map getKey).Nodup) (key : Key) :
    s.findInBucket getKey ((hash key).toNat % s.numBuckets) key = .ok (xs.find? fun x => key = getKey x) := by
  obtain ⟨list, ys, hi, hl, hys⟩ := hs.at_key key
  obtain ⟨hy, hlen⟩ := ListIterator.new_yields hl
  have hsub : ∀ x ∈ ys, x ∈ xs := fun x hx => (mem_members.mp (hys.mem_iff.mp hx)).1
  have hone : ∀ x ∈ ys, ∀ y ∈ ys, decide (key = getKey x) = true → decide (key = getKey y) = true → x = y :=
    fun x hx y hy => eq_of_key hn x (hsub x hx) y (hsub y hy)
  have hslot : ∀ x, decide (key = getKey x) = true → slot getKey hash s x = (hash key).toNat % s.numBuckets := by
    intro x hx
    rw [slot, of_decide_eq_true hx]
  rw [HashTable.findInBucket, bucketAt_eq hi, ok_bind, findLoop_eq getKey key _ hy hlen, find_perm hys hone,
    find_members hslot]

lemma find (hs : Filed getKey hash s xs) (hn : (xs.map getKey).Nodup) (key : Key) :
    s.find getKey hash key = .ok (xs.find? fun x => key = getKey x) := by
  rw [HashTable.find, hashValue_eq hs.pos, ok_bind, hs.findInBucket hn]

lemma isInTable (hs : Filed getKey hash s xs) (hn : (xs.map getKey).Nodup) (key : Key) :
    s.isInTable getKey hash key = .ok (decide (key ∈ xs.map getKey)) := by
  rw [HashTable.isInTable, hs.find hn, ok_bind]
  refine congrArg Except.ok ?_
  rw [Bool.eq_iff_iff, decide_eq_true_iff, List.find?_isSome, List.mem_map]
  exact exists_congr fun x => and_congr_right fun _ => by rw [decide_eq_true_iff, eq_comm]

end Filed

end Finding

section Checks

lemma placedLoop_eq (hpos : 0 < s.numBuckets) (turns : ℕ) : ∀ {it : ListIterator T} {xs : List T}, it.Yields xs →
    (∀ x ∈ xs, slot getKey hash s x = i) → xs.length ≤ turns → s.placedLoop getKey hash i turns it = .ok () := by
  induction turns with
  | zero =>
    intro it xs hy _ hlen
    obtain rfl := List.length_eq_zero_iff.mp (Nat.le_zero.mp hlen)
    rw [placedLoop, hy.done]
    rfl
  | succ turns ih =>
    intro it xs hy hslot hlen
    cases xs with
    | nil =>
      rw [placedLoop, hy.done]
      rfl
    | cons x xs =>
      obtain ⟨it', hnext, hy'⟩ := hy.next
      have hx : i = (hash (getKey x)).toNat % s.numBuckets := (hslot x List.mem_cons_self).symm
      rw [placedLoop, hy.not_done, if_neg Bool.false_ne_true, hy.item, ok_bind, hashValue_eq hpos, ok_bind,
        decide_eq_true hx, check_true, ok_bind, hnext, ok_bind]
      exact ih hy' (fun x hx => hslot x (List.mem_cons_of_mem _ hx)) (Nat.le_of_succ_le_succ hlen)

lemma sanityCheckLoop_eq (hpos : 0 < s.numBuckets) {lists : List (LinkedList T)} {bs : List (List T)}
    (hbs : List.Forall₂ LinkedList.Represents lists bs) : ∀ {i : ℕ} {n : ℤ},
    (∀ (j : ℕ) (ys : List T), bs[j]? = some ys → ∀ x ∈ ys, slot getKey hash s x = i + j) →
    s.sanityCheckLoop getKey hash i lists n = .ok (n + bs.flatten.length) := by
  induction hbs with
  | nil =>
    intro i n _
    rw [sanityCheckLoop, List.flatten_nil, List.length_nil, Nat.cast_zero, add_zero]
  | cons hl _ ih =>
    intro i n hslot
    obtain ⟨hy, hlen⟩ := ListIterator.new_yields hl
    have hplaced := placedLoop_eq hpos _ hy (i := i) (hslot 0 _ rfl) hlen
    rw [sanityCheckLoop, hl.sanityCheck, ok_bind, hplaced, ok_bind, ih, hl.numInList,
      List.flatten_cons, List.length_append, Nat.cast_add, add_assoc]
    intro j ys hj
    have h := hslot (j + 1) ys hj
    rwa [← Nat.add_assoc, Nat.add_right_comm] at h

lemma Filed.sanityCheck (hs : Filed getKey hash s xs) (hcount : s.numItems = xs.length) :
    s.sanityCheck getKey hash = .ok () := by
  obtain ⟨bs, hbs, hslot, hperm⟩ := hs.contents
  have hloop : s.sanityCheckLoop getKey hash 0 s.buckets 0 = .ok (0 + (bs.flatten.length : ℤ)) :=
    sanityCheckLoop_eq hs.pos hbs fun j ys hj => by
      rw [Nat.zero_add]
      exact hslot j ys hj
  rw [HashTable.sanityCheck, hloop, ok_bind, hperm.length_eq, zero_add, hcount, decide_eq_true rfl]
  rfl

end Checks

section Growth

variable [DecidableEq T]

lemma moveLoop_eq (turns : ℕ) : ∀ {list : LinkedList T} {xs ys : List T} {s : HashTable T}, list.Represents ys →
    Filed getKey hash s xs → (xs ++ ys).Nodup → ys.length ≤ turns →
    ∃ s', moveLoop getKey hash turns list s = .ok s' ∧ Filed getKey hash s' (xs ++ ys) ∧
    s'.numBuckets = s.numBuckets ∧
      s'.numItems = s.numItems := by
  induction turns with
  | zero =>
    intro list xs ys s hl hs _ hlen
    obtain rfl := List.length_eq_zero_iff.mp (Nat.le_zero.mp hlen)
    rw [moveLoop, hl.isEmpty, decide_eq_true rfl, if_pos rfl, List.append_nil]
    exact ⟨s, rfl, hs, rfl, rfl⟩
  | succ turns ih =>
    intro list xs ys s hl hs hn hlen
    rw [moveLoop, hl.isEmpty]
    cases ys with
    | nil =>
      rw [decide_eq_true rfl, if_pos rfl, List.append_nil]
      exact ⟨s, rfl, hs, rfl, rfl⟩
    | cons y ys =>
      have hy : y ∉ xs := fun hmem => (List.disjoint_of_nodup_append hn) hmem List.mem_cons_self
      obtain ⟨list', hremove, hl'⟩ := hl.removeFront
      obtain ⟨s₁, happend, hs₁, hb₁, hi₁⟩ := hs.append hy
      rw [List.append_cons] at hn
      obtain ⟨s', hmove, hs', hb', hi'⟩ := ih hl' hs₁ hn (Nat.le_of_succ_le_succ hlen)
      rw [decide_eq_false (List.cons_ne_nil _ _), if_neg Bool.false_ne_true]
      dsimp only
      rw [hremove, ok_bind]
      dsimp only
      rw [happend, ok_bind, List.append_cons]
      exact ⟨s', hmove, hs', hb'.trans hb₁, hi'.trans hi₁⟩

lemma moveAll_eq {lists : List (LinkedList T)} {bs : List (List T)}
    (hbs : List.Forall₂ LinkedList.Represents lists bs) :
    ∀ {xs : List T} {s : HashTable T}, Filed getKey hash s xs → (xs ++ bs.flatten).Nodup →
    ∃ s', moveAll getKey hash lists s = .ok s' ∧ Filed getKey hash s' (xs ++ bs.flatten) ∧
    s'.numBuckets = s.numBuckets ∧
      s'.numItems = s.numItems := by
  induction hbs with
  | nil =>
    intro xs s hs _
    rw [List.flatten_nil, List.append_nil]
    exact ⟨s, rfl, hs, rfl, rfl⟩
  | cons hl _ ih =>
    intro xs s hs hn
    rw [List.flatten_cons, ← List.append_assoc] at hn ⊢
    obtain ⟨s₁, hmove, hs₁, hb₁, hi₁⟩ := moveLoop_eq _ hl hs hn.of_append_left (ListIterator.new_yields hl).2
    obtain ⟨s', hrest, hs', hb', hi'⟩ := ih hs₁ hn
    rw [moveAll, hmove, ok_bind]
    exact ⟨s', hrest, hs', hb'.trans hb₁, hi'.trans hi₁⟩

lemma Filed.reHash (hs : Filed getKey hash s xs) (hn : xs.Nodup) (hcount : s.numItems = xs.length) :
    ∃ s', s.reHash getKey hash = .ok s' ∧ Filed getKey hash s' xs ∧ s'.numBuckets = s.numBuckets * IncreaseSizeBy ∧
      s'.numItems = s.numItems := by
  obtain ⟨bs, hbs, -, hperm⟩ := hs.contents
  have hnew : Filed getKey hash (s.initBuckets (s.numBuckets * IncreaseSizeBy)) [] :=
    initBuckets_filed s (Nat.mul_pos hs.pos (by decide))
  obtain ⟨s', hmove, hs', hb, hi⟩ := moveAll_eq hbs hnew (hperm.nodup_iff.mpr hn)
  have hs' := hs'.perm hperm
  refine ⟨s', ?_, hs', hb, hi⟩
  rw [HashTable.reHash, hs.sanityCheck hcount, ok_bind, hmove, ok_bind, hs'.sanityCheck (hi.trans hcount)]
  rfl

end Growth

end HashTable

namespace HashIterator

variable {T : Type} {table : HashTable T} {xs ys : List T} {bucket : ℕ}

lemma items_bucket (hb : bucket < table.numBuckets)
    (hrest : ∀ turns, ys.length ≤ turns → items turns (start table (bucket + 1)) = .ok ys) :
    ∀ {xs : List T} {it : ListIterator T} {turns : ℕ}, xs ≠ [] → it.Yields xs → xs.length + ys.length ≤ turns →
    items turns ⟨table, bucket, some it⟩ = .ok (xs ++ ys) := by
  intro xs
  induction xs with
  | nil =>
    intro it turns hne
    exact absurd rfl hne
  | cons x xs ih =>
    intro it turns _ hy hlen
    obtain ⟨turns, rfl⟩ : ∃ t, turns = t + 1 := ⟨turns - 1, by rw [List.length_cons] at hlen; omega⟩
    have hlen : xs.length + ys.length ≤ turns := by
      rw [List.length_cons] at hlen
      omega
    have hdone : isDone ⟨table, bucket, some it⟩ = false := decide_eq_false (Nat.ne_of_lt hb)
    have hitem : item ⟨table, bucket, some it⟩ = .ok x := by
      rw [item, hdone]
      exact hy.item
    obtain ⟨it', hnext, hy'⟩ := hy.next
    have hmove : next ⟨table, bucket, some it⟩ =
        .ok (if it'.isDone then start table (bucket + 1) else ⟨table, bucket, some it'⟩) := by
      rw [next]
      dsimp only
      rw [hnext]
      rfl
    have hgo : items turns (if it'.isDone then start table (bucket + 1) else ⟨table, bucket, some it'⟩) =
        .ok (xs ++ ys) := by
      cases xs with
      | nil =>
        rw [hy'.done, if_pos rfl]
        exact hrest turns (by simpa using hlen)
      | cons z xs =>
        rw [hy'.not_done, if_neg Bool.false_ne_true]
        exact ih (List.cons_ne_nil _ _) hy' hlen
    rw [items, hdone, if_neg Bool.false_ne_true, hitem, ok_bind, hmove, ok_bind, hgo]
    rfl

lemma items_start {lists : List (LinkedList T)} {bs : List (List T)}
    (hbs : List.Forall₂ LinkedList.Represents lists bs) :
    ∀ {bucket turns : ℕ}, table.buckets.drop bucket = lists →
    bucket ≤ table.numBuckets → bs.flatten.length ≤ turns →
    items turns (start table bucket) = .ok bs.flatten := by
  induction hbs with
  | nil =>
    intro bucket turns hdrop hle _
    have hend : bucket = table.numBuckets := by
      have hlen := List.drop_eq_nil_iff.mp hdrop
      rw [table.length_buckets] at hlen
      omega
    have hdone : (start table bucket).isDone = true := by
      rw [start, HashTable.findNextFullBucket, hdrop]
      exact decide_eq_true hend
    rw [items.eq_def]
    dsimp only
    rw [hdone, if_pos rfl, List.flatten_nil]
  | @cons list b lists bs hl _ ih =>
    intro bucket turns hdrop hle hlen
    have hget : table.buckets[bucket]? = some list := by
      rw [← Nat.add_zero bucket, ← List.getElem?_drop, hdrop]
      rfl
    have hrest : table.buckets.drop (bucket + 1) = lists := by
      rw [← List.drop_drop, hdrop]
      rfl
    have hlt : bucket < table.numBuckets := by
      rw [← table.length_buckets]
      exact (List.getElem?_eq_some_iff.mp hget).1
    rw [List.flatten_cons, List.length_append] at hlen
    rw [List.flatten_cons]
    have hfull : table.findNextFullBucket bucket =
        if !decide (b = []) then bucket else table.findNextFullBucket (bucket + 1) := by
      rw [HashTable.findNextFullBucket, hdrop, HashTable.nextFull, hl.isEmpty, HashTable.findNextFullBucket, hrest]
    by_cases hb : b = []
    · have hstart : start table bucket = start table (bucket + 1) := by
        rw [start, hfull, decide_eq_true hb]
        rfl
      rw [hstart, hb, List.nil_append]
      exact ih hrest hlt (by omega)
    · have hstart : start table bucket = ⟨table, bucket, some (.new list)⟩ := by
        rw [start, hfull, decide_eq_false hb, Bool.not_false, if_pos rfl, hget]
        rfl
      rw [hstart]
      exact items_bucket hlt (fun turns ht => ih hrest hlt ht) hb (ListIterator.new_yields hl).1 hlen

end HashIterator

inductive TableOp (Key T : Type)
  | insert (item : T)
  | remove (key : Key)

section

variable {Key T : Type} [DecidableEq Key] [DecidableEq T] (getKey : T → Key) (hash : Key → Word)

def HashTable.perform (s : HashTable T) : TableOp Key T → Except Fault (Option T × HashTable T)
  | .insert item => do
    let s ← s.insert getKey hash item
    pure (none, s)
  | .remove key => do
    let (item, s) ← s.remove getKey hash key
    pure (some item, s)

def TableOp.apply (xs : List T) : TableOp Key T → Option (Option T × List T)
  | .insert item => if getKey item ∈ xs.map getKey then none else some (none, xs ++ [item])
  | .remove key =>
    match xs.find? fun x => key = getKey x with
    | none => none
    | some x => some (some x, xs.erase x)

end

namespace HashTable

variable {Key T : Type} {getKey : T → Key} {hash : Key → Word} {s : HashTable T} {xs : List T}

structure Holds (getKey : T → Key) (hash : Key → Word) (s : HashTable T) (xs : List T) : Prop where
  filed : Filed getKey hash s xs
  count : s.numItems = xs.length
  keys : (xs.map getKey).Nodup

lemma Holds.nodup (hs : Holds getKey hash s xs) : xs.Nodup := hs.keys.of_map

lemma new_holds : Holds getKey hash (new : HashTable T) [] :=
  ⟨initBuckets_filed _ (by decide), rfl, List.nodup_nil⟩

variable [DecidableEq T]

lemma Filed.inBucket_iff (hs : Filed getKey hash s xs) (i : ℕ) (x : T) :
    (∃ list, s.buckets[i]? = some list ∧ list.isInList x = .ok true) ↔
    x ∈ xs ∧ s.hashValue hash (getKey x) = .ok i := by
  rw [hashValue_eq hs.pos]
  constructor
  · rintro ⟨list, hi, hin⟩
    obtain ⟨ys, hl, hys⟩ := hs.bucket i list hi
    rw [hl.isInList] at hin
    obtain ⟨hx, hslot⟩ := mem_members.mp (hys.mem_iff.mp (of_decide_eq_true (Except.ok.inj hin)))
    exact ⟨hx, congrArg Except.ok hslot⟩
  · rintro ⟨hx, hslot⟩
    obtain ⟨list, ys, hi, hl, hys⟩ := hs.at_key (getKey x)
    rw [Except.ok.inj hslot] at hi hys
    refine ⟨list, hi, ?_⟩
    rw [hl.isInList, decide_eq_true (hys.mem_iff.mpr (mem_members.mpr ⟨hx, Except.ok.inj hslot⟩))]

lemma Holds.grow (hs : Holds getKey hash s xs) : ∃ s', s.grow getKey hash = .ok s' ∧ Holds getKey hash s' xs := by
  rw [HashTable.grow]
  split
  · obtain ⟨s', hrehash, hs', -, hi⟩ := hs.filed.reHash hs.nodup hs.count
    exact ⟨s', hrehash, hs', hi.trans hs.count, hs.keys⟩
  · exact ⟨s, rfl, hs⟩

variable [DecidableEq Key]

lemma Holds.insert (hs : Holds getKey hash s xs) {item : T} (hkey : getKey item ∉ xs.map getKey) :
    ∃ s', s.insert getKey hash item = .ok s' ∧ Holds getKey hash s' (xs ++ [item]) := by
  have hitem : item ∉ xs := fun hmem => hkey (List.mem_map_of_mem hmem)
  obtain ⟨s₁, hgrow, hs₁⟩ := hs.grow
  obtain ⟨s₂, happend, hs₂, -, hi₂⟩ := hs₁.filed.append hitem
  have hkeys : ((xs ++ [item]).map getKey).Nodup := by
    rw [List.map_append]
    exact hs.keys.append (List.nodup_singleton _) (List.disjoint_singleton.mpr hkey)
  have hs' : Filed getKey hash { s₂ with numItems := s₂.numItems + 1 } (xs ++ [item]) := ⟨hs₂.pos, hs₂.bucket⟩
  have hin : getKey item ∈ (xs ++ [item]).map getKey :=
    List.mem_map_of_mem (List.mem_append_right _ List.mem_cons_self)
  refine ⟨_, ?_, hs', ?_, hkeys⟩
  · rw [HashTable.insert, hs.filed.isInTable hs.keys, ok_bind,
      decide_eq_false hkey, Bool.not_false, check_true, ok_bind, hgrow,
      ok_bind, happend, ok_bind]
    dsimp only
    rw [hs'.isInTable hkeys, ok_bind, decide_eq_true hin]
    rfl
  · change s₂.numItems + 1 = _
    rw [hi₂, hs₁.count, List.length_append, List.length_singleton, Nat.cast_add, Nat.cast_one]

lemma Holds.remove (hs : Holds getKey hash s xs) {key : Key}
    {x : T} (hx : (xs.find? fun y => key = getKey y) = some x) :
    ∃ s', s.remove getKey hash key = .ok (x, s') ∧ Holds getKey hash s' (xs.erase x) := by
  obtain ⟨hmem, rfl⟩ := (find_eq_some_iff hs.keys).mp hx
  obtain ⟨list, list', hat, hremove, hs₁⟩ := hs.filed.erase hs.nodup hmem
  have hkeys : ((xs.erase x).map getKey).Nodup := hs.keys.sublist (List.erase_sublist.map getKey)
  have hs' :
      Filed getKey hash { s.set ((hash (getKey x)).toNat % s.numBuckets) list' with numItems := s.numItems - 1 }
      (xs.erase x) := ⟨hs₁.pos, hs₁.bucket⟩
  have hout : getKey x ∉ (xs.erase x).map getKey := by
    intro hin
    obtain ⟨y, hy, he⟩ := List.mem_map.mp hin
    obtain rfl := List.inj_on_of_nodup_map hs.keys (List.mem_of_mem_erase hy) hmem he
    exact hs.nodup.not_mem_erase hy
  refine ⟨_, ?_, hs', ?_, hkeys⟩
  · rw [HashTable.remove, hashValue_eq hs.filed.pos, ok_bind, hs.filed.findInBucket hs.keys, ok_bind, hx]
    dsimp only
    rw [hat, ok_bind, hremove, ok_bind, hs'.isInTable hkeys, ok_bind, decide_eq_false hout]
    rfl
  · change s.numItems - 1 = _
    have hlen := List.length_erase_of_mem hmem
    have hpos := List.length_pos_of_mem hmem
    have hcount := hs.count
    omega

lemma Holds.perform {op : TableOp Key T} {reply : Option T} {xs' : List T} (hs : Holds getKey hash s xs)
    (h : op.apply getKey xs = some (reply, xs')) :
    ∃ s', s.perform getKey hash op = .ok (reply, s') ∧ Holds getKey hash s' xs' := by
  cases op with
  | insert item =>
    obtain ⟨hkey, he⟩ := Option.ite_none_left_eq_some.mp h
    cases he
    obtain ⟨s', hinsert, hs'⟩ := hs.insert hkey
    exact ⟨s', by rw [HashTable.perform, hinsert]; rfl, hs'⟩
  | remove key =>
    cases hx : xs.find? fun x => key = getKey x with
    | none =>
      rw [TableOp.apply, hx] at h
      cases h
    | some x =>
      rw [TableOp.apply, hx] at h
      cases h
      obtain ⟨s', hremove, hs'⟩ := hs.remove hx
      exact ⟨s', by rw [HashTable.perform, hremove]; rfl, hs'⟩

structure IsMap (getKey : T → Key) (hash : Key → Word) (s : HashTable T) (xs : List T) : Prop where
  find (key : Key) : ∃ found, s.find getKey hash key = .ok found ∧ ∀ x, found = some x ↔ x ∈ xs ∧ getKey x = key
  count : s.numItems = xs.length
  inBucket (i : ℕ) (x : T) : (∃ list, s.buckets[i]? = some list ∧ list.isInList x = .ok true) ↔
    x ∈ xs ∧ s.hashValue hash (getKey x) = .ok i
  sanityCheck : s.sanityCheck getKey hash = .ok ()
  iterates : ∃ ys, (HashIterator.new s).items xs.length = .ok ys ∧ ys.Perm xs ∧ ys.Nodup

lemma Holds.isMap (hs : Holds getKey hash s xs) : IsMap getKey hash s xs := by
  obtain ⟨bs, hbs, -, hperm⟩ := hs.filed.contents
  refine ⟨fun key => ⟨_, hs.filed.find hs.keys key, fun x => find_eq_some_iff hs.keys⟩,
    hs.count, hs.filed.inBucket_iff,
    hs.filed.sanityCheck hs.count, bs.flatten, ?_, hperm, hperm.nodup_iff.mpr hs.nodup⟩
  exact HashIterator.items_start hbs rfl (Nat.zero_le _) (le_of_eq hperm.length_eq)

/-- After any operations whose assertions hold, the table is a map with the items that are left, and
it is still one when it grows. -/
theorem hash_table (Key T : Type) [DecidableEq Key] [DecidableEq T] (getKey : T → Key) (hash : Key → Word)
    (ops : List (TableOp Key T)) (replies : List (Option T)) (xs : List T)
    (h : runAll (TableOp.apply getKey) ops [] = some (replies, xs)) :
    ∃ s, runAll (HashTable.perform getKey hash) ops new = .ok (replies, s) ∧ IsMap getKey hash s xs ∧
      ∃ s', s.reHash getKey hash = .ok s' ∧ s'.numBuckets = s.numBuckets * IncreaseSizeBy ∧
      IsMap getKey hash s' xs := by
  obtain ⟨s, hrun, hs⟩ := runAll_refines (g := TableOp.apply getKey) (I := Holds getKey hash)
    (fun _ _ _ _ _ hs hop => hs.perform hop) new_holds h
  obtain ⟨s', hrehash, hs', hb, hi⟩ := hs.filed.reHash hs.nodup hs.count
  have hholds : Holds getKey hash s' xs := ⟨hs', hi.trans hs.count, hs.keys⟩
  exact ⟨s, hrun, hs.isMap, s', hrehash, hb, hholds.isMap⟩

theorem hash_table_grown :
    ∃ s, runAll (HashTable.perform (fun x : ℕ => x % 100) (BitVec.ofNat 32))
        ([0, 1, 2, 3, 4, 20, 6, 7, 8, 36, 10, 11, 12].map TableOp.insert ++ [.remove 20, .insert 120]) new =
          .ok (List.replicate 13 none ++ [some 20, none], s) ∧
      IsMap (fun x => x % 100) (BitVec.ofNat 32) s [0, 1, 2, 3, 4, 6, 7, 8, 36, 10, 11, 12, 120] ∧
      ∃ s', s.reHash (fun x => x % 100) (BitVec.ofNat 32) = .ok s' ∧
      s'.numBuckets = s.numBuckets * IncreaseSizeBy ∧
        IsMap (fun x => x % 100) (BitVec.ofNat 32) s' [0, 1, 2, 3, 4, 6, 7, 8, 36, 10, 11, 12, 120] :=
  hash_table ℕ ℕ (fun x => x % 100) (BitVec.ofNat 32) _ _ _ (by decide)

end HashTable

end NachosFileSys
