import NachosFileSys.Descriptors

namespace NachosFileSys

open Lib.Runs

namespace FileTable

variable {t : FileTable} {g : ℕ}

def HasRoom (t : FileTable) : Prop := none ∈ t.table

lemma insert_of_free (f : Pointer) (h : t.table.findIdx? Option.isNone = some g) :
    t.insert f = ((g : ℤ), t.writeEntry g f) := by
  rw [insert, h]

lemma insert_of_full (f : Pointer) (h : t.table.findIdx? Option.isNone = none) : t.insert f = (-1, t) := by
  rw [insert, h]

lemma free_spec (h : t.table.findIdx? Option.isNone = some g) : t.table[g]? = some none := by
  obtain ⟨hlt, hp, -⟩ := List.findIdx?_eq_some_iff_getElem.mp h
  rw [List.getElem?_eq_getElem hlt, Option.isNone_iff_eq_none.mp hp]

lemma hasRoom_of_free (h : t.table.findIdx? Option.isNone = some g) : t.HasRoom :=
  List.mem_of_getElem? (free_spec h)

lemma not_hasRoom (h : t.table.findIdx? Option.isNone = none) : ¬t.HasRoom := by
  intro hmem
  have hnone := List.findIdx?_eq_none_iff.mp h none hmem
  cases hnone

lemma resolve_natCast (hlen : t.table.length = MAX_OPEN_FILE_ID) (g : ℕ) :
    t.resolve g = t.table[g]?.join.map (·.file) := by
  rw [resolve]
  split_ifs with h
  · have hge : t.table.length ≤ g := by omega
    rw [List.getElem?_eq_none hge]
    rfl
  · rw [readEntry, Int.toNat_natCast, List.getD_eq_getElem?_getD]
    cases t.table[g]? <;> rfl

lemma resolve_of_neg {id : ℤ} (h : id < 0) : t.resolve id = none := if_pos (Or.inl h)

lemma getElem?_writeEntry_self (f : Pointer) (h : t.table[g]? = some none) :
    (t.writeEntry g f).table[g]? = some (some ⟨f, 1⟩) := by
  obtain ⟨hlt, -⟩ := List.getElem?_eq_some_iff.mp h
  exact List.getElem?_set_self hlt

lemma getElem?_writeEntry_of_ne (f : Pointer) {k : ℕ} (h : k ≠ g) : (t.writeEntry g f).table[k]? = t.table[k]? :=
  List.getElem?_set_ne (Ne.symm h)

lemma length_writeEntry (f : Pointer) : (t.writeEntry g f).table.length = t.table.length := List.length_set

lemma resolve_writeEntry (hlen : t.table.length = MAX_OPEN_FILE_ID)
    (f : Pointer) (h : t.table[g]? = some none) (id : ℤ) :
    (t.writeEntry g f).resolve id = if id = g then some f else t.resolve id := by
  have hlen' : (t.writeEntry g f).table.length = MAX_OPEN_FILE_ID := (length_writeEntry f).trans hlen
  cases id with
  | negSucc k =>
    rw [resolve_of_neg (Int.negSucc_lt_zero k), resolve_of_neg (Int.negSucc_lt_zero k), if_neg (by simp)]
  | ofNat k =>
    rw [Int.ofNat_eq_natCast, resolve_natCast hlen', resolve_natCast hlen]
    by_cases hk : k = g
    · subst hk
      rw [if_pos rfl, getElem?_writeEntry_self f h]
      rfl
    · rw [if_neg (by exact_mod_cast hk), getElem?_writeEntry_of_ne f hk]

end FileTable

namespace FileVector

variable {v : FileVector} {i : ℕ}

def HasRoom (v : FileVector) : Prop := ∃ i, 2 ≤ i ∧ v.idVector[i]? = some (-1)

lemma two_le_freeId (h : v.freeId = some i) : 2 ≤ i := by
  obtain ⟨j, -, rfl⟩ := Option.map_eq_some_iff.mp h
  exact Nat.le_add_left 2 j

lemma hasRoom_of_freeId (h : v.freeId = some i) : v.HasRoom := ⟨i, two_le_freeId h, Descriptors.freeId_spec h⟩

lemma not_hasRoom (h : v.freeId = none) : ¬v.HasRoom := by
  rintro ⟨i, hi, hfree⟩
  have hmem : (-1 : ℤ) ∈ v.idVector.drop 2 := by
    apply List.mem_of_getElem? (i := i - 2)
    rw [List.getElem?_drop, Nat.add_sub_cancel' hi, hfree]
  have hused := List.findIdx?_eq_none_iff.mp (Option.map_eq_none_iff.mp h) _ hmem
  simp at hused

lemma insert_eq (v : FileVector) (t : FileTable) (f : Pointer) :
    v.insert t f = match v.freeId with
      | some i => (i, ⟨v.idVector.set i (t.insert f).1⟩, (t.insert f).2)
      | none => (-1, v, (t.insert f).2) := rfl

lemma resolve_natCast (hlen : v.idVector.length = MAX_OPEN_FILE_ID) (t : FileTable) (j : ℕ) :
    v.resolve t j = v.idVector[j]?.elim none t.resolve := by
  rw [resolve]
  split_ifs with h
  · have hge : v.idVector.length ≤ j := by omega
    rw [List.getElem?_eq_none hge]
    rfl
  · have hlt : j < v.idVector.length := by omega
    rw [Int.toNat_natCast, List.getD_eq_getElem?_getD, List.getElem?_eq_getElem hlt]
    rfl

/-- What a caller of `Insert` is owed: a local id that was free and resolves to the file, and of the two tables
only the two slots changed; or `-1` and nothing changed, where one of the tables is full. -/
def InsertClean (v : FileVector) (t : FileTable) (f : Pointer) : ℤ × FileVector × FileTable → Prop
  | (id, v', t') =>
    (∃ i g : ℕ, id = i ∧ 2 ≤ i ∧ i < MAX_OPEN_FILE_ID ∧ v.idVector[i]? = some (-1) ∧ v'.resolve t' id = some f ∧
        t.table[g]? = some none ∧ v'.idVector[i]? = some (g : ℤ) ∧ (∀ j ≠ i, v'.idVector[j]? = v.idVector[j]?) ∧
        (∀ k ≠ g, t'.table[k]? = t.table[k]?) ∧ t'.deleted = t.deleted) ∨
      ¬(t.HasRoom ∧ v.HasRoom) ∧ id = -1 ∧ v' = v ∧ t' = t

end FileVector

namespace Descriptors

variable {s : Descriptors} {n g : ℕ} {v : FileVector} {f : Pointer}

structure Sized (s : Descriptors) : Prop where
  table : s.table.table.length = MAX_OPEN_FILE_ID
  vectors : ∀ v ∈ s.vectors, v.idVector.length = MAX_OPEN_FILE_ID

lemma length_addReference (t : FileTable) (id : ℤ) : (t.addReference id).2.table.length = t.table.length := by
  rw [FileTable.addReference]
  split
  · rfl
  · cases t.readEntry id with
    | none => rfl
    | some e => exact List.length_set

lemma length_remove (t : FileTable) (id : ℤ) : (t.remove id).2.table.length = t.table.length := by
  rw [FileTable.remove]
  split
  · rfl
  · cases t.readEntry id with
    | none => rfl
    | some e =>
      dsimp only
      split
      · exact List.length_set
      · exact List.length_set

lemma length_removeAll (ids : List ℤ) (t : FileTable) :
    (FileVector.removeAll ids t).table.length = t.table.length := by
  induction ids generalizing t with
  | nil => rfl
  | cons id ids ih => exact (ih _).trans (length_remove t id)

lemma length_insert (t : FileTable) (f : Pointer) : (t.insert f).2.table.length = t.table.length := by
  cases h : t.table.findIdx? Option.isNone with
  | none => rw [FileTable.insert_of_full f h]
  | some g =>
    rw [FileTable.insert_of_free f h]
    exact FileTable.length_writeEntry f

lemma length_vector_insert (v : FileVector) (t : FileTable) (f : Pointer) :
    (v.insert t f).2.1.idVector.length = v.idVector.length ∧ (v.insert t f).2.2.table.length = t.table.length := by
  rw [FileVector.insert_eq]
  cases v.freeId with
  | none => exact ⟨rfl, length_insert t f⟩
  | some i => exact ⟨List.length_set, length_insert t f⟩

lemma Sized.set {t : FileTable} (h : s.Sized) (ht : t.table.length = s.table.table.length)
    (hv : v.idVector.length = MAX_OPEN_FILE_ID) (n : ℕ) : Sized ⟨t, s.vectors.set n v⟩ := by
  refine ⟨ht.trans h.table, fun u hu => ?_⟩
  rcases List.mem_or_eq_of_mem_set hu with hmem | rfl
  · exact h.vectors u hmem
  · exact hv

lemma Sized.step (h : s.Sized) (op : Op) : (Descriptors.step op s).Sized := by
  cases op with
  | construct =>
    refine ⟨(length_addReference _ 1).trans ((length_addReference _ 0).trans h.table), fun u hu => ?_⟩
    rcases List.mem_append.mp hu with hmem | hnew
    · exact h.vectors u hmem
    · rw [List.mem_singleton.mp hnew]
      rfl
  | insert n f =>
    rw [Descriptors.step]
    cases hn : s.vectors[n]? with
    | none => exact h
    | some v =>
      obtain ⟨hv, ht⟩ := length_vector_insert v s.table f
      exact h.set ht (hv.trans (h.vectors v (List.mem_of_getElem? hn))) n
  | remove n id =>
    rw [Descriptors.step]
    cases hn : s.vectors[n]? with
    | none => exact h
    | some v =>
      have hv := h.vectors v (List.mem_of_getElem? hn)
      dsimp only
      rw [FileVector.remove]
      split
      · exact h.set rfl hv n
      · exact h.set (length_remove _ _) (List.length_set.trans hv) n
  | destruct n =>
    rw [Descriptors.step]
    cases hn : s.vectors[n]? with
    | none => exact h
    | some v => exact ⟨(length_removeAll _ _).trans h.table, fun u hu => h.vectors u (List.mem_of_mem_eraseIdx hu)⟩

lemma sized_of_reaches {ok : Descriptors → Op → Prop}
    (h : Reaches (fun op s s' => Descriptors.step op s = s') ok Descriptors.start s) : s.Sized := by
  refine h.invariant (I := Sized) (fun op t u ht _ hstep => ?_) ⟨rfl, fun v hv => absurd hv List.not_mem_nil⟩
  rw [← hstep]
  exact ht.step op

lemma insertClean_of_free {i : ℕ} (hs : s.Sized) (hn : s.vectors[n]? = some v) (f : Pointer)
    (hg : s.table.table.findIdx? Option.isNone = some g) (hi : v.freeId = some i) :
    v.InsertClean s.table f (v.insert s.table f) := by
  have hfree := FileTable.free_spec hg
  have hlocal := freeId_spec hi
  have hlen := hs.vectors v (List.mem_of_getElem? hn)
  obtain ⟨hlt, -⟩ := List.getElem?_eq_some_iff.mp hlocal
  have hset : (v.idVector.set i (g : ℤ))[i]? = some (g : ℤ) := List.getElem?_set_self hlt
  rw [FileVector.insert_eq, hi, FileTable.insert_of_free f hg]
  refine .inl ⟨i, g, rfl, FileVector.two_le_freeId hi, hlt.trans_eq hlen, hlocal, ?_, hfree, hset,
    fun j hj => List.getElem?_set_ne (Ne.symm hj), fun k hk => FileTable.getElem?_writeEntry_of_ne f hk, rfl⟩
  rw [FileVector.resolve_natCast (List.length_set.trans hlen), hset]
  exact (FileTable.resolve_writeEntry hs.table f hfree g).trans (if_pos rfl)

lemma not_insertClean_of_full_vector (f : Pointer) (hg : s.table.table.findIdx? Option.isNone = some g)
    (hi : v.freeId = none) : ¬v.InsertClean s.table f (v.insert s.table f) := by
  rw [FileVector.insert_eq, hi, FileTable.insert_of_free f hg]
  rintro (⟨i, k, hid, -⟩ | ⟨-, -, -, htable⟩)
  · exact absurd hid (by simp)
  · have hentry := FileTable.getElem?_writeEntry_self f (FileTable.free_spec hg)
    have hsame : s.table.writeEntry g f = s.table := htable
    rw [hsame, FileTable.free_spec hg] at hentry
    cases hentry

lemma not_insertClean_of_full_table {i : ℕ} (f : Pointer) (hg : s.table.table.findIdx? Option.isNone = none)
    (hi : v.freeId = some i) : ¬v.InsertClean s.table f (v.insert s.table f) := by
  rw [FileVector.insert_eq, hi, FileTable.insert_of_full f hg]
  rintro (⟨j, k, -, -, -, -, -, hroom, -⟩ | ⟨-, hid, -⟩)
  · exact FileTable.not_hasRoom hg (List.mem_of_getElem? hroom)
  · exact absurd hid (by simp)

lemma insertClean_of_full (f : Pointer) (hg : s.table.table.findIdx? Option.isNone = none) (hi : v.freeId = none) :
    v.InsertClean s.table f (v.insert s.table f) := by
  rw [FileVector.insert_eq, hi, FileTable.insert_of_full f hg]
  exact .inr ⟨fun h => FileTable.not_hasRoom hg h.1, rfl, rfl, rfl⟩

lemma insertClean_iff (hs : s.Sized) (hn : s.vectors[n]? = some v) (f : Pointer) :
    v.InsertClean s.table f (v.insert s.table f) ↔ (s.table.HasRoom ↔ v.HasRoom) := by
  cases hg : s.table.table.findIdx? Option.isNone with
  | none =>
    have htable := FileTable.not_hasRoom hg
    cases hi : v.freeId with
    | none => exact iff_of_true (insertClean_of_full f hg hi) (iff_of_false htable (FileVector.not_hasRoom hi))
    | some i =>
      exact iff_of_false (not_insertClean_of_full_table f hg hi) fun h =>
        htable (h.mpr (FileVector.hasRoom_of_freeId hi))
  | some g =>
    have htable := FileTable.hasRoom_of_free hg
    cases hi : v.freeId with
    | none =>
      exact iff_of_false (not_insertClean_of_full_vector f hg hi) fun h => FileVector.not_hasRoom hi (h.mp htable)
    | some i =>
      exact iff_of_true (insertClean_of_free hs hn f hg hi) (iff_of_true htable (FileVector.hasRoom_of_freeId hi))

def OthersResolve (s : Descriptors) (n : ℕ) : ℤ × FileVector × FileTable → Prop
  | (id, v', t') => ∀ (m j : ℕ) (w w' : FileVector), s.vectors[m]? = some w → (s.vectors.set n v')[m]? = some w' →
      (m = n → (j : ℤ) ≠ id) → w'.resolve t' j = w.resolve s.table j

lemma getElem?_others {i m j : ℕ} {x : ℤ} {w w' : FileVector}
    (hn : s.vectors[n]? = some v) (hw : s.vectors[m]? = some w)
    (hw' : (s.vectors.set n ⟨v.idVector.set i x⟩)[m]? = some w') (hne : m = n → j ≠ i) :
    w'.idVector[j]? = w.idVector[j]? ∧ w'.idVector.length = w.idVector.length := by
  by_cases hm : m = n
  · subst hm
    cases hn.symm.trans hw
    obtain ⟨hlt, -⟩ := List.getElem?_eq_some_iff.mp hn
    rw [List.getElem?_set_self hlt] at hw'
    cases hw'
    exact ⟨List.getElem?_set_ne (Ne.symm (hne rfl)), List.length_set⟩
  · rw [List.getElem?_set_ne (Ne.symm hm), hw] at hw'
    cases hw'
    exact ⟨rfl, rfl⟩

lemma othersResolve_iff {i : ℕ} (hs : s.Sized) (hn : s.vectors[n]? = some v) (f : Pointer)
    (hg : s.table.table.findIdx? Option.isNone = some g) (hi : v.freeId = some i) :
    s.OthersResolve n (v.insert s.table f) ↔ s.refs g = 0 := by
  have hfree := FileTable.free_spec hg
  have hlocal := freeId_spec hi
  have hrefs : s.refs g = 0 ↔ ∀ w ∈ s.vectors, (g : ℤ) ∉ w.idVector := by
    simp only [refs, List.sum_eq_zero_iff, List.mem_map, List.count_eq_zero, forall_exists_index, and_imp,
      forall_apply_eq_imp_iff₂]
  -- what the local ids resolve to now
  have hafter : ∀ {m j : ℕ} {w w' : FileVector}, s.vectors[m]? = some w →
      (s.vectors.set n ⟨v.idVector.set i (g : ℤ)⟩)[m]? = some w' → (m = n → j ≠ i) →
      w'.resolve (s.table.writeEntry g f) j =
        w.idVector[j]?.elim none fun id => if id = g then some f else s.table.resolve id := by
    intro m j w w' hw hw' hne
    obtain ⟨hentry, hlen⟩ := getElem?_others hn hw hw' hne
    rw [FileVector.resolve_natCast (hlen.trans (hs.vectors w (List.mem_of_getElem? hw))), hentry]
    congr 1
    funext id
    exact FileTable.resolve_writeEntry hs.table f hfree id
  have hbefore (m j : ℕ) (w : FileVector) (hw : s.vectors[m]? = some w) :
      w.resolve s.table j = w.idVector[j]?.elim none s.table.resolve :=
    FileVector.resolve_natCast (hs.vectors w (List.mem_of_getElem? hw)) s.table j
  rw [hrefs, FileVector.insert_eq, hi, FileTable.insert_of_free f hg]
  constructor
  · intro h w hw hmem
    obtain ⟨m, hm⟩ := List.mem_iff_getElem?.mp hw
    obtain ⟨j, hj⟩ := List.mem_iff_getElem?.mp hmem
    have hne : m = n → j ≠ i := by
      rintro rfl rfl
      cases hn.symm.trans hm
      cases hlocal.symm.trans hj
    have hlt : m < (s.vectors.set n ⟨v.idVector.set i (g : ℤ)⟩).length := by
      rw [List.length_set]
      exact (List.getElem?_eq_some_iff.mp hm).1
    obtain ⟨w', hw'⟩ : ∃ w', (s.vectors.set n ⟨v.idVector.set i (g : ℤ)⟩)[m]? = some w' :=
      ⟨_, List.getElem?_eq_getElem hlt⟩
    have hsame := h m j w w' hm hw' fun hmn => by exact_mod_cast hne hmn
    rw [hafter hm hw' hne, hbefore m j w hm, hj] at hsame
    have hnone : s.table.resolve g = none := by
      rw [FileTable.resolve_natCast hs.table, hfree]
      rfl
    simp [hnone] at hsame
  · intro h m j w w' hw hw' hne
    rw [hafter hw hw' fun hmn => by exact_mod_cast hne hmn, hbefore m j w hw]
    cases hj : w.idVector[j]? with
    | none => rfl
    | some id =>
      have hid : id ≠ g := by
        rintro rfl
        exact h w (List.mem_of_getElem? hw) (List.mem_of_getElem? hj)
      exact if_neg hid

/-- An `Insert` is clean exactly where both tables have a free slot or neither has. Where it succeeds, all other
descriptors resolve to the files they resolved to exactly if none referred to the slot that is taken. -/
theorem insert_clean_iff
    (hr : Reaches (fun op s s' => Descriptors.step op s = s') (fun _ _ => True) Descriptors.start s)
    (hn : s.vectors[n]? = some v) (f : Pointer) :
    (v.InsertClean s.table f (v.insert s.table f) ↔ (s.table.HasRoom ↔ v.HasRoom)) ∧
      ∀ g, s.table.table.findIdx? Option.isNone = some g → v.HasRoom →
        (s.OthersResolve n (v.insert s.table f) ↔ s.refs g = 0) := by
  have hs := sized_of_reaches hr
  refine ⟨insertClean_iff hs hn f, fun g hg hroom => ?_⟩
  obtain ⟨i, hi⟩ : ∃ i, v.freeId = some i := Option.ne_none_iff_exists'.mp fun h => FileVector.not_hasRoom h hroom
  exact othersResolve_iff hs hn f hg hi

theorem insert_clean_first :
    ((FileVector.new .new).1.InsertClean .new 7 ((FileVector.new .new).1.insert .new 7)) := by
  have hr : Reaches (fun op s s' => Descriptors.step op s = s') (fun _ _ => True) Descriptors.start
      (Descriptors.step .construct Descriptors.start) := .step .construct .refl trivial rfl
  have hclean := insert_clean_iff (n := 0) hr rfl 7
  refine hclean.1.mpr (iff_of_true ?_ ⟨2, le_rfl, by decide⟩)
  exact List.mem_of_getElem? (i := 2) (by decide)

def calls (ops : List Op) (s : Descriptors) : Descriptors := ops.foldl (fun s op => step op s) s

lemma reaches_calls (ops : List Op)
    (h : Reaches (fun op s s' => Descriptors.step op s = s') (fun _ _ => True) start s) :
    Reaches (fun op s s' => Descriptors.step op s = s') (fun _ _ => True) start (calls ops s) := by
  induction ops generalizing s with
  | nil => exact h
  | cons op ops ih => exact ih (.step op h trivial rfl)

def oneFull : Descriptors := calls (.construct :: .construct :: List.replicate 98 (.insert 0 7)) start

def tableFull : Descriptors := calls [.insert 1 7, .insert 1 7] oneFull

/-- One more file of the first thread stays in the global table, and no descriptor refers to it.
With the table full, the second thread gets the local id `4`, which resolves to nothing. -/
theorem insert_not_clean : ∃ (s t : Descriptors) (v w : FileVector),
    Reaches (fun op s s' => Descriptors.step op s = s') (fun _ _ => True) Descriptors.start s ∧
    Reaches (fun op s s' => Descriptors.step op s = s') (fun _ _ => True) Descriptors.start t ∧
    s.vectors[0]? = some v ∧ ¬v.InsertClean s.table 8 (v.insert s.table 8) ∧ (v.insert s.table 8).1 = -1 ∧
    (v.insert s.table 8).2.2.table[98]? = some (some ⟨8, 1⟩) ∧
    t.vectors[1]? = some w ∧ ¬w.InsertClean t.table 8 (w.insert t.table 8) ∧ (w.insert t.table 8).1 = 4 ∧
    (w.insert t.table 8).2.1.resolve (w.insert t.table 8).2.2 4 = none := by
  let v : FileVector := ⟨0 :: 1 :: (List.range 98).map Int.ofNat⟩
  let w : FileVector := ⟨0 :: 1 :: 98 :: 99 :: List.replicate 96 (-1)⟩
  have hs := reaches_calls (.construct :: .construct :: List.replicate 98 (.insert 0 7)) .refl
  have ht := reaches_calls [.insert 1 7, .insert 1 7] hs
  let t : FileTable := ⟨List.replicate 98 (some ⟨7, 1⟩) ++ [none, none], []⟩
  let t' : FileTable := ⟨List.replicate 100 (some ⟨7, 1⟩), []⟩
  have hone : oneFull = ⟨t, [v, ⟨0 :: 1 :: List.replicate 98 (-1)⟩]⟩ := by decide +kernel
  have hboth : tableFull = ⟨t', [v, w]⟩ := by
    rw [tableFull, hone]
    decide +kernel
  have hg : t.table.findIdx? Option.isNone = some 98 := by decide +kernel
  have hg' : t'.table.findIdx? Option.isNone = none := by decide +kernel
  have hi : v.freeId = none := by decide +kernel
  have hi' : w.freeId = some 4 := by decide +kernel
  refine ⟨oneFull, tableFull, v, w, hs, ht, ?_⟩
  rw [hone, hboth]
  exact ⟨rfl, not_insertClean_of_full_vector 8 hg hi, by decide +kernel, by decide +kernel, rfl,
    not_insertClean_of_full_table 8 hg' hi', by decide +kernel, by decide +kernel⟩

end Descriptors

end NachosFileSys
