import NachosFileSys.Paths

namespace NachosFileSys

open Lib.Programs Lib.Bytes

def DirectoryEntry.filled (old : DirectoryEntry) (name : CString) (sector : ℤ) (isDir : Byte) : DirectoryEntry :=
  { old with
    inUse := 1
    name := DirectoryEntry.strncpy old.name name
    sector := BitVec.ofInt 32 sector
    isDir := isDir }

lemma DirectoryEntry.filled_sector (old : DirectoryEntry) (name : CString) {sector : ℤ} (isDir : Byte)
    (hs : InDisk sector) : (old.filled name sector isDir).sector.toInt = sector := by
  have h1 := hs.1
  have h2 := hs.2
  simp only [NumSectors] at h2
  exact int32_of_bounds (by omega) (by omega)

lemma DirectoryEntry.filled_key (old : DirectoryEntry) (name : CString) (sector : ℤ) (isDir : Byte) :
    key (old.filled name sector isDir).name.toList = key name :=
  key_strncpy old.name name

lemma DirectoryEntry.filled_named (old : DirectoryEntry) (name : CString) (sector : ℤ) (isDir : Byte) :
    Directory.named name (old.filled name sector isDir) = true :=
  named_iff.mpr ⟨by simp [DirectoryEntry.filled], old.filled_key name sector isDir⟩

def freeSlot (table : List DirectoryEntry) : Option ℕ := table.findIdx? fun e => e.inUse = 0

def withEntry (table : List DirectoryEntry) (name : CString) (sector : ℤ) (isDir : Byte) : List DirectoryEntry :=
  match freeSlot table with
  | some i => table.modify i fun e => e.filled name sector isDir
  | none => table

lemma freeSlot_spec {table : List DirectoryEntry} {i : ℕ} (h : freeSlot table = some i) :
    ∃ e, table[i]? = some e ∧ e.inUse = 0 := by
  obtain ⟨hi, hp, -⟩ := List.findIdx?_eq_some_iff_getElem.mp h
  exact ⟨table[i], List.getElem?_eq_getElem hi, by simpa using hp⟩

lemma modify_eq_set_of_getElem? {α : Type} {l : List α} {i : ℕ} {a : α} (h : l[i]? = some a) (f : α → α) :
    l.modify i f = l.set i (f a) := by
  apply List.ext_getElem?
  intro j
  rw [List.getElem?_modify, List.getElem?_set]
  by_cases hj : i = j
  · subst hj
    have hi : i < l.length := (List.getElem?_eq_some_iff.mp h).1
    rw [if_pos rfl, if_pos hi, h]
    simp
  · rw [if_neg hj]
    cases l[j]? <;> simp [hj]

lemma mem_modify {α : Type} {l : List α} {i : ℕ} {f : α → α} {x : α} (h : x ∈ l.modify i f) :
    x ∈ l ∨ ∃ a, l[i]? = some a ∧ x = f a := by
  obtain ⟨j, hj⟩ := List.mem_iff_getElem?.mp h
  rw [List.getElem?_modify] at hj
  by_cases hij : i = j
  · subst hij
    cases ha : l[i]? with
    | none => simp [ha] at hj
    | some a =>
      simp only [ha, Option.map_eq_map, Option.map_some, if_true, Option.some.injEq] at hj
      exact Or.inr ⟨a, rfl, hj.symm⟩
  · simp only [if_neg hij, Option.map_eq_map, Option.map_id'] at hj
    exact Or.inl (List.mem_of_getElem? hj)

structure Inserted (table : List DirectoryEntry) (name : CString) (sector : ℤ) (isDir : Byte) (dir : Directory) :
    Prop where
  min : NumDirEntries ≤ dir.table.length
  max : dir.table.length ≤ 20
  take : dir.table.take table.length = withEntry table name sector isDir
  find : table.find? (Directory.named name) = none → InDisk sector → dir.find name ≠ -1
  unused : freeSlot table ≠ none → ∀ e, dir.table[table.length]? = some e → e.inUse = 0
  next : freeSlot table = none →
    ∃ old : DirectoryEntry, dir.table[table.length]? = some (old.filled name sector isDir)

namespace Directory

lemma place_append (table junk : List DirectoryEntry) (hj : ∀ e ∈ junk, e.inUse = 0)
    (h : freeSlot table ≠ none ∨ junk ≠ []) (name : CString) (sector : ℤ) (isDir : Byte) :
    ∃ i old, (table ++ junk)[i]? = some old ∧
      place ⟨table ++ junk⟩ name sector isDir =
        some ⟨(table ++ junk).modify i fun e => e.filled name sector isDir⟩ ∧
      ((table ++ junk).modify i fun e => e.filled name sector isDir).take table.length =
        withEntry table name sector isDir ∧
      (freeSlot table ≠ none → i < table.length) ∧ (freeSlot table = none → i = table.length) := by
  have happ : (table ++ junk).findIdx? (fun e => decide (e.inUse = 0)) =
      (freeSlot table).or ((junk.findIdx? fun e => decide (e.inUse = 0)).map (· + table.length)) :=
    List.findIdx?_append
  rw [place, happ, withEntry]
  cases hs : freeSlot table with
  | some i =>
    obtain ⟨e, he, -⟩ := freeSlot_spec hs
    have hi : i < table.length := (List.getElem?_eq_some_iff.mp he).1
    have hget : (table ++ junk)[i]? = some e := by rw [List.getElem?_append_left hi, he]
    refine ⟨i, e, hget, rfl, ?_, fun _ => hi, fun h => nomatch h⟩
    dsimp only
    rw [modify_eq_set_of_getElem? hget, modify_eq_set_of_getElem? he, List.set_append_left _ _ hi,
      List.take_left' (by rw [List.length_set])]
  | none =>
    obtain ⟨j, junk', rfl⟩ := List.exists_cons_of_ne_nil (h.resolve_left (fun h => h hs))
    have hz : (j :: junk').findIdx? (fun e => decide (e.inUse = 0)) = some 0 := by
      rw [List.findIdx?_cons, if_pos (by simpa using hj j List.mem_cons_self)]
    rw [hz]
    have hget : (table ++ j :: junk')[0 + table.length]? = some j := by
      rw [Nat.zero_add, List.getElem?_append_right (le_refl _), Nat.sub_self, List.getElem?_cons_zero]
    refine ⟨0 + table.length, j, hget, rfl, ?_, fun h => absurd rfl h, fun _ => Nat.zero_add _⟩
    dsimp only
    rw [modify_eq_set_of_getElem? hget, List.set_append_right _ _ (by omega), List.take_left' rfl]

lemma inserted_of_place (table : List DirectoryEntry) {junk : List DirectoryEntry} (hj : ∀ e ∈ junk, e.inUse = 0)
    (h : freeSlot table ≠ none ∨ junk ≠ []) (hmin : NumDirEntries ≤ (table ++ junk).length)
    (hmax : (table ++ junk).length ≤ 20) (name : CString) (sector : ℤ) (isDir : Byte) :
    ∃ dir, place ⟨table ++ junk⟩ name sector isDir = some dir ∧ Inserted table name sector isDir dir := by
  obtain ⟨i, old, hget, hp, htake, hbefore, hnext⟩ := place_append table junk hj h name sector isDir
  refine ⟨_, hp, by rwa [List.length_modify], by rwa [List.length_modify],
    htake, fun hnone hs => ?_, fun hroom e he => ?_,
    fun hfull => ⟨old, ?_⟩⟩
  case refine_2 =>
    rw [modify_eq_set_of_getElem? hget, List.getElem?_set_ne (hbefore hroom).ne,
      List.getElem?_append_right le_rfl] at he
    exact hj e (List.mem_of_getElem? he)
  case refine_3 =>
    rw [modify_eq_set_of_getElem? hget, hnext hfull, List.getElem?_set_self]
    rw [← hnext hfull]
    exact (List.getElem?_eq_some_iff.mp hget).1
  -- the new entry is the only one with this name
  have hbase : ∀ e ∈ table ++ junk, Directory.named name e ≠ true := by
    intro e he hn
    rcases List.mem_append.mp he with he | he
    · exact List.find?_eq_none.mp hnone e he hn
    · exact (named_iff.mp hn).1 (hj e he)
  have hmem : old.filled name sector isDir ∈ (table ++ junk).modify i fun e => e.filled name sector isDir := by
    rw [modify_eq_set_of_getElem? hget]
    exact List.mem_set (List.getElem?_eq_some_iff.mp hget).1 _
  rw [find, entryNamed]
  cases hf : ((table ++ junk).modify i fun e => e.filled name sector isDir).find? (named name) with
  | none => exact absurd (old.filled_named name sector isDir) (List.find?_eq_none.mp hf _ hmem)
  | some e =>
    dsimp only
    rcases mem_modify (List.mem_of_find?_eq_some hf) with he | ⟨old', -, rfl⟩
    · exact absurd (List.find?_some hf) (hbase e he)
    · rw [old'.filled_sector name isDir hs]
      exact hs.ne_empty

lemma exec_insert {table : List DirectoryEntry} {dir : Directory}
    (hl : Loaded table dir) (name : CString) (sector : ℤ)
    (isDir : Byte) (k : Kernel) :
    ∃ dir' k', exec (dir.insert name sector isDir) k = .ok ((true, dir'), k') ∧
    k'.disk = k.disk ∧ k'.maps = k.maps ∧
      Inserted table name sector isDir dir' := by
  obtain ⟨junk, ht, hj⟩ := hl.eq
  have hlen := hl.length
  simp only [NumDirEntries] at hlen
  cases dir with
  | mk entries =>
    dsimp only at ht hlen
    subst ht
    by_cases h : freeSlot table ≠ none ∨ junk ≠ []
    · obtain ⟨dir', hp, hi⟩ := inserted_of_place table hj h (by rw [hlen]) (by rw [hlen]; decide) name sector isDir
      refine ⟨dir', k, ?_, rfl, rfl, hi⟩
      rw [insert, hp]
      rfl
    · -- the table is full: `Expand` doubles it
      rw [not_or, not_not, not_not] at h
      obtain ⟨hfull, rfl⟩ := h
      rw [List.append_nil] at hlen ⊢
      have hnone : place ⟨table⟩ name sector isDir = none := by
        rw [place]
        rw [freeSlot] at hfull
        rw [hfull]
      let fresh : List DirectoryEntry := (ofBytes 20 ((List.range (EntrySize * 20)).map k.heap)).table.map
        fun e => { e with inUse := 0 }
      have hfl : fresh.length = 20 := by
        rw [List.length_map, ofBytes, List.length_map, List.length_range]
      have hfj : ∀ e ∈ fresh.drop 10, e.inUse = 0 := fun e he => by
        obtain ⟨e', -, rfl⟩ := List.mem_map.mp (List.mem_of_mem_drop he)
        rfl
      have hjl : (fresh.drop 10).length = 10 := by rw [List.length_drop, hfl]
      obtain ⟨dir', hp, hi⟩ := inserted_of_place table hfj
        (Or.inr (List.ne_nil_of_length_pos (by omega))) (by rw [List.length_append, NumDirEntries]; omega)
        (by rw [List.length_append]; omega) name sector isDir
      have hexp : exec (expand ⟨table⟩ (tableSize ⟨table⟩ * 2)) k =
          .ok (⟨table ++ fresh.drop 10⟩, { k with heap := fun i => k.heap (i + EntrySize * 20) }) := by
        have hsize : tableSize ⟨table⟩ = 10 := hlen
        rw [expand, hsize, exec_bind, exec_malloc]
        dsimp only
        rw [exec_pure, List.take_of_length_le (by omega)]
      refine ⟨dir', { k with heap := fun i => k.heap (i + EntrySize * 20) }, ?_, rfl, rfl, hi⟩
      rw [insert, hnone]
      dsimp only
      rw [exec_bind, hexp]
      dsimp only
      rw [hp]
      rfl

lemma exec_add {table : List DirectoryEntry} {dir : Directory} (hl : Loaded table dir) {name : CString}
    (hnone : table.find? (named name) = none) (sector : ℤ) (k : Kernel) :
    ∃ dir' k', exec (dir.add name sector) k = .ok ((true, dir'), k') ∧ k'.disk = k.disk ∧ k'.maps = k.maps ∧
      Inserted table name sector 0 dir' := by
  obtain ⟨dir', k', he, hd, hm, hi⟩ := exec_insert hl name sector 0 k
  refine ⟨dir', k', ?_, hd, hm, hi⟩
  rw [add, if_neg (by rw [ne_eq, not_not]; exact (hl.findIndex_eq name).mpr hnone), exec_bind, he]
  rfl

lemma exec_addDirectory {table : List DirectoryEntry} {dir : Directory} (hl : Loaded table dir) {name : CString}
    (hnone : table.find? (named name) = none) (sector : ℤ) (k : Kernel) :
    ∃ dir' k', exec (dir.addDirectory name sector) k = .ok ((true, dir'), k') ∧
    k'.disk = k.disk ∧ k'.maps = k.maps ∧
      Inserted table name sector 1 dir' := by
  obtain ⟨dir', k', he, hd, hm, hi⟩ := exec_insert hl name sector 1 k
  refine ⟨dir', k', ?_, hd, hm, hi⟩
  rw [addDirectory, if_neg (by rw [ne_eq, not_not]; exact (hl.findIndex_eq name).mpr hnone), he]

lemma exec_addDirectory_next {table : List DirectoryEntry} {dir : Directory} (hl : Loaded table dir)
    (hfull : freeSlot table = none) (hlt : table.length < NumDirEntries) {name : CString}
    (hnone : table.find? (named name) = none) (sector : ℤ) (k : Kernel) :
    ∃ old dir', exec (dir.addDirectory name sector) k = .ok ((true, dir'), k) ∧
      Loaded (table ++ [DirectoryEntry.filled old name sector 1]) dir' := by
  obtain ⟨junk, ht, hj⟩ := hl.eq
  have hlen := hl.length
  cases dir with
  | mk entries =>
    dsimp only at ht hlen
    subst ht
    obtain ⟨j, junk', rfl⟩ : ∃ j junk', junk = j :: junk' := List.exists_cons_of_length_pos (by
      rw [List.length_append] at hlen
      omega)
    have happ : (table ++ j :: junk').findIdx? (fun e => decide (e.inUse = 0)) = some table.length := by
      rw [List.findIdx?_append]
      rw [freeSlot] at hfull
      rw [hfull, List.findIdx?_cons, if_pos (by simpa using hj j List.mem_cons_self)]
      simp
    have hget : (table ++ j :: junk')[table.length]? = some j := by
      rw [List.getElem?_append_right (le_refl _), Nat.sub_self, List.getElem?_cons_zero]
    have hset : (table ++ j :: junk').modify table.length (fun e => e.filled name sector 1) =
        table ++ [j.filled name sector 1] ++ junk' := by
      rw [modify_eq_set_of_getElem? hget, List.set_append_right _ _ (le_refl _), Nat.sub_self]
      simp
    refine ⟨j, ⟨table ++ [j.filled name sector 1] ++ junk'⟩, ?_, ?_, junk', rfl, fun e he =>
      hj e (List.mem_cons_of_mem _ he)⟩
    · rw [addDirectory, if_neg (by rw [ne_eq, not_not]; exact (hl.findIndex_eq name).mpr hnone),
          insert, place, happ]
      dsimp only
      rw [← hset]
      rfl
    · rw [← hlen]
      simp

lemma remove_spec {table : List DirectoryEntry} {dir : Directory} (hl : Loaded table dir) {name : CString}
    {e : DirectoryEntry} (h : table.find? (named name) = some e) :
    ∃ i, table[i]? = some e ∧ (dir.remove name).2.table.take table.length = table.set i { e with inUse := 0 } ∧
      (dir.remove name).2.table.length = NumDirEntries ∧
      ∀ e', (dir.remove name).2.table[table.length]? = some e' → e'.inUse = 0 := by
  obtain ⟨junk, ht, hj⟩ := hl.eq
  obtain ⟨i, hi⟩ : ∃ i, table.findIdx? (named name) = some i := by
    cases hi : table.findIdx? (named name) with
    | some i => exact ⟨i, rfl⟩
    | none =>
      have := List.findIdx?_eq_none_iff.mp hi e (List.mem_of_find?_eq_some h)
      rw [List.find?_some h] at this
      cases this
  obtain ⟨hil, hp, hmin⟩ := List.findIdx?_eq_some_iff_getElem.mp hi
  have hget : table[i]? = some e := by
    rw [List.getElem?_eq_getElem hil, Option.some.injEq]
    have hfind := List.find?_eq_some_iff_getElem.mp h
    obtain ⟨-, j, hjl, rfl, hjmin⟩ := hfind
    rcases Nat.lt_trichotomy i j with hij | rfl | hij
    · have := hjmin i hij
      rw [hp] at this
      cases this
    · rfl
    · exact absurd (List.find?_some h) (hmin j hij)
  have hall : dir.table.findIdx? (named name) = some i := by
    rw [ht, List.findIdx?_append, hi]
    rfl
  have hget' : dir.table[i]? = some e := by rw [ht, List.getElem?_append_left hil, hget]
  have htable : (dir.remove name).2.table = table.set i { e with inUse := 0 } ++ junk := by
    rw [remove, hall]
    dsimp only
    rw [modify_eq_set_of_getElem? hget', ht, List.set_append_left _ _ hil]
  have hset : (table.set i { e with inUse := 0 }).length = table.length := List.length_set
  refine ⟨i, hget, ?_, ?_, fun e' he' => ?_⟩
  · rw [htable, List.take_left' hset]
  · rw [htable, List.length_append, hset, ← List.length_append, ← ht]
    exact hl.length
  · rw [htable, List.getElem?_append_right hset.le] at he'
    exact hj e' (List.mem_of_getElem? he')

end Directory

namespace Names

variable {tables : ℤ → List DirectoryEntry} {kind : ℤ → Option Kind} {s h : ℤ}

lemma withEntry (hn : Names tables kind) (name : CString) (isDir : Byte)
    (hs : kind s = some .dir) (hd : InDisk h) (hroot : h ≠ DirectorySector)
    (hp : kind h = some (if isDir = 0 then .plain else .dir))
    (hfree : ∀ {s' e'}, kind s' = some .dir → e' ∈ tables s' → DirectoryEntry.Owning e' → e'.sector.toInt ≠ h)
    (hnone : (tables s).find? (Directory.named name) = none) :
    Names (Function.update tables s (withEntry (tables s) name h isDir)) kind := by
  rw [NachosFileSys.withEntry]
  cases hf : freeSlot (tables s) with
  | none =>
    dsimp only
    rw [Function.update_eq_self]
    exact hn
  | some i =>
    obtain ⟨old, hold, -⟩ := freeSlot_spec hf
    dsimp only
    rw [modify_eq_set_of_getElem? hold]
    have hsec := old.filled_sector name isDir hd
    apply hn.link hs
    · rw [hsec, hp]
      rfl
    · rwa [hsec]
    · rw [hsec]
      exact hfree
    · intro e' he' hu
      rw [old.filled_key]
      exact fun hk => List.find?_eq_none.mp hnone e' he' (named_iff.mpr ⟨hu, hk⟩)

end Names

end NachosFileSys
