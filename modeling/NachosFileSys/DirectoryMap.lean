import NachosFileSys.Entries
import NachosFileSys.Lib.Slots

namespace NachosFileSys

open Lib.Programs Lib.Bytes Lib.Slots

namespace DirectoryEntry

def used (e : DirectoryEntry) : Bool := e.inUse ≠ 0

def nameKey (e : DirectoryEntry) : List Byte := key e.name.toList

def value (e : DirectoryEntry) : Word × Bool := (e.sector, e.isDir ≠ 0)

end DirectoryEntry

namespace Directory

inductive Change
  | add (name : CString) (newSector : Word)
  | addDirectory (name : CString) (newSector : Word)
  | remove (name : CString)
  deriving DecidableEq

def change (d : Directory) : Change → Nachos (Bool × Directory)
  | .add name newSector => d.add name newSector.toInt
  | .addDirectory name newSector => d.addDirectory name newSector.toInt
  | .remove name => pure (d.remove name)

/-- The directories that calls make of a new one, with the calls and their results, the last one first. -/
inductive Held (size : ℕ) : List (Change × Bool) → Directory → Prop
  | new {d : Directory} {k k' : Kernel} : exec (new size) k = .ok (d, k') → Held size [] d
  | change {history : List (Change × Bool)} {d d' : Directory} {c : Change} {success : Bool} {k k' : Kernel} :
      Held size history d → exec (d.change c) k = .ok ((success, d'), k') → Held size ((c, success) :: history) d'

/-- The sector and the kind of the last successful insertion under the key, unless it has been removed since. -/
def recorded : List (Change × Bool) → List Byte → Option (Word × Bool)
  | [], _ => none
  | (.add name newSector, true) :: history, k =>
    if k = key name then some (newSector, false) else recorded history k
  | (.addDirectory name newSector, true) :: history, k =>
    if k = key name then some (newSector, true) else recorded history k
  | (.remove name, true) :: history, k => if k = key name then none else recorded history k
  | (_, false) :: history, k => recorded history k

structure Tracks (history : List (Change × Bool)) (d : Directory) : Prop where
  distinct : Distinct DirectoryEntry.used DirectoryEntry.nameKey d.table
  holds : ∀ k, (occupant DirectoryEntry.used DirectoryEntry.nameKey d.table k).map DirectoryEntry.value =
    recorded history k
  pos : 0 < d.tableSize

lemma entryNamed_eq (d : Directory) (name : CString) :
    d.entryNamed name = occupant DirectoryEntry.used DirectoryEntry.nameKey d.table (key name) := by
  rw [entryNamed, occupant]
  congr 1
  funext e
  rw [Bool.eq_iff_iff, named_iff, Bool.and_eq_true, DirectoryEntry.used, DirectoryEntry.nameKey, decide_eq_true_eq,
    decide_eq_true_eq]

lemma entryNamed_eq_none_iff {d : Directory} {name : CString} :
    d.entryNamed name = none ↔ d.findIndex name = -1 := by
  rw [entryNamed, findIndex]
  cases h : d.table.findIdx? (named name) with
  | none => simpa using h
  | some i =>
    obtain ⟨hi, hp, -⟩ := List.findIdx?_eq_some_iff_getElem.mp h
    constructor
    · intro hn
      exact absurd hp (List.find?_eq_none.mp hn _ (List.getElem_mem hi))
    · intro hn
      dsimp only at hn
      omega

def Expanded (d : Directory) (table : List DirectoryEntry) : Prop :=
  (∃ e ∈ d.table, e.inUse = 0) ∧ table = d.table ∨
    (∀ e ∈ d.table, e.inUse ≠ 0) ∧
      ∃ junk, table = d.table ++ junk ∧ junk.length = d.tableSize ∧ ∀ e ∈ junk, e.inUse = 0

lemma place_spec {table : List DirectoryEntry} (h : ∃ e ∈ table, e.inUse = 0) (name : CString) (newSector : ℤ)
    (isDir : Byte) :
    ∃ (i : ℕ) (old : DirectoryEntry), table[i]? = some old ∧ old.inUse = 0 ∧
      place ⟨table⟩ name newSector isDir = some ⟨table.set i (old.filled name newSector isDir)⟩ := by
  obtain ⟨e, he, hu⟩ := h
  rw [place]
  cases hf : table.findIdx? fun e => decide (e.inUse = 0) with
  | none => exact absurd hu (by simpa using List.findIdx?_eq_none_iff.mp hf e he)
  | some i =>
    obtain ⟨old, hold, hz⟩ := freeSlot_spec hf
    refine ⟨i, old, hold, hz, ?_⟩
    dsimp only
    rw [modify_eq_set_of_getElem? hold]
    rfl

lemma place_full {table : List DirectoryEntry} (h : ∀ e ∈ table, e.inUse ≠ 0) (name : CString) (newSector : ℤ)
    (isDir : Byte) : place ⟨table⟩ name newSector isDir = none := by
  have hf : table.findIdx? (fun e => decide (e.inUse = 0)) = none :=
    List.findIdx?_eq_none_iff.mpr fun e he => by simpa using h e he
  rw [place, hf]

lemma exec_expand_double (d : Directory) (k : Kernel) :
    ∃ junk k', exec (d.expand (d.tableSize * 2)) k = .ok (⟨d.table ++ junk⟩, k') ∧ junk.length = d.tableSize ∧
      ∀ e ∈ junk, e.inUse = 0 := by
  let fresh := (ofBytes (d.tableSize * 2) ((List.range (EntrySize * (d.tableSize * 2))).map k.heap)).table.map
    fun e => { e with inUse := 0 }
  refine ⟨fresh.drop d.tableSize, { k with heap := fun i => k.heap (i + EntrySize * (d.tableSize * 2)) },
      ?_, ?_, ?_⟩
  · rw [expand, exec_bind, exec_malloc]
    dsimp only
    rw [exec_pure, List.take_of_length_le (by rw [tableSize]; omega)]
  · rw [List.length_drop, List.length_map, ofBytes, List.length_map, List.length_range]
    omega
  · intro e he
    obtain ⟨e', -, rfl⟩ := List.mem_map.mp (List.mem_of_mem_drop he)
    rfl

lemma exec_insert_spec {d : Directory} (hpos : 0 < d.tableSize) (name : CString) (newSector : ℤ) (isDir : Byte)
    (k : Kernel) :
    ∃ table i old k', d.Expanded table ∧ table[i]? = some old ∧ old.inUse = 0 ∧
      exec (d.insert name newSector isDir) k =
        .ok ((true, ⟨table.set i (old.filled name newSector isDir)⟩), k') := by
  by_cases h : ∃ e ∈ d.table, e.inUse = 0
  · obtain ⟨i, old, hold, hz, hp⟩ := place_spec h name newSector isDir
    refine ⟨d.table, i, old, k, Or.inl ⟨h, rfl⟩, hold, hz, ?_⟩
    rw [insert, hp]
    rfl
  · have hfull : ∀ e ∈ d.table, e.inUse ≠ 0 := fun e he hz => h ⟨e, he, hz⟩
    obtain ⟨junk, k', hx, hlen, hj⟩ := exec_expand_double d k
    obtain ⟨e, he⟩ := List.exists_mem_of_length_pos (hlen ▸ hpos)
    obtain ⟨i, old, hold, hz, hp⟩ := place_spec ⟨e, List.mem_append_right d.table he, hj e he⟩ name newSector isDir
    refine ⟨d.table ++ junk, i, old, k', Or.inr ⟨hfull, junk, rfl, hlen, hj⟩, hold, hz, ?_⟩
    rw [insert, place_full hfull, exec_bind_of_ok hx, hp]
    rfl

namespace Tracks

variable {history : List (Change × Bool)} {d : Directory}

lemma new {size : ℕ} (hpos : 0 < size) {k k' : Kernel} (he : exec (Directory.new size) k = .ok (d, k')) :
    Tracks [] d := by
  rw [Directory.new, exec_bind, exec_malloc] at he
  dsimp only at he
  rw [exec_pure] at he
  cases he
  have hz : ∀ e ∈ (ofBytes size ((List.range (EntrySize * size)).map k.heap)).table.map
      (fun e : DirectoryEntry => { e with inUse := 0 }), e.used = false := by
    intro e he
    obtain ⟨e', -, rfl⟩ := List.mem_map.mp he
    rfl
  refine ⟨.of_unused hz, fun key => ?_, ?_⟩
  · rw [occupant_eq_none.mpr fun e he hu => ?_]
    · rfl
    · rw [hz e he] at hu
      cases hu
  · rw [tableSize, List.length_map, ofBytes, List.length_map, List.length_range]
    exact hpos

lemma occupant_eq_none_iff (ht : Tracks history d) (k : List Byte) :
    occupant DirectoryEntry.used DirectoryEntry.nameKey d.table k = none ↔ recorded history k = none := by
  rw [← ht.holds k, Option.map_eq_none_iff]

lemma findIndex_eq (ht : Tracks history d) (name : CString) :
    d.findIndex name = -1 ↔ recorded history (key name) = none := by
  rw [← ht.occupant_eq_none_iff, ← entryNamed_eq, entryNamed_eq_none_iff]

lemma find_eq (ht : Tracks history d) (name : CString) :
    d.find name = (recorded history (key name)).elim (-1) fun v => v.1.toInt := by
  rw [← ht.holds, ← entryNamed_eq, find]
  cases d.entryNamed name <;> rfl

lemma isDirectory_eq (ht : Tracks history d) (name : CString) :
    d.isDirectory name = (recorded history (key name)).elim false Prod.snd := by
  rw [← ht.holds, ← entryNamed_eq, isDirectory]
  cases d.entryNamed name <;> rfl

lemma expanded (ht : Tracks history d) {table : List DirectoryEntry} (hx : d.Expanded table) :
    Tracks history ⟨table⟩ := by
  rcases hx with ⟨-, rfl⟩ | ⟨-, junk, rfl, -, hj⟩
  · exact ht
  · have hu : ∀ e ∈ junk, e.used = false := fun e he => by simpa [DirectoryEntry.used] using hj e he
    refine ⟨ht.distinct.append hu, fun key => ?_, ?_⟩
    · rw [occupant_append hu, ht.holds]
    · have := ht.pos
      simp only [tableSize, List.length_append] at this ⊢
      omega

lemma fill (ht : Tracks history d) {name : CString} (hnone : recorded history (key name) = none)
    (newSector : Word) (isDir : Byte) {i : ℕ} {old : DirectoryEntry} (hold : d.table[i]? = some old)
    (hz : old.inUse = 0) {history' : List (Change × Bool)}
    (hrec : ∀ k, recorded history' k =
      if k = key name then some (newSector, decide (isDir ≠ 0)) else recorded history k) :
    Tracks history' ⟨d.table.set i (old.filled name newSector.toInt isDir)⟩ := by
  have hk : (old.filled name newSector.toInt isDir).nameKey = key name := old.filled_key _ _ _
  have hs : (old.filled name newSector.toInt isDir).value = (newSector, decide (isDir ≠ 0)) := by
    simp [DirectoryEntry.value, DirectoryEntry.filled]
  have hu : old.used = false := by simpa [DirectoryEntry.used] using hz
  have hnew := (ht.occupant_eq_none_iff _).mpr hnone
  rw [← hk] at hnew
  refine ⟨ht.distinct.occupy (occupant_eq_none.mp hnew) i, fun key => ?_, ?_⟩
  · rw [occupant_occupy ht.distinct hold hu rfl hnew, hk, hrec]
    by_cases hkey : key = NachosFileSys.key name
    · rw [if_pos hkey, if_pos hkey, Option.map_some, hs]
    · rw [if_neg hkey, if_neg hkey, ht.holds]
  · rw [tableSize, List.length_set]
    exact ht.pos

end Tracks

def insertion (isDir : Bool) (name : CString) (newSector : Word) : Change :=
  if isDir then .addDirectory name newSector else .add name newSector

lemma recorded_insertion (isDir : Bool) (name : CString) (newSector : Word) (history : List (Change × Bool))
    (k : List Byte) :
    recorded ((insertion isDir name newSector, true) :: history) k =
      if k = key name then some (newSector, isDir) else recorded history k := by
  cases isDir <;> rfl

lemma recorded_refused (c : Change) (history : List (Change × Bool)) (k : List Byte) :
    recorded ((c, false) :: history) k = recorded history k := by
  cases c <;> rfl

def kindByte (isDir : Bool) : Byte := if isDir then 1 else 0

lemma kindByte_ne_zero (isDir : Bool) : decide (kindByte isDir ≠ 0) = isDir := by
  cases isDir <;> rfl

variable {history : List (Change × Bool)} {d d' : Directory}

lemma exec_insertion_refused (ht : Tracks history d) (isDir : Bool) {name : CString}
    (h : recorded history (key name) ≠ none) (newSector : Word) (k : Kernel) :
    exec (d.change (insertion isDir name newSector)) k = .ok ((false, d), k) := by
  have hf : d.findIndex name ≠ -1 := fun hf => h ((ht.findIndex_eq name).mp hf)
  cases isDir with
  | false =>
    change exec (d.add name newSector.toInt) k = _
    rw [add, if_pos hf, exec_pure]
  | true =>
    change exec (d.addDirectory name newSector.toInt) k = _
    rw [addDirectory, if_pos hf, exec_pure]

lemma exec_insertion_done (ht : Tracks history d) (isDir : Bool) {name : CString}
    (h : recorded history (key name) = none) (newSector : Word) (k : Kernel) :
    ∃ (table : List DirectoryEntry) (i : ℕ) (old : DirectoryEntry) (k' : Kernel), d.Expanded table ∧
      table[i]? = some old ∧ old.inUse = 0 ∧
      exec (d.change (insertion isDir name newSector)) k =
        .ok ((true, ⟨table.set i (old.filled name newSector.toInt (kindByte isDir))⟩), k') := by
  have hf : ¬d.findIndex name ≠ -1 := fun hf => hf ((ht.findIndex_eq name).mpr h)
  obtain ⟨table, i, old, k', hx, hold, hz, he⟩ := exec_insert_spec ht.pos name newSector.toInt (kindByte isDir) k
  refine ⟨table, i, old, k', hx, hold, hz, ?_⟩
  cases isDir with
  | false =>
    change exec (d.add name newSector.toInt) k = _
    rw [add, if_neg hf]
    exact (exec_bind_of_ok he _).trans rfl
  | true =>
    change exec (d.addDirectory name newSector.toInt) k = _
    rw [addDirectory, if_neg hf]
    exact he

lemma remove_done (ht : Tracks history d) {name : CString} (h : recorded history (key name) ≠ none) :
    ∃ (i : ℕ) (e : DirectoryEntry), d.table[i]? = some e ∧ named name e ∧
      d.remove name = (true, ⟨d.table.set i { e with inUse := 0 }⟩) := by
  cases hi : d.table.findIdx? (named name) with
  | none =>
    refine absurd ((ht.findIndex_eq name).mp ?_) h
    rw [findIndex, hi]
  | some i =>
    obtain ⟨hl, hp, -⟩ := List.findIdx?_eq_some_iff_getElem.mp hi
    have hget : d.table[i]? = some d.table[i] := List.getElem?_eq_getElem hl
    refine ⟨i, d.table[i], hget, hp, ?_⟩
    rw [remove, hi]
    dsimp only
    rw [modify_eq_set_of_getElem? hget]

lemma remove_refused (ht : Tracks history d) {name : CString} (h : recorded history (key name) = none) :
    d.remove name = (false, d) := by
  have hf := (ht.findIndex_eq name).mpr h
  rw [findIndex] at hf
  rw [remove]
  cases hi : d.table.findIdx? (named name) with
  | none => rfl
  | some i =>
    rw [hi] at hf
    dsimp only at hf
    omega

lemma Tracks.change (ht : Tracks history d) {c : Change} {success : Bool} {k k' : Kernel}
    (he : exec (d.change c) k = .ok ((success, d'), k')) : Tracks ((c, success) :: history) d' := by
  have hins : ∀ (isDir : Bool) (name : CString) (newSector : Word), c = insertion isDir name newSector →
      Tracks ((c, success) :: history) d' := by
    rintro isDir name newSector rfl
    by_cases h : recorded history (key name) = none
    · obtain ⟨table, i, old, k₁, hx, hold, hz, hr⟩ := exec_insertion_done ht isDir h newSector k
      rw [hr] at he
      cases he
      refine (ht.expanded hx).fill h newSector (kindByte isDir) hold hz fun key => ?_
      rw [recorded_insertion, kindByte_ne_zero]
    · rw [exec_insertion_refused ht isDir h] at he
      cases he
      exact ⟨ht.distinct, fun key => (ht.holds key).trans (recorded_refused _ history key).symm, ht.pos⟩
  cases c with
  | add name newSector => exact hins false name newSector rfl
  | addDirectory name newSector => exact hins true name newSector rfl
  | remove name =>
    have hr : d.remove name = (success, d') := (Prod.mk.inj (Except.ok.inj he)).1
    by_cases h : recorded history (key name) = none
    · rw [remove_refused ht h] at hr
      cases hr
      exact ⟨ht.distinct, fun key => (ht.holds key).trans (recorded_refused _ history key).symm, ht.pos⟩
    · obtain ⟨i, e, hi, hn, hd⟩ := remove_done ht h
      rw [hd] at hr
      cases hr
      obtain ⟨hu, hk⟩ := named_iff.mp hn
      have hused : e.used = true := by simpa [DirectoryEntry.used] using hu
      have hkey : e.nameKey = key name := hk
      refine ⟨ht.distinct.vacate rfl i, fun k => ?_, ?_⟩
      · rw [occupant_vacate ht.distinct hi hused rfl, hkey, recorded]
        by_cases hkn : k = key name
        · rw [if_pos hkn, if_pos hkn]
          rfl
        · rw [if_neg hkn, if_neg hkn, ht.holds]
      · rw [tableSize, List.length_set]
        exact ht.pos

lemma Held.tracks {size : ℕ} (hpos : 0 < size) (h : Held size history d) : Tracks history d := by
  induction h with
  | new he => exact .new hpos he
  | change _ he ih => exact ih.change he

structure Extends (d d' : Directory) : Prop where
  kept : ∀ {i : ℕ} {e : DirectoryEntry}, d.table[i]? = some e → e.inUse ≠ 0 → d'.table[i]? = some e
  size : d'.tableSize = if ∀ e ∈ d.table, e.inUse ≠ 0 then 2 * d.tableSize else d.tableSize

lemma Expanded.extends {table : List DirectoryEntry} (hx : d.Expanded table) {i : ℕ} {old new : DirectoryEntry}
    (hold : table[i]? = some old) (hz : old.inUse = 0) : Extends d ⟨table.set i new⟩ := by
  have hsub : ∀ {j : ℕ} {e : DirectoryEntry}, d.table[j]? = some e → table[j]? = some e := by
    intro j e he
    rcases hx with ⟨-, rfl⟩ | ⟨-, junk, rfl, -, -⟩
    · exact he
    · rw [List.getElem?_append_left (List.getElem?_eq_some_iff.mp he).1, he]
  refine ⟨fun {j e} he hu => ?_, ?_⟩
  · rw [List.getElem?_set_ne]
    · exact hsub he
    · rintro rfl
      rw [hsub he, Option.some.injEq] at hold
      exact hu (hold ▸ hz)
  · rw [tableSize, List.length_set]
    rcases hx with ⟨⟨e, he, hu⟩, rfl⟩ | ⟨hfull, junk, rfl, hl, -⟩
    · rw [if_neg fun hfull => hfull e he hu]
      rfl
    · rw [if_pos hfull, List.length_append, hl, tableSize]
      omega

/-- A directory is the finite map from keys that its calls have made of it: no insertion and no removal stops
the program, each succeeds exactly where the key is absent or present, and each leaves the other entries. -/
theorem finite_map {size : ℕ} (hsize : 1 ≤ size) (h : Held size history d) :
    Distinct DirectoryEntry.used DirectoryEntry.nameKey d.table ∧
    (∀ name, d.find name = (recorded history (key name)).elim (-1) (fun v => v.1.toInt) ∧
      d.isDirectory name = (recorded history (key name)).elim false Prod.snd) ∧
    (∀ (isDir : Bool) (name : CString) (newSector : Word) (k : Kernel), ∃ success d' k',
      exec (d.change (insertion isDir name newSector)) k = .ok ((success, d'), k') ∧
      (success = true ↔ recorded history (key name) = none) ∧ (success = true → Extends d d') ∧
      (success = false → d' = d)) ∧
    ∀ (name : CString) (k : Kernel), ∃ success d',
      exec (d.change (.remove name)) k = .ok ((success, d'), k) ∧
      (success = true ↔ recorded history (key name) ≠ none) ∧ d'.tableSize = d.tableSize ∧
      ∀ (i : ℕ) (e : DirectoryEntry), d.table[i]? = some e →
        d'.table[i]? = some (if e.used ∧ e.nameKey = key name then { e with inUse := 0 } else e) := by
  have ht := h.tracks hsize
  refine ⟨ht.distinct, fun name => ⟨ht.find_eq name, ht.isDirectory_eq name⟩, fun isDir name newSector k => ?_,
    fun name k => ?_⟩
  · by_cases hn : recorded history (key name) = none
    · obtain ⟨table, i, old, k', hx, hold, hz, he⟩ := exec_insertion_done ht isDir hn newSector k
      exact ⟨true, _, k', he, by simp [hn], fun _ => hx.extends hold hz, by simp⟩
    · exact ⟨false, d, k, exec_insertion_refused ht isDir hn newSector k, by simp [hn], by simp, fun _ => rfl⟩
  · by_cases hn : recorded history (key name) = none
    · refine ⟨false, d, ?_, by simp [hn], rfl, fun i e he => ?_⟩
      · rw [change, exec_pure, remove_refused ht hn]
      · rw [if_neg, he]
        exact fun hp =>
          occupant_eq_none.mp ((ht.occupant_eq_none_iff _).mpr hn) e (List.mem_of_getElem? he) hp.1 hp.2
    · obtain ⟨i, e, hi, hp, hr⟩ := remove_done ht hn
      obtain ⟨hu, hk⟩ := named_iff.mp hp
      have hused : e.used = true := by simpa [DirectoryEntry.used] using hu
      have hkey : e.nameKey = key name := hk
      refine ⟨true, ⟨d.table.set i { e with inUse := 0 }⟩, ?_, by simp [hn], ?_, fun j e' he' => ?_⟩
      · rw [change, exec_pure, hr]
      · rw [tableSize, List.length_set, tableSize]
      · by_cases hij : i = j
        · subst hij
          obtain rfl := Option.some.inj (hi.symm.trans he')
          rw [if_pos ⟨hused, hkey⟩, List.getElem?_set_self (List.getElem?_eq_some_iff.mp hi).1]
        · rw [List.getElem?_set_ne hij, he', if_neg]
          exact fun hp => hij (ht.distinct hi he' hused hp.1 (hkey.trans hp.2.symm))

theorem finite_map_grown : ∃ d, Held 1 [(.addDirectory [0x62] 7, true), (.add [0x61] 5, true)] d ∧
    d.find [0x61] = 5 ∧ d.isDirectory [0x62] = true ∧ d.find [0x63] = -1 := by
  obtain ⟨d, hd⟩ : ∃ d, Held 1 [(.addDirectory [0x62] 7, true), (.add [0x61] 5, true)] d :=
    ⟨_, .change (k := Kernel.blank) (.change (k := Kernel.blank) (.new (k := Kernel.blank) rfl) rfl) rfl⟩
  have h := (finite_map (le_refl 1) hd).2.1
  exact ⟨d, hd, (h [0x61]).1.trans (by decide), (h [0x62]).2.trans (by decide), (h [0x63]).1.trans (by decide)⟩

end Directory

end NachosFileSys
