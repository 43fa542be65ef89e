import NachosFileSys.FileTable
import NachosFileSys.Lib.Threads

namespace NachosFileSys

open Lib.Runs Lib.Threads

lemma sum_set_add {l : List ℕ} {i a : ℕ} (h : l[i]? = some a) (b : ℕ) : (l.set i b).sum + a = l.sum + b := by
  induction l generalizing i with
  | nil => simp at h
  | cons x l ih =>
    cases i with
    | zero =>
      obtain rfl : x = a := by simpa using h
      simp only [List.set_cons_zero, List.sum_cons]
      omega
    | succ i =>
      have ih := ih (i := i) (by simpa using h)
      simp only [List.set_cons_succ, List.sum_cons]
      omega

lemma sum_eraseIdx_add {l : List ℕ} {i a : ℕ} (h : l[i]? = some a) : (l.eraseIdx i).sum + a = l.sum := by
  induction l generalizing i with
  | nil => simp at h
  | cons x l ih =>
    cases i with
    | zero =>
      obtain rfl : x = a := by simpa using h
      simp only [List.eraseIdx_cons_zero, List.sum_cons]
      omega
    | succ i =>
      have ih := ih (i := i) (by simpa using h)
      simp only [List.eraseIdx_cons_succ, List.sum_cons]
      omega

namespace FileTable

def lower (c : ℕ) : Option FileTableEntry → Option FileTableEntry
  | none => none
  | some e => if e.refCount ≤ c then none else some { e with refCount := e.refCount - c }

lemma lower_lower (a b : ℕ) (x : Option FileTableEntry) : lower b (lower a x) = lower (a + b) x := by
  cases x with
  | none => rfl
  | some e =>
    simp only [lower, Nat.cast_add]
    by_cases ha : e.refCount ≤ a
    · rw [if_pos ha, if_pos (by omega)]
    · rw [if_neg ha]
      by_cases hb : e.refCount ≤ a + b
      · rw [if_pos hb]
        exact if_pos (by dsimp only; omega)
      · rw [if_neg hb]
        refine (if_neg (by dsimp only; omega)).trans ?_
        dsimp only
        congr 2
        omega

def Held (t : FileTable) : Prop := ∀ {g : ℕ} {e : FileTableEntry}, t.table[g]? = some (some e) → 1 ≤ e.refCount

lemma Held.lower_zero {t : FileTable} (h : t.Held) (g : ℕ) : t.table[g]?.map (lower 0) = t.table[g]? := by
  cases hg : t.table[g]? with
  | none => rfl
  | some x =>
    cases x with
    | none => rfl
    | some e =>
      have := h hg
      simp only [Option.map_some, lower, Nat.cast_zero, sub_zero]
      rw [if_neg (by omega)]

structure Lowered (t : FileTable) (ids : List ℤ) (t' : FileTable) : Prop where
  entries : ∀ g : ℕ, t'.table[g]? = t.table[g]?.map (lower (ids.count (g : ℤ)))
  deleted : ∀ f, f ∈ t'.deleted ↔ f ∈ t.deleted ∨
    ∃ (g : ℕ) (e : FileTableEntry), t.table[g]? = some (some e) ∧ e.file = f ∧ e.refCount ≤ ids.count (g : ℤ)

lemma Lowered.held {t t' : FileTable} {ids : List ℤ} (h : Lowered t ids t') : t'.Held := by
  intro g e he
  rw [h.entries] at he
  obtain ⟨x, -, hx⟩ := Option.map_eq_some_iff.mp he
  cases x with
  | none => cases hx
  | some e' =>
    rw [lower] at hx
    split at hx
    · cases hx
    · cases hx
      dsimp only
      omega

lemma Lowered.trans {t t₁ t₂ : FileTable} {a b : List ℤ} (h : Lowered t a t₁) (h' : Lowered t₁ b t₂) :
    Lowered t (a ++ b) t₂ := by
  refine ⟨fun g => ?_, fun f => ?_⟩
  · rw [h'.entries, h.entries, Option.map_map, List.count_append]
    congr 1
    funext x
    exact lower_lower _ _ x
  · rw [h'.deleted, h.deleted]
    constructor
    · rintro ((hf | ⟨g, e, he, hef, hle⟩) | ⟨g, e, he, hef, hle⟩)
      · exact Or.inl hf
      · exact Or.inr ⟨g, e, he, hef, by rw [List.count_append]; omega⟩
      · rw [h.entries] at he
        obtain ⟨x, hx, hxe⟩ := Option.map_eq_some_iff.mp he
        cases x with
        | none => cases hxe
        | some e' =>
          rw [lower] at hxe
          split at hxe
          · cases hxe
          · cases hxe
            exact Or.inr ⟨g, e', hx, hef, by rw [List.count_append]; dsimp only at hle; omega⟩
    · rintro (hf | ⟨g, e, he, hef, hle⟩)
      · exact Or.inl (Or.inl hf)
      · by_cases ha : e.refCount ≤ a.count (g : ℤ)
        · exact Or.inl (Or.inr ⟨g, e, he, hef, ha⟩)
        · refine Or.inr ⟨g, { e with refCount := e.refCount - a.count (g : ℤ) }, ?_, hef, ?_⟩
          · rw [h.entries, he, Option.map_some, lower, if_neg ha]
          · rw [List.count_append] at hle
            dsimp only
            omega

lemma Held.refl {t : FileTable} (h : t.Held) {id : ℤ} (hid : ∀ g : ℕ, t.table[g]?.join ≠ none → (g : ℤ) ≠ id) :
    Lowered t [id] t := by
  have hcount : ∀ (g : ℕ) (e : FileTableEntry), t.table[g]? = some (some e) → [id].count (g : ℤ) = 0 := by
    intro g e he
    rw [List.count_eq_zero, List.mem_singleton]
    exact hid g (by rw [he]; simp)
  refine ⟨fun g => ?_, fun f => ⟨Or.inl, ?_⟩⟩
  · cases hg : t.table[g]? with
    | none => rfl
    | some x =>
      cases x with
      | none => rfl
      | some e =>
        rw [hcount g e hg, ← hg, h.lower_zero]
  · rintro (hf | ⟨g, e, he, -, hle⟩)
    · exact hf
    · have := h he
      rw [hcount g e he] at hle
      omega

lemma Held.remove {t : FileTable} (h : t.Held) (hlen : t.table.length = MAX_OPEN_FILE_ID) (id : ℤ) :
    Lowered t [id] (t.remove id).2 := by
  rw [FileTable.remove]
  split
  · refine h.refl fun g hg heq => ?_
    have hlt : g < t.table.length := by
      by_contra hge
      rw [List.getElem?_eq_none (by omega)] at hg
      exact hg rfl
    omega
  · rename_i hb
    have hid : ((id.toNat : ℕ) : ℤ) = id := Int.toNat_of_nonneg (by omega)
    have hlt : id.toNat < t.table.length := by omega
    have hread : t.readEntry id = t.table[id.toNat] := by
      rw [readEntry, List.getD_eq_getElem?_getD, List.getElem?_eq_getElem hlt]
      rfl
    have hget : t.table[id.toNat]? = some (t.readEntry id) := by
      rw [hread, List.getElem?_eq_getElem hlt]
    have hcount : ∀ g : ℕ, [id].count (g : ℤ) = if g = id.toNat then 1 else 0 := by
      intro g
      rw [List.count_singleton]
      simp only [beq_iff_eq]
      split <;> split <;> omega
    -- the slot is the only one that changes
    have hset : ∀ x, x = lower 1 (t.readEntry id) → ∀ g : ℕ,
        (t.table.set id.toNat x)[g]? = t.table[g]?.map (lower ([id].count (g : ℤ))) := by
      intro x hx g
      rw [hcount]
      by_cases hg : g = id.toNat
      · rw [if_pos hg, hg, List.getElem?_set_self hlt, hget, hx]
        rfl
      · rw [if_neg hg, List.getElem?_set_ne (Ne.symm hg), h.lower_zero]
    cases he : t.readEntry id with
    | none =>
      refine h.refl fun g hg heq => ?_
      have : g = id.toNat := by omega
      rw [this, hget, he] at hg
      exact hg rfl
    | some e =>
      rw [he] at hget hset
      dsimp only
      have hpos := h hget
      split
      · rename_i hle
        refine ⟨hset none (by rw [lower, if_pos (by push_cast; omega)]), fun f => ?_⟩
        rw [clearEntry, he]
        simp only [Option.map_some, Option.toList_some, List.singleton_append, List.mem_cons]
        constructor
        · rintro (rfl | hf)
          · exact Or.inr ⟨_, e, hget, rfl, by rw [hcount, if_pos rfl]; push_cast; omega⟩
          · exact Or.inl hf
        · rintro (hf | ⟨g, e', he', rfl, hle'⟩)
          · exact Or.inr hf
          · have := h he'
            rw [hcount] at hle'
            split at hle'
            · rename_i hg
              rw [hg, hget] at he'
              cases he'
              exact Or.inl rfl
            · omega
      · rename_i hgt
        refine ⟨hset _ (by rw [lower, if_neg (by push_cast; omega)]; rfl), fun f => ⟨Or.inl, ?_⟩⟩
        rintro (hf | ⟨g, e', he', -, hle'⟩)
        · exact hf
        · have := h he'
          rw [hcount] at hle'
          split at hle'
          · rename_i hg
            rw [hg, hget] at he'
            cases he'
            omega
          · omega

lemma Lowered.length {t t' : FileTable} {ids : List ℤ} (h : Lowered t ids t') :
    t'.table.length = t.table.length := by
  have hiff : ∀ g : ℕ, g < t'.table.length ↔ g < t.table.length := by
    intro g
    rw [← not_le, ← not_le, ← List.getElem?_eq_none_iff, ← List.getElem?_eq_none_iff, h.entries,
      Option.map_eq_none_iff]
  have h₁ := hiff t.table.length
  have h₂ := hiff t'.table.length
  omega

lemma Held.removeAll {t : FileTable} (h : t.Held) (hlen : t.table.length = MAX_OPEN_FILE_ID) (ids : List ℤ) :
    ids ≠ [] → Lowered t ids (FileVector.removeAll ids t) := by
  induction ids generalizing t with
  | nil => intro h; exact absurd rfl h
  | cons id ids ih =>
    intro _
    have h₁ := h.remove hlen id
    cases ids with
    | nil => exact h₁
    | cons id' ids => exact h₁.trans (ih h₁.held (h₁.length.trans hlen) (List.cons_ne_nil _ _))

end FileTable

namespace Descriptors

variable {s s' : Descriptors}

structure Valid (s : Descriptors) : Prop where
  slots : s.table.table.length = MAX_OPEN_FILE_ID
  ids : ∀ v ∈ s.vectors, v.idVector.length = MAX_OPEN_FILE_ID
  held : s.table.Held
  counted : s.Counted

structure Closes (s s' : Descriptors) : Prop where
  gone : ∀ {g : ℕ} {e : FileTableEntry}, s.table.table[g]? = some (some e) →
      s'.refs g = 0 → s'.table.table[g]? = some none
  kept : ∀ {g : ℕ} {e : FileTableEntry}, s.table.table[g]? = some (some e) → s'.refs g ≠ 0 →
    ∃ e', s'.table.table[g]? = some (some e') ∧ e'.file = e.file
  deleted : ∀ f, f ∈ s'.table.deleted ↔ f ∈ s.table.deleted ∨
    ∃ (g : ℕ) (e : FileTableEntry), s.table.table[g]? = some (some e) ∧ e.file = f ∧ s'.refs g = 0

lemma refs_set {i : ℕ} {v w : FileVector} (hi : s.vectors[i]? = some v) (t : FileTable) (g : ℤ) :
    refs ⟨t, s.vectors.set i w⟩ g + v.idVector.count g = s.refs g + w.idVector.count g := by
  rw [refs, refs, List.map_set]
  exact sum_set_add (by rw [List.getElem?_map, hi]; rfl) _

lemma refs_eraseIdx {i : ℕ} {v : FileVector} (hi : s.vectors[i]? = some v) (t : FileTable) (g : ℤ) :
    refs ⟨t, s.vectors.eraseIdx i⟩ g + v.idVector.count g = s.refs g := by
  rw [refs, refs, ← List.eraseIdx_map]
  exact sum_eraseIdx_add (by rw [List.getElem?_map, hi]; rfl)

lemma Valid.lower {ids : List ℤ} (hv : s.Valid) (hl : s.table.Lowered ids s'.table)
    (hvec : ∀ v ∈ s'.vectors, v.idVector.length = MAX_OPEN_FILE_ID)
    (hrefs : ∀ g : ℕ, s'.refs g + ids.count (g : ℤ) = s.refs g) : s'.Valid ∧ s.Closes s' := by
  have hcount : ∀ {g : ℕ} {e : FileTableEntry}, s.table.table[g]? = some (some e) →
      (e.refCount ≤ ids.count (g : ℤ) ↔ s'.refs g = 0) := by
    intro g e he
    have := hrefs g
    rw [hv.counted g e he]
    omega
  refine ⟨⟨hl.length.trans hv.slots, hvec, hl.held, fun g e he => ?_⟩,
    fun {g e} he h0 => ?_, fun {g e} he h0 => ?_,
    fun f => ?_⟩
  · rw [hl.entries] at he
    obtain ⟨x, hx, hxe⟩ := Option.map_eq_some_iff.mp he
    cases x with
    | none => cases hxe
    | some e' =>
      rw [FileTable.lower] at hxe
      split at hxe
      · cases hxe
      · cases hxe
        have := hrefs g
        rw [hv.counted g e' hx]
        dsimp only
        omega
  · rw [hl.entries, he, Option.map_some, FileTable.lower, if_pos ((hcount he).mpr h0)]
  · refine ⟨{ e with refCount := e.refCount - ids.count (g : ℤ) }, ?_, rfl⟩
    rw [hl.entries, he, Option.map_some, FileTable.lower, if_neg fun h => h0 ((hcount he).mp h)]
  · rw [hl.deleted]
    refine or_congr_right ⟨?_, ?_⟩
    · rintro ⟨g, e, he, hef, hle⟩
      exact ⟨g, e, he, hef, (hcount he).mp hle⟩
    · rintro ⟨g, e, he, hef, hle⟩
      exact ⟨g, e, he, hef, (hcount he).mpr hle⟩

lemma Valid.raise (hv : s.Valid) (hslots : s'.table.table.length = MAX_OPEN_FILE_ID)
    (hvec : ∀ v ∈ s'.vectors, v.idVector.length = MAX_OPEN_FILE_ID) (hdel : s'.table.deleted = s.table.deleted)
    (hold : ∀ {g : ℕ} {e : FileTableEntry}, s.table.table[g]? = some (some e) →
      s'.table.table[g]? = some (some ⟨e.file, e.refCount + (s'.refs g - s.refs g : ℕ)⟩) ∧ s.refs g ≤ s'.refs g)
    (hnew : ∀ {g : ℕ} {e : FileTableEntry}, s'.table.table[g]? = some (some e) →
      s.table.table[g]?.join = none → e.refCount = 1 ∧ s'.refs g = 1) : s'.Valid ∧ s.Closes s' := by
  have hpos : ∀ {g : ℕ} {e : FileTableEntry}, s.table.table[g]? = some (some e) → 0 < s.refs g := by
    intro g e he
    have h₁ := hv.held he
    rw [hv.counted g e he] at h₁
    omega
  have hcount : ∀ {g : ℕ} {e : FileTableEntry}, s'.table.table[g]? = some (some e) →
      e.refCount = s'.refs g ∧ 1 ≤ e.refCount := by
    intro g e he
    cases hg : s.table.table[g]?.join with
    | none =>
      obtain ⟨h₁, h₂⟩ := hnew he hg
      omega
    | some e' =>
      rw [Option.join_eq_some_iff] at hg
      obtain ⟨h₁, h₂⟩ := hold hg
      rw [h₁] at he
      cases he
      have := hv.held hg
      have := hv.counted g e' hg
      dsimp only
      omega
  refine ⟨⟨hslots, hvec, fun he => (hcount he).2, fun g e he => (hcount he).1⟩, fun {g e} he h0 => ?_,
    fun {g e} he h0 => ⟨_, (hold he).1, rfl⟩, fun f => ?_⟩
  · have := hpos he
    have := (hold he).2
    omega
  · rw [hdel]
    refine ⟨Or.inl, ?_⟩
    rintro (hf | ⟨g, e, he, -, h0⟩)
    · exact hf
    · have := hpos he
      have := (hold he).2
      omega

lemma addReference_getElem? {t : FileTable} (hlen : t.table.length = MAX_OPEN_FILE_ID)
    (id : ℕ) (hid : id < MAX_OPEN_FILE_ID)
    (g : ℕ) : (t.addReference id).2.table[g]? =
      t.table[g]?.map fun x => x.map fun e => ⟨e.file, e.refCount + if g = id then 1 else 0⟩ := by
  have hlt : id < t.table.length := by omega
  have hget : t.table[id]? = some (t.readEntry id) := by
    rw [FileTable.readEntry, Int.toNat_natCast, List.getD_eq_getElem?_getD, List.getElem?_eq_getElem hlt]
    rfl
  have hsame : ∀ x : Option FileTableEntry, g ≠ id →
      (x.map fun e => (⟨e.file, e.refCount + if g = id then 1 else 0⟩ : FileTableEntry)) = x := by
    intro x hg
    cases x with
    | none => rfl
    | some e => simp [hg]
  rw [FileTable.addReference, if_neg (by omega)]
  cases he : t.readEntry id with
  | none =>
    dsimp only
    by_cases hg : g = id
    · rw [hg, hget, he]
      rfl
    · cases hx : t.table[g]? with
      | none => rfl
      | some x => rw [Option.map_some, hsame x hg]
  | some e =>
    dsimp only
    rw [Int.toNat_natCast]
    by_cases hg : g = id
    · rw [hg, List.getElem?_set_self hlt, hget, he]
      simp
    · rw [List.getElem?_set_ne (Ne.symm hg)]
      cases hx : t.table[g]? with
      | none => rfl
      | some x => rw [Option.map_some, hsame x hg]

lemma addReference_frame (t : FileTable) (id : ℕ) :
    (t.addReference id).2.deleted = t.deleted ∧ (t.addReference id).2.table.length = t.table.length := by
  rw [FileTable.addReference]
  split
  · exact ⟨rfl, rfl⟩
  · split
    · exact ⟨rfl, rfl⟩
    · exact ⟨rfl, List.length_set⟩

lemma Valid.construct (hv : s.Valid) : (step .construct s).Valid ∧ s.Closes (step .construct s) := by
  have h₀ := addReference_frame s.table 0
  have h₁ := addReference_frame (s.table.addReference 0).2 1
  have hlen₀ : (s.table.addReference (0 : ℕ)).2.table.length = MAX_OPEN_FILE_ID := h₀.2.trans hv.slots
  have hrefs : ∀ g :
      ℕ, (step .construct s).refs g = s.refs g + ((if g = 0 then 1 else 0) + if g = 1 then 1 else 0) := by
    intro g
    have hcount : (0 :: 1 :: List.replicate (MAX_OPEN_FILE_ID - 2) (-1 : ℤ)).count (g : ℤ) =
        (if g = 0 then 1 else 0) + if g = 1 then 1 else 0 := by
      rw [List.count_cons, List.count_cons, List.count_replicate]
      simp only [beq_iff_eq]
      split <;> split <;> split <;> split <;> split <;> omega
    rw [step, refs, refs, ← hcount]
    simp [FileVector.new]
  have hentry : ∀ g : ℕ, (step .construct s).table.table[g]? = s.table.table[g]?.map fun x => x.map fun e =>
      (⟨e.file, e.refCount + (if g = 0 then 1 else 0) + if g = 1 then 1 else 0⟩ : FileTableEntry) := by
    intro g
    refine (addReference_getElem? hlen₀ 1 (by decide) g).trans ?_
    rw [addReference_getElem? hv.slots 0 (by decide) g, Option.map_map]
    congr 1
    funext x
    cases x <;> rfl
  refine hv.raise (h₁.2.trans hlen₀) (fun v h => ?_) (h₁.1.trans h₀.1) (fun {g e} he => ?_) fun {g e} he hn => ?_
  · obtain h | h := List.mem_append.mp h
    · exact hv.ids v h
    · rw [List.mem_singleton.mp h]
      rfl
  · rw [hentry, he, hrefs]
    refine ⟨?_, by omega⟩
    rw [Option.map_some, Option.map_some]
    congr 3
    split <;> split <;> push_cast <;> omega
  · rw [hentry] at he
    obtain ⟨x, hx, hxe⟩ := Option.map_eq_some_iff.mp he
    rw [hx] at hn
    cases x with
    | none => cases hxe
    | some e' => cases hn

lemma freeId_spec {v : FileVector} {j : ℕ} (h : v.freeId = some j) : v.idVector[j]? = some (-1) := by
  rw [FileVector.freeId] at h
  obtain ⟨i, hi, rfl⟩ := Option.map_eq_some_iff.mp h
  obtain ⟨hlt, hp, -⟩ := List.findIdx?_eq_some_iff_getElem.mp hi
  have := List.getElem?_eq_getElem hlt
  rw [List.getElem?_drop, of_decide_eq_true hp, Nat.add_comm] at this
  exact this

lemma count_set_add {l : List ℤ} {j : ℕ} {a : ℤ} (h : l[j]? = some a) (b g : ℤ) :
    (l.set j b).count g + (if a = g then 1 else 0) = l.count g + if b = g then 1 else 0 := by
  have := Pool.countP_set (p := (· == g)) h b
  simpa [List.count] using this

lemma Valid.same (hv : s.Valid) : s.Valid ∧ s.Closes s :=
  hv.raise hv.slots hv.ids rfl (fun {g e} he => ⟨by simpa using he, le_rfl⟩) fun he hn => by simp [he] at hn

lemma set_of_getElem? {α : Type} {l : List α} {j : ℕ} {a : α} (h : l[j]? = some a) : l.set j a = l := by
  obtain ⟨hlt, rfl⟩ := List.getElem?_eq_some_iff.mp h
  exact List.set_getElem_self hlt

lemma Valid.insert {i : ℕ} {f : Pointer} (hv : s.Valid) (hf : s.Fresh (.insert i f)) :
    (step (.insert i f) s).Valid ∧ s.Closes (step (.insert i f) s) := by
  rw [step]
  cases hi : s.vectors[i]? with
  | none => exact hv.same
  | some v =>
    dsimp only
    rw [FileVector.insert, FileTable.insert]
    cases hg : s.table.table.findIdx? Option.isNone with
    | none =>
      -- the local id keeps the value `-1`
      dsimp only
      cases hj : v.freeId with
      | none =>
        dsimp only
        rw [set_of_getElem? hi]
        exact hv.same
      | some j =>
        dsimp only
        rw [set_of_getElem? (freeId_spec hj), set_of_getElem? hi]
        exact hv.same
    | some g₀ =>
      obtain ⟨hzero, hfree⟩ := hf g₀ v hg hi
      obtain ⟨j, hj⟩ := Option.ne_none_iff_exists'.mp hfree
      obtain ⟨hlt, hnone, -⟩ := List.findIdx?_eq_some_iff_getElem.mp hg
      have hslot : s.table.table[g₀]? = some none := by
        rw [List.getElem?_eq_getElem hlt, Option.isNone_iff_eq_none.mp hnone]
      dsimp only
      rw [hj]
      dsimp only
      have hrefs : ∀ g : ℕ, refs ⟨s.table.writeEntry g₀ f, s.vectors.set i ⟨v.idVector.set j g₀⟩⟩ g =
          s.refs g + if g = g₀ then 1 else 0 := by
        intro g
        have h₁ := refs_set (w := ⟨v.idVector.set j g₀⟩) hi (s.table.writeEntry g₀ f) g
        have h₂ := count_set_add (freeId_spec hj) (g₀ : ℤ) g
        rw [if_neg (by omega)] at h₂
        simp only [Nat.cast_inj, @eq_comm _ g₀ g] at h₂
        dsimp only at h₁
        omega
      refine hv.raise (List.length_set.trans hv.slots) (fun u hu => ?_) rfl
          (fun {g e} he => ?_) fun {g e} he hn => ?_
      · rcases List.mem_or_eq_of_mem_set hu with hu | rfl
        · exact hv.ids u hu
        · exact List.length_set.trans (hv.ids v (List.mem_of_getElem? hi))
      · have hne : g ≠ g₀ := by
          rintro rfl
          rw [hslot] at he
          cases he
        rw [hrefs, if_neg hne]
        refine ⟨?_, by omega⟩
        rw [FileTable.writeEntry, Int.toNat_natCast, List.getElem?_set_ne (Ne.symm hne), he]
        simp
      · rw [FileTable.writeEntry, Int.toNat_natCast] at he
        by_cases hgg : g = g₀
        · rw [hgg, List.getElem?_set_self hlt] at he
          cases he
          rw [hrefs, if_pos hgg, hgg, hzero]
          exact ⟨rfl, rfl⟩
        · rw [List.getElem?_set_ne (Ne.symm hgg)] at he
          simp [he] at hn

lemma Valid.remove (hv : s.Valid) (i : ℕ) (id : ℤ) :
    (step (.remove i id) s).Valid ∧ s.Closes (step (.remove i id) s) := by
  rw [step]
  cases hi : s.vectors[i]? with
  | none => exact hv.same
  | some v =>
    dsimp only
    rw [FileVector.remove]
    split
    · dsimp only
      rw [set_of_getElem? hi]
      exact hv.same
    · rename_i hb
      have hlen := hv.ids v (List.mem_of_getElem? hi)
      have hlt : id.toNat < v.idVector.length := by omega
      have hget : v.idVector[id.toNat]? = some (v.idVector.getD id.toNat (-1)) := by
        rw [List.getD_eq_getElem?_getD, List.getElem?_eq_getElem hlt]
        rfl
      dsimp only
      refine hv.lower (FileTable.Held.remove hv.held hv.slots _) (fun u hu => ?_) fun g => ?_
      · rcases List.mem_or_eq_of_mem_set hu with hu | rfl
        · exact hv.ids u hu
        · exact List.length_set.trans hlen
      · have h₁ := refs_set (w := ⟨v.idVector.set id.toNat (-1)⟩) hi
          (s.table.remove (v.idVector.getD id.toNat (-1))).2 g
        have h₂ := count_set_add hget (-1) g
        have hneg : ¬(-1 : ℤ) = g := by omega
        rw [if_neg hneg] at h₂
        rw [List.count_singleton]
        simp only [beq_iff_eq]
        dsimp only at h₁
        omega

lemma Valid.destruct (hv : s.Valid) (i : ℕ) : (step (.destruct i) s).Valid ∧ s.Closes (step (.destruct i) s) := by
  rw [step]
  cases hi : s.vectors[i]? with
  | none => exact hv.same
  | some v =>
    dsimp only
    have hlen := hv.ids v (List.mem_of_getElem? hi)
    have hne : v.idVector ≠ [] := by
      intro h
      rw [h] at hlen
      cases hlen
    exact hv.lower (FileTable.Held.removeAll hv.held hv.slots _ hne)
      (fun u hu => hv.ids u (List.mem_of_mem_eraseIdx hu)) fun g =>
        refs_eraseIdx hi _ g

lemma Valid.step {op : Op} (hv : s.Valid) (hf : s.Fresh op) :
    (Descriptors.step op s).Valid ∧ s.Closes (Descriptors.step op s) := by
  cases op with
  | construct => exact hv.construct
  | insert i f => exact hv.insert hf
  | remove i id => exact hv.remove i id
  | destruct i => exact hv.destruct i

lemma valid_start : start.Valid := by
  have hnone : ∀ {g : ℕ} {e : FileTableEntry}, start.table.table[g]? ≠ some (some e) := by
    intro g e he
    have hmem := List.eq_of_mem_replicate (List.mem_of_getElem? he)
    cases hmem
  exact ⟨rfl, fun v hv => absurd hv List.not_mem_nil, fun he => absurd he hnone, fun g e he => absurd he hnone⟩

end Descriptors

/-- In every run in which `Insert` takes slots to which no vector refers and finds local ids for them, every
entry counts its descriptors, and each step deletes the files whose last descriptor it takes away and no
others. -/
theorem reference_counts (s : Descriptors)
    (h : Reaches (fun op s s' => Descriptors.step op s = s') Descriptors.Fresh Descriptors.start s) :
    s.Counted ∧ ∀ op, s.Fresh op → s.Closes (Descriptors.step op s) := by
  have hv : s.Valid := by
    refine h.invariant (I := Descriptors.Valid) (fun op t u ht hf hstep => ?_) Descriptors.valid_start
    rw [← hstep]
    exact (ht.step hf).1
  exact ⟨hv.counted, fun op hf => (hv.step hf).2⟩

theorem reference_counts_without_console :
    ∃ s : Descriptors, s.table.table[0]? = some (some ⟨7, 1⟩) ∧ s.Counted := by
  let s₁ := Descriptors.step .construct Descriptors.start
  let s₂ := Descriptors.step (.remove 0 0) s₁
  have hfresh : s₂.Fresh (.insert 0 7) := by
    intro g v hg hv
    have h₀ : s₂.table.table.findIdx? Option.isNone = some 0 := by decide
    have hv₀ : s₂.vectors[0]? = some ⟨-1 :: 1 :: List.replicate 98 (-1)⟩ := by decide
    cases h₀.symm.trans hg
    cases hv₀.symm.trans hv
    exact ⟨by decide, by decide⟩
  refine ⟨Descriptors.step (.insert 0 7) s₂, by decide, (reference_counts _ ?_).1⟩
  exact .step (.insert 0 7) (.step (.remove 0 0) (.step .construct .refl trivial rfl) trivial rfl) hfresh rfl

/-- The first file that a thread opens goes into slot `0`, to which the console descriptor of the thread
already refers: one reference is counted and there are two. -/
theorem console_reference_not_counted :
    ∃ s : Descriptors, Reaches (fun op s s' => Descriptors.step op s = s') (fun _ _ => True) Descriptors.start s ∧
      s.table.table[0]? = some (some ⟨7, 1⟩) ∧ s.refs 0 = 2 ∧ ¬s.Counted := by
  let s₁ := Descriptors.step .construct Descriptors.start
  have hentry : (Descriptors.step (.insert 0 7) s₁).table.table[0]? = some (some ⟨7, 1⟩) := by decide
  have hrefs : (Descriptors.step (.insert 0 7) s₁).refs 0 = 2 := by decide
  refine ⟨Descriptors.step (.insert 0 7) s₁,
    .step (.insert 0 7) (.step .construct .refl trivial rfl) trivial rfl, hentry,
    hrefs, fun hc => ?_⟩
  have h := hc 0 _ hentry
  rw [Nat.cast_zero, hrefs] at h
  revert h
  decide

end NachosFileSys
