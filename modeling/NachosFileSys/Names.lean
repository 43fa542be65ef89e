import NachosFileSys.Tables
import Mathlib.Data.List.TakeWhile

namespace NachosFileSys

open Lib.Programs Lib.Bytes

def key (s : List Byte) : List Byte := (chars s).take FileNameMaxLen

lemma chars_eq (s : List Byte) : chars s = if s.headD 0 = 0 then [] else s.headD 0 :: chars s.tail := by
  cases s with
  | nil => rfl
  | cons a s =>
    rw [chars, List.headD_cons, List.tail_cons, List.takeWhile_cons]
    by_cases ha : a = 0
    · rw [if_pos ha, if_neg (by simpa using ha)]
    · rw [if_neg ha, if_pos (by simpa using ha)]
      rfl

lemma strncmpEq_iff (n : ℕ) : ∀ s t : List Byte, strncmpEq s t n = true ↔ (chars s).take n = (chars t).take n := by
  induction n with
  | zero => intro s t; simp [strncmpEq]
  | succ n ih =>
    intro s t
    have ih := ih s.tail t.tail
    rw [strncmpEq, chars_eq s, chars_eq t]
    generalize s.headD 0 = a, t.headD 0 = b
    by_cases hab : a = b
    · subst hab
      rw [if_neg (not_not.mpr rfl)]
      by_cases ha : a = 0
      · simp only [if_pos ha]
      · simp only [if_neg ha, List.take_succ_cons, List.cons.injEq, true_and]
        exact ih
    · rw [if_pos hab]
      by_cases ha : a = 0
      · have hb : b ≠ 0 := fun hb => hab (ha.trans hb.symm)
        rw [if_pos ha, if_neg hb, List.take_succ_cons]
        simp
      · rw [if_neg ha, List.take_succ_cons]
        by_cases hb : b = 0
        · rw [if_pos hb]
          simp
        · rw [if_neg hb, List.take_succ_cons, List.cons.injEq]
          simp [hab]

lemma chars_chars (s : CString) : chars (chars s) = chars s := by
  rw [chars, chars, List.takeWhile_idem]

lemma named_iff {name : CString} {e : DirectoryEntry} :
    Directory.named name e = true ↔ e.inUse ≠ 0 ∧ key e.name.toList = key name := by
  rw [Directory.named, Bool.and_eq_true, strncmpEq_iff, chars_chars, key, key]
  simp

lemma key_strncpy (old : Vector Byte 10) (name : CString) :
    key (DirectoryEntry.strncpy old name).toList = key name := by
  -- the first nine bytes are the characters of the name, padded with zeros
  have hpad : (DirectoryEntry.strncpy old name).toList.take 9 =
      (chars name).take 9 ++ List.replicate (9 - (chars name).length) 0 := by
    apply List.ext_getElem?
    intro i
    by_cases hi : i < 9
    · rw [List.getElem?_take_of_lt hi, Vector.getElem?_toList, Vector.getElem?_eq_getElem (by omega),
        DirectoryEntry.strncpy, Vector.getElem_ofFn, if_pos hi]
      by_cases hn : i < (chars name).length
      · rw [List.getElem?_append_left (by rw [List.length_take]; omega), List.getElem?_take_of_lt hi,
          List.getElem?_eq_getElem hn, List.getD_eq_getElem _ _ hn]
      · rw [List.getElem?_append_right (by rw [List.length_take]; omega), List.getElem?_replicate,
          if_pos (by rw [List.length_take]; omega), List.getD_eq_default _ _ (by simpa using hn)]
    · rw [List.getElem?_eq_none (by rw [List.length_take]; omega), List.getElem?_eq_none (by
        rw [List.length_append, List.length_take, List.length_replicate]
        omega)]
  have hall : ∀ a ∈ (chars name).take 9, (fun a : Byte => decide (a ≠ 0)) a = true := fun a ha =>
    List.mem_takeWhile_imp (p := fun a : Byte => decide (a ≠ 0)) (List.mem_of_mem_take ha)
  rw [key, key, chars, FileNameMaxLen, List.take_takeWhile, hpad, List.takeWhile_append_of_pos hall]
  have hz : (List.replicate (9 - (chars name).length) (0 : Byte)).takeWhile (· ≠ 0) = [] := by
    cases 9 - (chars name).length <;> simp [List.replicate_succ]
  rw [hz, List.append_nil]

namespace DirectoryEntry

def Dotted (e : DirectoryEntry) : Prop := key e.name.toList = [0x2e] ∨ key e.name.toList = [0x2e, 0x2e]

instance (e : DirectoryEntry) : Decidable e.Dotted :=
  inferInstanceAs (Decidable (key e.name.toList = [0x2e] ∨ key e.name.toList = [0x2e, 0x2e]))

def Owning (e : DirectoryEntry) : Prop := e.inUse ≠ 0 ∧ (e.isDir = 0 ∨ ¬e.Dotted)

def kind (e : DirectoryEntry) : Kind := if e.isDir = 0 then .plain else .dir

end DirectoryEntry

/-- Every entry in use stands for a file of its kind, every file has at most one owning entry, and the
names of a directory differ. -/
structure Names (tables : ℤ → List DirectoryEntry) (kind : ℤ → Option Kind) : Prop where
  root : kind DirectorySector = some .dir
  points : ∀ {s e}, kind s = some .dir → e ∈ tables s → e.inUse ≠ 0 → kind e.sector.toInt = some e.kind
  unique : ∀ {s s'} {i i' : ℕ} {e e' : DirectoryEntry}, kind s = some .dir →
    kind s' = some .dir → (tables s)[i]? = some e →
    (tables s')[i']? = some e' → e.Owning → e'.Owning → e.sector.toInt = e'.sector.toInt → s = s' ∧ i = i'
  notRoot : ∀ {s e}, kind s = some .dir → e ∈ tables s → e.Owning → e.sector.toInt ≠ DirectorySector
  keys : ∀ {s} {i i' : ℕ} {e e' : DirectoryEntry}, kind s = some .dir →
    (tables s)[i]? = some e → (tables s)[i']? = some e' → e.inUse ≠ 0 →
    e'.inUse ≠ 0 → key e.name.toList = key e'.name.toList → i = i'

namespace Names

variable {tables tables' : ℤ → List DirectoryEntry} {kind : ℤ → Option Kind} {s h : ℤ} {i : ℕ} {e : DirectoryEntry}

lemma congr (hn : Names tables kind) (ht : ∀ s, kind s = some .dir → tables' s = tables s) :
    Names tables' kind where
  root := hn.root
  points hk := by
    rw [ht _ hk]
    exact hn.points hk
  unique hk hk' := by
    rw [ht _ hk, ht _ hk']
    exact hn.unique hk hk'
  notRoot hk := by
    rw [ht _ hk]
    exact hn.notRoot hk
  keys hk := by
    rw [ht _ hk]
    exact hn.keys hk

structure Bare (kind : ℤ → Option Kind) (table : List DirectoryEntry) : Prop where
  links : ∀ e ∈ table, e.inUse ≠ 0 → e.isDir ≠ 0 ∧ e.Dotted ∧ kind e.sector.toInt = some .dir
  keys : ∀ {i i' : ℕ} {e e' : DirectoryEntry}, table[i]? = some e →
    table[i']? = some e' → e.inUse ≠ 0 → e'.inUse ≠ 0 →
    key e.name.toList = key e'.name.toList → i = i'

lemma Bare.not_owning {kind : ℤ → Option Kind} {table : List DirectoryEntry} (hb : Bare kind table)
    (he : e ∈ table) : ¬e.Owning := fun ho =>
  ho.2.elim (hb.links e he ho.1).1 fun hd => hd (hb.links e he ho.1).2.1

lemma addFile (hn : Names tables kind) (hh : kind h = none) (c : Kind)
    (hc : c = .dir → Bare (Function.update kind h (some c)) (tables h)) :
    Names tables (Function.update kind h (some c)) := by
  have hold : ∀ {s}, s ≠ h → Function.update kind h (some c) s = some .dir → kind s = some .dir := fun hne hk => by
    rwa [Function.update_of_ne hne] at hk
  have hself : Function.update kind h (some c) h = some .dir → c = .dir := fun hk => by
    rw [Function.update_self] at hk
    exact Option.some.inj hk
  have hpoint : ∀ {s c'}, kind s = some c' → Function.update kind h (some c) s = some c' := fun {s c'} hk => by
    rw [Function.update_of_ne]
    · exact hk
    · rintro rfl
      rw [hh] at hk
      cases hk
  refine ⟨hpoint hn.root, fun {s e} hk he hu => ?_, fun {s s' i i' e e'} hk hk' he he' ho ho' heq => ?_,
    fun {s e} hk he ho => ?_, fun {s i i' e e'} hk he he' => ?_⟩
  · by_cases hs : s = h
    · subst hs
      obtain ⟨hd, -, hp⟩ := (hc (hself hk)).links e he hu
      rw [hp, DirectoryEntry.kind, if_neg hd]
    · exact hpoint (hn.points (hold hs hk) he hu)
  · by_cases hs : s = h
    · subst hs
      exact absurd ho ((hc (hself hk)).not_owning (List.mem_of_getElem? he))
    · by_cases hs' : s' = h
      · subst hs'
        exact absurd ho' ((hc (hself hk')).not_owning (List.mem_of_getElem? he'))
      · exact hn.unique (hold hs hk) (hold hs' hk') he he' ho ho' heq
  · by_cases hs : s = h
    · subst hs
      exact absurd ho ((hc (hself hk)).not_owning he)
    · exact hn.notRoot (hold hs hk) he ho
  · by_cases hs : s = h
    · subst hs
      exact (hc (hself hk)).keys he he'
    · exact hn.keys (hold hs hk) he he'

lemma link (hn : Names tables kind) (hs : kind s = some .dir) (hp : kind e.sector.toInt = some e.kind)
    (hroot : e.sector.toInt ≠ DirectorySector)
    (hfree : ∀ {s' e'}, kind s' = some .dir → e' ∈ tables s' → e'.Owning → e'.sector.toInt ≠ e.sector.toInt)
    (hkey : ∀ e' ∈ tables s, e'.inUse ≠ 0 → key e'.name.toList ≠ key e.name.toList) :
    Names (Function.update tables s ((tables s).set i e)) kind := by
  -- an entry of a table is the new one or an old one at its old place
  have hget : ∀ {x} {j : ℕ} {e' : DirectoryEntry}, (Function.update tables s ((tables s).set i e) x)[j]? =
      some e' →
      (x = s ∧ j = i ∧ e' = e) ∨ (tables x)[j]? = some e' ∧ (x = s → j ≠ i) := by
    intro x j e' h
    by_cases hx : x = s
    · subst hx
      rw [Function.update_self, List.getElem?_set] at h
      by_cases hj : i = j
      · subst hj
        rw [if_pos rfl] at h
        split at h
        · exact Or.inl ⟨rfl, rfl, (Option.some.inj h).symm⟩
        · cases h
      · rw [if_neg hj] at h
        exact Or.inr ⟨h, fun _ => Ne.symm hj⟩
    · rw [Function.update_of_ne hx] at h
      exact Or.inr ⟨h, fun h' => absurd h' hx⟩
  have hmem : ∀ {x e'}, e' ∈ Function.update tables s ((tables s).set i e) x → e' = e ∨ e' ∈ tables x := by
    intro x e' h
    obtain ⟨j, hj⟩ := List.mem_iff_getElem?.mp h
    rcases hget hj with ⟨-, -, rfl⟩ | ⟨h, -⟩
    · exact Or.inl rfl
    · exact Or.inr (List.mem_of_getElem? h)
  refine ⟨hn.root, fun {x e'} hk he hu => ?_, fun {x x' j j' e₁ e₂} hk hk' he he' ho ho' heq => ?_,
    fun {x e'} hk he ho => ?_, fun {x j j' e₁ e₂} hk he he' hu hu' heq => ?_⟩
  · rcases hmem he with rfl | he
    · exact hp
    · exact hn.points hk he hu
  · rcases hget he with ⟨rfl, rfl, rfl⟩ | ⟨h₁, -⟩
    · rcases hget he' with ⟨rfl, rfl, rfl⟩ | ⟨h₂, -⟩
      · exact ⟨rfl, rfl⟩
      · exact absurd heq.symm (hfree hk' (List.mem_of_getElem? h₂) ho')
    · rcases hget he' with ⟨rfl, rfl, rfl⟩ | ⟨h₂, -⟩
      · exact absurd heq (hfree hk (List.mem_of_getElem? h₁) ho)
      · exact hn.unique hk hk' h₁ h₂ ho ho' heq
  · rcases hmem he with rfl | he
    · exact hroot
    · exact hn.notRoot hk he ho
  · rcases hget he with ⟨rfl, rfl, rfl⟩ | ⟨h₁, -⟩
    · rcases hget he' with ⟨-, rfl, rfl⟩ | ⟨h₂, -⟩
      · rfl
      · exact absurd heq.symm (hkey e₂ (List.mem_of_getElem? h₂) hu')
    · rcases hget he' with ⟨rfl, rfl, rfl⟩ | ⟨h₂, -⟩
      · exact absurd heq (hkey e₁ (List.mem_of_getElem? h₁) hu)
      · exact hn.keys hk h₁ h₂ hu hu' heq

lemma unlink (hn : Names tables kind) (hs : kind s = some .dir) (he : (tables s)[i]? = some e) (hu : e.inUse ≠ 0)
    (hd : e.isDir = 0) :
    Names (Function.update tables s ((tables s).set i { e with inUse := 0 }))
      (Function.update kind e.sector.toInt none) := by
  have hown : e.Owning := ⟨hu, Or.inl hd⟩
  have hke : kind e.sector.toInt = some .plain := by
    rw [hn.points hs (List.mem_of_getElem? he) hu, DirectoryEntry.kind, if_pos hd]
  have hold : ∀ {x}, Function.update kind e.sector.toInt none x = some .dir →
      x ≠ e.sector.toInt ∧ kind x = some .dir := by
    intro x hk
    by_cases hx : x = e.sector.toInt
    · rw [hx, Function.update_self] at hk
      cases hk
    · rw [Function.update_of_ne hx] at hk
      exact ⟨hx, hk⟩
  have hget : ∀ {x} {j : ℕ} {e' : DirectoryEntry},
      (Function.update tables s ((tables s).set i { e with inUse := 0 }) x)[j]? = some e' →
      e'.inUse ≠ 0 → (tables x)[j]? = some e' ∧ (x = s → j ≠ i) := by
    intro x j e' h hu'
    by_cases hx : x = s
    · subst hx
      rw [Function.update_self, List.getElem?_set] at h
      by_cases hj : i = j
      · subst hj
        rw [if_pos rfl] at h
        split at h
        · cases h
          exact absurd rfl hu'
        · cases h
      · rw [if_neg hj] at h
        exact ⟨h, fun _ => Ne.symm hj⟩
    · rw [Function.update_of_ne hx] at h
      exact ⟨h, fun h' => absurd h' hx⟩
  refine ⟨?_, fun {x e'} hk he' hu' => ?_, fun {x x' j j' e₁ e₂} hk hk' h₁ h₂ ho ho' heq => ?_,
    fun {x e'} hk he' ho => ?_, fun {x j j' e₁ e₂} hk h₁ h₂ hu₁ hu₂ heq => ?_⟩
  · rw [Function.update_of_ne (Ne.symm (hn.notRoot hs (List.mem_of_getElem? he) hown))]
    exact hn.root
  · obtain ⟨j, hj⟩ := List.mem_iff_getElem?.mp he'
    obtain ⟨hj, hne⟩ := hget hj hu'
    have hp := hn.points (hold hk).2 (List.mem_of_getElem? hj) hu'
    rw [Function.update_of_ne]
    · exact hp
    · -- the only entry for the file is the one that goes out of use
      intro heq
      rw [heq, hke] at hp
      have hd' : e'.isDir = 0 := by
        by_contra hd'
        rw [DirectoryEntry.kind, if_neg hd'] at hp
        cases hp
      obtain ⟨hx, hji⟩ := hn.unique (hold hk).2 hs hj he ⟨hu', Or.inl hd'⟩ hown heq
      exact hne hx hji
  · exact hn.unique (hold hk).2 (hold hk').2 (hget h₁ ho.1).1 (hget h₂ ho'.1).1 ho ho' heq
  · obtain ⟨j, hj⟩ := List.mem_iff_getElem?.mp he'
    exact hn.notRoot (hold hk).2 (List.mem_of_getElem? (hget hj ho.1).1) ho
  · exact hn.keys (hold hk).2 (hget h₁ hu₁).1 (hget h₂ hu₂).1 hu₁ hu₂ heq

end Names

end NachosFileSys
