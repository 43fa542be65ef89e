import NachosFileSys.Writing

namespace NachosFileSys

open Lib.Programs Lib.Bytes

lemma find?_set_of_not {α : Type} {p : α → Bool} {a : α} (ha : p a = false) (l : List α) : ∀ (i : ℕ),
    (∀ b, l[i]? = some b → p b = false) → (l.set i a).find? p = l.find? p := by
  induction l with
  | nil => intro i _; rfl
  | cons b l ih =>
    intro i hb
    cases i with
    | zero => rw [List.set_cons_zero, List.find?_cons_of_neg (by simp [ha]),
        List.find?_cons_of_neg (by simp [hb b rfl])]
    | succ i =>
      rw [List.set_cons_succ, List.find?_cons, List.find?_cons, ih i fun c hc => hb c (by simpa using hc)]

lemma find?_set_of_none {α : Type} {p : α → Bool} {a : α} (ha : p a = true) (l : List α) : ∀ (i : ℕ),
    l.find? p = none → l[i]? ≠ none → (l.set i a).find? p = some a := by
  induction l with
  | nil => intro i _ hi; simp at hi
  | cons b l ih =>
    intro i hl hi
    cases i with
    | zero => rw [List.set_cons_zero, List.find?_cons_of_pos ha]
    | succ i =>
      have hall := List.find?_eq_none.mp hl
      have hrest : l.find? p = none := List.find?_eq_none.mpr fun x hx => hall x (List.mem_cons_of_mem _ hx)
      rw [List.set_cons_succ, List.find?_cons_of_neg (hall b List.mem_cons_self), ih i hrest (by simpa using hi)]

/-- The directories of `d` are directories of `d'` of the same length, and the names in them stand for the
same entries, except for those that are `gone`. -/
structure Keeps (gone : ℤ → CString → Prop) (d : Disk) (kind : ℤ → Option Kind) (d' : Disk)
    (kind' : ℤ → Option Kind) : Prop where
  dirs : ∀ {x}, kind x = some .dir → kind' x = some .dir
  hdrs : ∀ {x}, kind x = some .dir → hdrAt d' x = hdrAt d x
  lookups : ∀ {x name e}, kind x = some .dir → lookupIn d x name = some e → e.isDir ≠ 0 ∨ ¬gone x name →
    lookupIn d' x name = some e

namespace Keeps

variable {gone : ℤ → CString → Prop} {d d' : Disk} {kind kind' : ℤ → Option Kind}

lemma of_tables (h : SameDirs kind d d') : Keeps gone d kind d' kind :=
  ⟨id, h.hdr, fun hk hl _ => by
    rw [lookupIn, h.table hk]
    exact hl⟩

lemma refl (d : Disk) (kind : ℤ → Option Kind) : Keeps gone d kind d kind := of_tables (.refl _ _)

lemma resolve {fs : FileSystem} (hk : Keeps gone d kind d' kind')
    (hs : Sound fs d kind) (names : List CString) {wd : ℤ}
    {r : ℤ × CString} (hwd : kind wd = some .dir) (hr : resolve d names wd = some r) :
    NachosFileSys.resolve d' names wd = some r :=
  hs.resolve_congr names (fun hkx _ _ hl hd => hk.lookups hkx hl (Or.inl hd)) hwd hr

end Keeps

lemma Installed.numBytes {d d' : Disk} {kind : ℤ → Option Kind}
    {s i n : ℤ} {name : CString} {isDir : Byte} {c : Kind}
    (hinst : Installed d kind s name i isDir c n d') (hn : int32 n = n) : (hdrAt d' i).numBytes = n := by
  obtain ⟨p, ds, hp⟩ := hinst.hdr
  rw [hp, FileHeader.fresh_grown_numBytes hn]

lemma Installed.keeps {d d' : Disk} {kind : ℤ → Option Kind} {s i n : ℤ} {name : CString}
    {isDir : Byte} {c : Kind} (hinst : Installed d kind s name i isDir c n d')
    (gone : ℤ → CString → Prop) (hfresh : kind i = none) (hnone : lookupIn d s name = none) :
    Keeps gone d kind d' (Function.update kind i (some c)) := by
  refine ⟨fun {x} hkx => ?_, fun hkx => hinst.hdrs hkx, fun {x name' e} hkx hl _ => ?_⟩
  · rw [Function.update_of_ne]
    · exact hkx
    · rintro rfl
      rw [hfresh] at hkx
      cases hkx
  · by_cases hx : x = s
    · subst hx
      have hkey : key name ≠ key name' := by
        intro hkey
        refine List.find?_eq_none.mp hnone e (Sound.lookupIn_spec hl).1
            (named_iff.mpr ⟨(Sound.lookupIn_spec hl).2.1, ?_⟩)
        rw [(Sound.lookupIn_spec hl).2.2, hkey]
      rw [lookupIn, hinst.table, withEntry]
      cases hf : freeSlot (tableAt d x) with
      | none => exact hl
      | some j =>
        obtain ⟨old, hold, hu⟩ := freeSlot_spec hf
        dsimp only
        rw [modify_eq_set_of_getElem? hold, find?_set_of_not]
        · exact hl
        · rw [Bool.eq_false_iff]
          intro hn
          exact hkey ((old.filled_key name i isDir).symm.trans (named_iff.mp hn).2)
        · intro b hb
          rw [hold] at hb
          cases hb
          rw [Bool.eq_false_iff]
          exact fun hn => (named_iff.mp hn).1 hu
    · rw [lookupIn, hinst.others hkx hx]
      exact hl

lemma Installed.lookupIn_eq {d d' : Disk} {kind : ℤ → Option Kind}
    {s i n : ℤ} {name : CString} {isDir : Byte} {c : Kind}
    (hinst : Installed d kind s name i isDir c n d') (hi : InDisk i) (hnone : lookupIn d s name = none)
    (hroom : freeSlot (tableAt d s) ≠ none) :
    ∃ e, lookupIn d' s name = some e ∧ e.sector.toInt = i ∧ e.isDir = isDir := by
  obtain ⟨j, hj⟩ := Option.ne_none_iff_exists'.mp hroom
  obtain ⟨old, hold, -⟩ := freeSlot_spec hj
  refine ⟨old.filled name i isDir, ?_, old.filled_sector name isDir hi, rfl⟩
  rw [lookupIn, hinst.table, withEntry, hj]
  dsimp only
  rw [modify_eq_set_of_getElem? hold]
  exact find?_set_of_none (old.filled_named name i isDir) _ _ hnone (by rw [hold]; simp)

lemma Installed.printable {fs : FileSystem} {d d' : Disk} {kind : ℤ → Option Kind} {s i n : ℤ} {name : CString}
    {isDir : Byte} {c : Kind} (hs : Sound fs d kind) (hks : kind s = some .dir)
    (hinst : Installed d kind s name i isDir c n d') (hi : InDisk i)
    (hn : int32 (divRoundUp n SectorSize) ≤ (NumDirect : ℤ)) (hp : Printable d s) : Printable d' s := by
  intro e he hu
  rw [hinst.table, withEntry] at he
  have hold : e ∈ tableAt d s → (hdrAt d' e.sector.toInt).numSectors ≤ (NumDirect : ℤ) := fun he => by
    rw [hinst.hdrs (hs.names.points hks he hu)]
    exact hp e he hu
  cases hf : freeSlot (tableAt d s) with
  | none =>
    rw [hf] at he
    exact hold he
  | some j =>
    rw [hf] at he
    rcases mem_modify he with he | ⟨old, -, rfl⟩
    · exact hold he
    · obtain ⟨p, ds, hh⟩ := hinst.hdr
      rw [old.filled_sector name isDir hi, hh]
      change int32 (0 + divRoundUp n SectorSize) ≤ _
      rw [zero_add]
      exact hn

lemma Installed.plainBacked {d d' : Disk} {kind : ℤ → Option Kind}
    {s i n : ℤ} {name : CString} {isDir : Byte} {c : Kind}
    (hinst : Installed d kind s name i isDir c n d') (hn : int32 n = n) (hb : PlainBacked d kind) :
    PlainBacked d' (Function.update kind i (some c)) := by
  intro x hkx
  by_cases hx : x = i
  · subst hx
    rw [hinst.numBytes hn, hinst.data]
    exact le_sectorsNeeded n
  · rw [Function.update_of_ne hx] at hkx
    rw [hinst.hdrs hkx, hinst.datas hkx]
    exact hb hkx

lemma Unlinked.keeps {fs : FileSystem} {d d' : Disk} {kind : ℤ → Option Kind} {s : ℤ} {i : ℕ} {e : DirectoryEntry}
    {name : CString} (hs : Sound fs d kind) (hu : Unlinked d kind s i e d') (hks : kind s = some .dir)
    (hlook : lookupIn d s name = some e) (hplain : e.isDir = 0) :
    Keeps (fun x name' => x = s ∧ key name' = key name) d kind d' (Function.update kind e.sector.toInt none) := by
  have hke : kind e.sector.toInt = some .plain := by
    rw [hs.kind_of_lookupIn hks hlook, DirectoryEntry.kind, if_pos hplain]
  refine ⟨fun {x} hkx => ?_, fun hkx => hu.hdrs hkx, fun {x name' e'} hkx hl hgone => ?_⟩
  · rw [Function.update_of_ne]
    · exact hkx
    · rintro rfl
      rw [hke] at hkx
      cases hkx
  · by_cases hx : x = s
    · subst hx
      have hkey : key name' ≠ key name := by
        intro hkey
        have hsame : lookupIn d x name' = lookupIn d x name := by
          rw [lookupIn, lookupIn]
          congr 1
          funext e₁
          rw [Bool.eq_iff_iff, named_iff, named_iff, hkey]
        rw [hsame, hlook] at hl
        cases hl
        rcases hgone with hd | hg
        · exact hd hplain
        · exact hg ⟨rfl, hkey⟩
      rw [lookupIn, hu.table, find?_set_of_not]
      · exact hl
      · rw [Bool.eq_false_iff]
        exact fun hn => (named_iff.mp hn).1 rfl
      · intro b hb
        rw [hu.entry] at hb
        cases hb
        rw [Bool.eq_false_iff]
        exact fun hn => hkey ((named_iff.mp hn).2.symm.trans (Sound.lookupIn_spec hlook).2.2)
    · rw [lookupIn, hu.others hkx hx]
      exact hl

lemma Unlinked.plainBacked {d d' : Disk} {kind : ℤ → Option Kind} {s : ℤ} {i : ℕ} {e : DirectoryEntry}
    (hu : Unlinked d kind s i e d') (hb : PlainBacked d kind) :
    PlainBacked d' (Function.update kind e.sector.toInt none) := by
  intro x hkx
  by_cases hx : x = e.sector.toInt
  · rw [hx, Function.update_self] at hkx
    cases hkx
  · rw [Function.update_of_ne hx] at hkx
    rw [hu.hdrs hkx, hu.datas hkx hx]
    exact hb hkx

namespace Sound

variable {fs : FileSystem} {kind : ℤ → Option Kind} {wd n : ℤ} {path : CString} {k k' : Kernel}

lemma create_inv (hs : Sound fs k.disk kind) (hwd : kind wd = some .dir) {b : Bool}
    (he : exec (fs.create path n wd) k = .ok (b, k')) :
    Extends k.maps k'.maps ∧ ((b = false ∧ k'.disk = k.disk) ∨
      b = true ∧ ∃ (s : ℤ) (name : CString) (i : ℕ), resolve k.disk (components path) wd = some (s, name) ∧
        lookupIn k.disk s name = none ∧ (freeMapAt k.disk).free.head? = some i ∧
        (AtRest k.maps → k'.maps .openFileCount s = some (counted 0 (k.maps .openFileCount s))) ∧
        Installed k.disk kind s name i 0 .plain n k'.disk ∧
        (NextWhole k.disk s → Sound fs k'.disk (Function.update kind i (some .plain)))) := by
  have hrefused : ∀ {k₁ : Kernel}, exec (fs.create path n wd) k = .ok (false, k₁) → k₁.disk = k.disk →
      Extends k.maps k₁.maps → b = false ∧ k'.disk = k.disk ∧ Extends k.maps k'.maps := by
    intro k₁ h₁ hd hx
    rw [h₁] at he
    cases he
    exact ⟨rfl, hd, hx⟩
  cases hr : resolve k.disk (components path) wd with
  | none =>
    obtain ⟨k₁, h₁, hd, hx⟩ := hs.exec_create_none hwd rfl hr n
    obtain ⟨rfl, hd, hx⟩ := hrefused h₁ hd hx
    exact ⟨hx, Or.inl ⟨rfl, hd⟩⟩
  | some r =>
    obtain ⟨s, name⟩ := r
    cases hlook : lookupIn k.disk s name with
    | some e =>
      obtain ⟨k₁, h₁, hd, hx⟩ := hs.exec_create_present hwd rfl hr hlook n
      obtain ⟨rfl, hd, hx⟩ := hrefused h₁ hd hx
      exact ⟨hx, Or.inl ⟨rfl, hd⟩⟩
    | none =>
      by_cases hfew : (freeMapAt k.disk).free.length ≤ sectorsNeeded n
      · obtain ⟨k₁, h₁, hd, hx⟩ := hs.exec_create_refused hwd rfl hr hlook hfew
        obtain ⟨rfl, hd, hx⟩ := hrefused h₁ hd hx
        exact ⟨hx, Or.inl ⟨rfl, hd⟩⟩
      · by_cases hfit : sectorsNeeded n ≤ 928 ∧
          sectorsNeeded n + newBlocks 0 (sectorsNeeded n) < (freeMapAt k.disk).free.length
        · obtain ⟨i, k₁, hi, h₁, hx, hcount, hinst, hs'⟩ := hs.exec_create_succeeds hwd rfl hr hlook hfit.1 hfit.2
          rw [h₁] at he
          cases he
          exact ⟨hx, Or.inr ⟨rfl, s, name, i, rfl, hlook, hi, hcount, hinst, hs'⟩⟩
        · rw [hs.exec_create_aborts hwd rfl hr hlook (by omega) hfit] at he
          cases he

lemma makeDir_inv (hs : Sound fs k.disk kind) (hwd : kind wd = some .dir) (hn : int32 n = n) {b : Bool}
    (he : exec (fs.makeDir path n wd) k = .ok (b, k')) :
    Extends k.maps k'.maps ∧ ((b = false ∧ k'.disk = k.disk) ∨
      b = true ∧ ∃ (s : ℤ) (name : CString) (i : ℕ), resolve k.disk (components path) wd = some (s, name) ∧
        lookupIn k.disk s name = none ∧ (freeMapAt k.disk).free.head? = some i ∧
        Installed k.disk kind s name i 1 .dir n k'.disk ∧
        (∃ old old' new, LinksWritten k'.disk i s n old old' new) ∧
        Grounded fs k'.disk (Function.update kind i (some .dir)) ∧
        ((Cuts n → 40 ≤ n) → NextWhole k.disk s → Sound fs k'.disk (Function.update kind i (some .dir)))) := by
  have hrefused : ∀ {k₁ : Kernel}, exec (fs.makeDir path n wd) k = .ok (false, k₁) → k₁.disk = k.disk →
      Extends k.maps k₁.maps → b = false ∧ k'.disk = k.disk ∧ Extends k.maps k'.maps := by
    intro k₁ h₁ hd hx
    rw [h₁] at he
    cases he
    exact ⟨rfl, hd, hx⟩
  cases hr : resolve k.disk (components path) wd with
  | none =>
    obtain ⟨k₁, h₁, hd, hx⟩ := hs.exec_makeDir_none hwd rfl hr n
    obtain ⟨rfl, hd, hx⟩ := hrefused h₁ hd hx
    exact ⟨hx, Or.inl ⟨rfl, hd⟩⟩
  | some r =>
    obtain ⟨s, name⟩ := r
    cases hlook : lookupIn k.disk s name with
    | some e =>
      obtain ⟨k₁, h₁, hd, hx⟩ := hs.exec_makeDir_present hwd rfl hr hlook n
      obtain ⟨rfl, hd, hx⟩ := hrefused h₁ hd hx
      exact ⟨hx, Or.inl ⟨rfl, hd⟩⟩
    | none =>
      by_cases hfew : (freeMapAt k.disk).free.length ≤ sectorsNeeded n
      · obtain ⟨k₁, h₁, hd, hx⟩ := hs.exec_makeDir_refused hwd rfl hr hlook hfew
        obtain ⟨rfl, hd, hx⟩ := hrefused h₁ hd hx
        exact ⟨hx, Or.inl ⟨rfl, hd⟩⟩
      · by_cases hfit : sectorsNeeded n ≤ 928 ∧
          sectorsNeeded n + newBlocks 0 (sectorsNeeded n) < (freeMapAt k.disk).free.length
        · obtain ⟨i, k₁, old, old', new, hi, h₁, hx, hinst, hlinks, hg, hs'⟩ :=
            hs.exec_makeDir_succeeds hwd rfl hr hlook hn hfit.1 hfit.2
          rw [h₁] at he
          cases he
          exact ⟨hx, Or.inr ⟨rfl, s, name, i, rfl, hlook, hi, hinst, ⟨old, old', new, hlinks⟩, hg, hs'⟩⟩
        · rw [hs.exec_makeDir_aborts hwd rfl hr hlook (by omega) hfit] at he
          cases he

lemma remove_inv (hs : Sound fs k.disk kind) (hwd : kind wd = some .dir) (hrest : AtRest k.maps) {b : Bool}
    (he : exec (fs.remove path wd) k = .ok (b, k')) :
    Extends k.maps k'.maps ∧ ((b = false ∧ k'.disk = k.disk) ∨
      b = true ∧ ∃ (s : ℤ) (name : CString) (e : DirectoryEntry) (i : ℕ),
        resolve k.disk (components path) wd = some (s, name) ∧ HeldOpen k.maps s = false ∧
        lookupIn k.disk s name = some e ∧ e.isDir = 0 ∧
        (hdrAt k.disk e.sector.toInt).numSectors ≤ (NumDirect : ℤ) ∧ Unlinked k.disk kind s i e k'.disk ∧
        Sound fs k'.disk (Function.update kind e.sector.toInt none)) := by
  have hrefused : ∀ {k₁ : Kernel}, exec (fs.remove path wd) k = .ok (false, k₁) → k₁.disk = k.disk →
      Extends k.maps k₁.maps → b = false ∧ k'.disk = k.disk ∧ Extends k.maps k'.maps := by
    intro k₁ h₁ hd hx
    rw [h₁] at he
    cases he
    exact ⟨rfl, hd, hx⟩
  cases hr : resolve k.disk (components path) wd with
  | none =>
    obtain ⟨k₁, h₁, hd, hx⟩ := hs.exec_remove_none hwd rfl hr
    obtain ⟨rfl, hd, hx⟩ := hrefused h₁ hd hx
    exact ⟨hx, Or.inl ⟨rfl, hd⟩⟩
  | some r =>
    obtain ⟨s, name⟩ := r
    cases hh : HeldOpen k.maps s with
    | true =>
      obtain ⟨k₁, h₁, hd, hx⟩ := hs.exec_remove_held hwd rfl hrest hr hh
      obtain ⟨rfl, hd, hx⟩ := hrefused h₁ hd hx
      exact ⟨hx, Or.inl ⟨rfl, hd⟩⟩
    | false =>
      by_cases ho : ∀ e, lookupIn k.disk s name = some e → e.isDir ≠ 0
      · obtain ⟨k₁, h₁, hd, hx⟩ := hs.exec_remove_other hwd rfl hrest hr hh ho
        obtain ⟨rfl, hd, hx⟩ := hrefused h₁ hd hx
        exact ⟨hx, Or.inl ⟨rfl, hd⟩⟩
      · push Not at ho
        obtain ⟨e, hlook, hplain⟩ := ho
        rcases lt_or_ge (NumDirect : ℤ) (hdrAt k.disk e.sector.toInt).numSectors with hmany | hfew
        · exact absurd he (hs.exec_remove_outside hwd rfl hrest hr hh hlook hplain hmany _)
        · obtain ⟨i, k₁, h₁, hx, hu, hs'⟩ := hs.exec_remove_succeeds hwd rfl hrest hr hh hlook hplain hfew
          rw [h₁] at he
          cases he
          exact ⟨hx, Or.inr ⟨rfl, s, name, e, i, rfl, hh, hlook, hplain, hfew, hu, hs'⟩⟩

lemma open_inv (hs : Sound fs k.disk kind) (hwd : kind wd = some .dir) {r : Option OpenFile}
    (he : exec (FileSystem.openFile path wd) k = .ok (r, k')) :
    k'.disk = k.disk ∧ Extends k.maps k'.maps ∧ ∀ f, r = some f → ∃ (s : ℤ) (name : CString) (e : DirectoryEntry),
      resolve k.disk (components path) wd = some (s, name) ∧ lookupIn k.disk s name = some e ∧
      f = ⟨hdrAt k.disk e.sector.toInt, 0, e.sector.toInt⟩ ∧ ∀ m, k'.maps m e.sector.toInt ≠ none := by
  have hnull : ∀ {k₁ : Kernel}, exec (FileSystem.openFile path wd) k = .ok (none, k₁) → k₁.disk = k.disk →
      Extends k.maps k₁.maps → r = none ∧ k'.disk = k.disk ∧ Extends k.maps k'.maps := by
    intro k₁ h₁ hd hx
    rw [h₁] at he
    cases he
    exact ⟨rfl, hd, hx⟩
  cases hr : resolve k.disk (components path) wd with
  | none =>
    obtain ⟨k₁, h₁, hd, hx⟩ := hs.exec_open_none hwd rfl hr
    obtain ⟨rfl, hd, hx⟩ := hnull h₁ hd hx
    exact ⟨hd, hx, fun f hf => by cases hf⟩
  | some q =>
    obtain ⟨s, name⟩ := q
    by_cases hp : Printable k.disk s
    · cases hlook : lookupIn k.disk s name with
      | none =>
        obtain ⟨k₁, h₁, hd, hx⟩ := hs.exec_open_absent hwd rfl hr hp hlook
        obtain ⟨rfl, hd, hx⟩ := hnull h₁ hd hx
        exact ⟨hd, hx, fun f hf => by cases hf⟩
      | some e =>
        obtain ⟨k₁, h₁, hd, hx, hm, -⟩ := hs.exec_open_found hwd rfl hr hp hlook
        rw [h₁] at he
        cases he
        exact ⟨hd, hx, fun f hf => ⟨s, name, e, rfl, hlook, (Option.some.inj hf).symm, hm⟩⟩
    · rw [hs.exec_open_outside hwd rfl hr hp] at he
      cases he

lemma listLoop_inv {d : Disk} {enter : ℤ → Nachos Unit}
    (henter : ∀ {x : ℤ} {k k' : Kernel}, kind x = some .dir → k.disk = d → exec (enter x) k = .ok ((), k') →
      k'.disk = d ∧ Extends k.maps k'.maps) (es : List DirectoryEntry) : ∀ {k k' : Kernel},
    (∀ e ∈ es, e.inUse ≠ 0 → e.isDir ≠ 0 → kind e.sector.toInt = some .dir) → k.disk = d →
    exec (Directory.listLoop enter es) k = .ok ((), k') → k'.disk = d ∧ Extends k.maps k'.maps := by
  induction es with
  | nil =>
    intro k k' _ hd he
    cases he
    exact ⟨hd, .refl _⟩
  | cons e es ih =>
    intro k k' hes hd he
    obtain ⟨u, k₁, h₁, he⟩ := exec_bind_ok.mp he
    have hfirst : k₁.disk = d ∧ Extends k.maps k₁.maps := by
      rw [onlyIf] at h₁
      split at h₁
      · rename_i hc
        simp only [Bool.and_eq_true, decide_eq_true_eq] at hc
        exact henter (hes e List.mem_cons_self hc.1.1.1 hc.1.1.2) hd h₁
      · cases h₁
        exact ⟨hd, .refl _⟩
    obtain ⟨hd', hx'⟩ := ih (fun e he => hes e (List.mem_cons_of_mem _ he)) hfirst.1 he
    exact ⟨hd', hfirst.2.trans hx'⟩

lemma entries_of_loaded {d : Disk} {s : ℤ} {dir : Directory} (hs : Sound fs d kind) (hk : kind s = some .dir)
    (hl : Loaded (tableAt d s) dir) :
    ∀ e ∈ dir.table, e.inUse ≠ 0 → e.isDir ≠ 0 → kind e.sector.toInt = some .dir := by
  intro e he hu hdir
  obtain ⟨junk, ht, hj⟩ := hl.eq
  rw [ht] at he
  obtain he | he := List.mem_append.mp he
  · rw [hs.names.points hk he hu, DirectoryEntry.kind, if_neg hdir]
  · exact absurd (hj e he) hu

lemma listAt_inv {d : Disk} {s : ℤ} (hs : Sound fs d kind) {inner : Directory → Nachos Unit}
    (hinner : ∀ {dir : Directory} {k k' : Kernel}, (∀ e ∈ dir.table, e.inUse ≠ 0 → e.isDir ≠ 0 →
      kind e.sector.toInt = some .dir) → k.disk = d → exec (inner dir) k = .ok ((), k') →
      k'.disk = d ∧ Extends k.maps k'.maps) (hk : kind s = some .dir) (hd : k.disk = d)
    (he : exec (do
      let dir ← Directory.new NumDirEntries
      let dirFile ← OpenFile.new s
      let dir ← dir.fetchFrom dirFile
      inner dir
      dirFile.close) k = .ok ((), k')) : k'.disk = d ∧ Extends k.maps k'.maps := by
  obtain ⟨dir, k₁, h₁, hd₁, hm₁, hlen, hnew⟩ := Directory.exec_new k
  obtain ⟨k₂, h₂, hd₂, hx₂, -⟩ := hs.exec_openDirectory hk (hd₁.trans hd)
  obtain ⟨dir', h₃, hl⟩ := hs.exec_loadDirectory hk hd₂ hlen hnew 0
  rw [exec_bind_of_ok h₁, exec_bind_of_ok h₂, exec_bind_of_ok h₃] at he
  obtain ⟨u, k₄, h₄, he⟩ := exec_bind_ok.mp he
  obtain ⟨hd₄, hx₄⟩ := hinner (hs.entries_of_loaded hk hl) hd₂ h₄
  obtain ⟨k₅, h₅, hd₅, hx₅, -⟩ := OpenFile.exec_close ⟨hdrAt d s, 0, s⟩ (hs.dir_ne_map hk) k₄
  rw [h₅] at he
  cases he
  exact ⟨hd₅.trans hd₄, hm₁ ▸ hx₂.trans (hx₄.trans hx₅)⟩

lemma directory_list_inv {d : Disk} (hs : Sound fs d kind) (depth : ℕ) : ∀ {dir : Directory} {k k' : Kernel},
    (∀ e ∈ dir.table, e.inUse ≠ 0 → e.isDir ≠ 0 → kind e.sector.toInt = some .dir) → k.disk = d →
    exec (dir.list depth) k = .ok ((), k') → k'.disk = d ∧ Extends k.maps k'.maps := by
  induction depth with
  | zero =>
    intro dir k k' hes hd he
    rw [Directory.list] at he
    exact listLoop_inv (fun _ _ h => by cases h) dir.table hes hd he
  | succ depth ih =>
    intro dir k k' hes hd he
    rw [Directory.list] at he
    exact listLoop_inv (fun hk hd h => hs.listAt_inv ih hk hd h) dir.table hes hd he

lemma list_inv (hs : Sound fs k.disk kind) {s : ℤ} (hk : kind s = some .dir) {depth : ℕ}
    (he : exec (FileSystem.list depth s) k = .ok ((), k')) : k'.disk = k.disk ∧ Extends k.maps k'.maps :=
  hs.listAt_inv (hs.directory_list_inv depth) hk rfl he

end Sound

end NachosFileSys
