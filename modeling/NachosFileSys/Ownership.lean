import NachosFileSys.Room

namespace NachosFileSys

open Lib.Programs Lib.Bytes Lib.Runs

/-- A directory that is reached from the root through entries other than `.` and `..`. -/
inductive ReachableDir (d : Disk) : ℤ → Prop
  | root : ReachableDir d DirectorySector
  | entry {s : ℤ} {e : DirectoryEntry} : ReachableDir d s → e ∈ tableAt d s →
      e.inUse ≠ 0 → e.isDir ≠ 0 → ¬e.Dotted →
      ReachableDir d e.sector.toInt

inductive Owner
  | freeMap
  | root
  | entry (dir : ℤ) (index : ℕ)

/-- The owners on a disk, with their header sectors: the two files that have no entry, and every entry
in use of a reachable directory that is not the link of a directory to itself or to its parent. -/
inductive Owns (d : Disk) : Owner → ℤ → Prop
  | freeMap : Owns d .freeMap FreeMapSector
  | root : Owns d .root DirectorySector
  | entry {s : ℤ} {i : ℕ} {e : DirectoryEntry} : ReachableDir d s → (tableAt d s)[i]? = some e → e.Owning →
      Owns d (.entry s i) e.sector.toInt

lemma Owns.sector_unique {d : Disk} {o : Owner} {s s' : ℤ} (h : Owns d o s) (h' : Owns d o s') : s = s' := by
  cases h with
  | freeMap =>
    cases h'
    rfl
  | root =>
    cases h'
    rfl
  | entry _ he _ =>
    cases h' with
    | entry _ he' _ =>
      rw [he] at he'
      cases he'
      rfl

lemma Owns.of_lookup {d : Disk} {name : CString} {e : DirectoryEntry}
    (hlook : lookupIn d DirectorySector name = some e)
    (hown : e.isDir = 0 ∨ key name ≠ [0x2e] ∧ key name ≠ [0x2e, 0x2e]) :
    ∃ j, (tableAt d DirectorySector)[j]? = some e ∧ Owns d (.entry DirectorySector j) e.sector.toInt := by
  obtain ⟨hmem, huse, hkey⟩ := Sound.lookupIn_spec hlook
  obtain ⟨j, hj⟩ := List.mem_iff_getElem?.mp hmem
  refine ⟨j, hj, .entry .root hj ⟨huse, hown.imp_right fun h => ?_⟩⟩
  rw [DirectoryEntry.Dotted, hkey]
  exact not_or.mpr h

namespace Sound

variable {fs : FileSystem} {d d' : Disk} {kind : ℤ → Option Kind}

lemma kind_of_reachableDir (hs : Sound fs d kind) {s : ℤ} (h : ReachableDir d s) : kind s = some .dir := by
  induction h with
  | root => exact hs.names.root
  | entry _ he hu hd _ ih => rw [hs.names.points ih he hu, DirectoryEntry.kind, if_neg hd]

lemma kind_of_owns (hs : Sound fs d kind) {o : Owner} {s : ℤ} (h : Owns d o s) : ∃ c, kind s = some c := by
  cases h with
  | freeMap => exact ⟨_, hs.storage.map⟩
  | root => exact ⟨_, hs.names.root⟩
  | entry hr he ho => exact ⟨_, hs.names.points (hs.kind_of_reachableDir hr) (List.mem_of_getElem? he) ho.1⟩

lemma reachableDir_congr (hs : Sound fs d kind) (htab : ∀ {x}, kind x = some .dir → tableAt d' x = tableAt d x)
    {s : ℤ} :
    ReachableDir d' s ↔ ReachableDir d s := by
  constructor
  · intro h
    induction h with
    | root => exact .root
    | entry _ he hu hd hdot ih =>
      rw [htab (hs.kind_of_reachableDir ih)] at he
      exact .entry ih he hu hd hdot
  · intro h
    induction h with
    | root => exact .root
    | entry hr he hu hd hdot ih =>
      rw [← htab (hs.kind_of_reachableDir hr)] at he
      exact .entry ih he hu hd hdot

lemma owns_congr (hs : Sound fs d kind) (htab : ∀ {x}, kind x = some .dir → tableAt d' x = tableAt d x)
    {o : Owner} {s : ℤ} :
    Owns d' o s ↔ Owns d o s := by
  constructor
  · intro h
    cases h with
    | freeMap => exact .freeMap
    | root => exact .root
    | entry hr he ho =>
      have hr := (hs.reachableDir_congr htab).mp hr
      rw [htab (hs.kind_of_reachableDir hr)] at he
      exact .entry hr he ho
  · intro h
    cases h with
    | freeMap => exact .freeMap
    | root => exact .root
    | entry hr he ho =>
      rw [← htab (hs.kind_of_reachableDir hr)] at he
      exact .entry ((hs.reachableDir_congr htab).mpr hr) he ho

lemma owns_injective (hs : Sound fs d kind) {o o' : Owner} {s : ℤ} (h : Owns d o s) (h' : Owns d o' s) :
    o = o' := by
  have hroot : FreeMapSector ≠ DirectorySector := by decide
  -- no entry stands for the free map or for the root
  have hentry : ∀ {x : ℤ} {i : ℕ} {e : DirectoryEntry}, ReachableDir d x → (tableAt d x)[i]? = some e → e.Owning →
      e.sector.toInt ≠ FreeMapSector ∧ e.sector.toInt ≠ DirectorySector := by
    intro x i e hr he ho
    have hkx := hs.kind_of_reachableDir hr
    have hke := hs.names.points hkx (List.mem_of_getElem? he) ho.1
    refine ⟨fun h0 => ?_, hs.names.notRoot hkx (List.mem_of_getElem? he) ho⟩
    rw [h0, hs.storage.map, DirectoryEntry.kind] at hke
    split at hke <;> cases hke
  generalize hx : s = x at h'
  cases h with
  | freeMap =>
    cases h' with
    | freeMap => rfl
    | root => exact absurd hx hroot
    | entry hr he ho => exact absurd hx.symm (hentry hr he ho).1
  | root =>
    cases h' with
    | freeMap => exact absurd hx.symm hroot
    | root => rfl
    | entry hr he ho => exact absurd hx.symm (hentry hr he ho).2
  | entry hr he ho =>
    cases h' with
    | freeMap => exact absurd hx (hentry hr he ho).1
    | root => exact absurd hx (hentry hr he ho).2
    | entry hr' he' ho' =>
      obtain ⟨rfl, rfl⟩ :=
        hs.names.unique (hs.kind_of_reachableDir hr) (hs.kind_of_reachableDir hr') he he' ho ho' hx
      rfl

end Sound

/-- In every state that a run of regular operations reaches, no sector is owned twice, and every owned
sector is a sector of the disk that is marked in the free map on disk. -/
theorem sector_ownership (sys : System) (h : System.Reachable System.Regular sys) :
    (∀ o s, Owns sys.kernel.disk o s → (owned sys.kernel.disk s).Nodup ∧
      ∀ x ∈ owned sys.kernel.disk s, InDisk x ∧ (freeMapAt sys.kernel.disk).test x = .ok true) ∧
    ∀ o o' s s', Owns sys.kernel.disk o s → Owns sys.kernel.disk o' s' → o ≠ o' →
      ∀ x ∈ owned sys.kernel.disk s, x ∉ owned sys.kernel.disk s' := by
  obtain ⟨kind, hst⟩ := h.stable
  have hs := hst.sound
  refine ⟨fun o s ho => ?_, fun o o' s s' ho ho' hne => ?_⟩
  · obtain ⟨c, hk⟩ := hs.kind_of_owns ho
    exact ⟨hs.storage.nodup hk, fun x hx =>
      ⟨(hs.storage.marked hk x hx).1, marked_test (hs.storage.marked hk x hx)⟩⟩
  · obtain ⟨c, hk⟩ := hs.kind_of_owns ho
    obtain ⟨c', hk'⟩ := hs.kind_of_owns ho'
    refine hs.storage.apart hk hk' ?_
    rintro rfl
    exact hne (hs.owns_injective ho ho')

/-- A run with all the operations that change sectors: a file is removed, another one is written, and there is a
directory beside it. -/
theorem sector_ownership_written : ∃ (sys : System) (e e' : DirectoryEntry), System.Reachable System.Regular sys ∧
    lookupIn sys.kernel.disk DirectorySector pathF = some e ∧
    lookupIn sys.kernel.disk DirectorySector bin = some e' ∧
    (owned sys.kernel.disk e.sector.toInt).Nodup ∧
    ∀ x ∈ owned sys.kernel.disk e.sector.toInt, x ∉ owned sys.kernel.disk e'.sector.toInt := by
  obtain ⟨sys, hb, h₀, -, hnone⟩ := System.boot_atRoot Kernel.blank
  -- a file of 300 bytes is created and, after a restart, removed
  obtain ⟨i₁, k₁, he₁, -, hinst₁, h₁, e₁, hlook₁, -, hplain₁⟩ :=
    h₀.create 0 1000 rfl (hnone pathG) (n := 300) (by decide) (by decide) (by decide) (by decide)
  obtain ⟨sys₂, he₂, hd₂, h₂, hheld⟩ := h₁.restart
  obtain ⟨i₃, k₃, he₃, hu, h₃⟩ := h₂.remove 0 rfl (hheld _) (by rw [hd₂]; exact hlook₁) hplain₁
  have hnone₃ : ∀ name, key pathG ≠ key name → lookupIn k₃.disk DirectorySector name = none := fun name hne =>
    hu.lookupIn_none (by rw [hd₂]; exact hinst₁.lookupIn_other (hnone name) hne)
  -- an empty file, and a directory
  obtain ⟨i₄, k₄, he₄, -, hinst₄, h₄, e₄, hlook₄, hsec₄, hplain₄⟩ :=
    h₃.create 0 900 rfl (hnone₃ pathF (by decide)) (n := 0) (by decide) (by decide) (by decide) (by decide)
  have hnone₄ := hinst₄.lookupIn_other (hnone₃ bin (by decide)) (by decide)
  obtain ⟨i₅, k₅, he₅, hinst₅, h₅, hfresh, e₅, hlook₅, -, hdir⟩ :=
    h₄.makeDir 0 800 rfl hnone₄ (n := 200) (by decide)
    (.inr (.inl (by decide))) (by decide) (by decide) (by decide)
  have hlookF : lookupIn k₅.disk DirectorySector pathF = some e₄ :=
    (hinst₅.keeps (fun _ _ => False) hfresh hnone₄).lookups h₄.sound.names.root hlook₄ (.inr id)
  -- the file is written
  have hk₄ := h₄.sound.kind_of_lookupIn h₄.sound.names.root hlook₄
  have hlen : (hdrAt k₅.disk e₄.sector.toInt).numBytes = 0 := by
    rw [hinst₅.hdrs hk₄, hsec₄]
    exact hinst₄.numBytes (by decide)
  have hdata : (dataAt k₅.disk e₄.sector.toInt).length = 0 := by
    rw [hinst₅.datas hk₄, hsec₄]
    exact hinst₄.data.trans sectorsNeeded_zero
  have hfits : Fits 0 (300 : ℕ) (freeMapAt k₅.disk).free.length := by
    have hfree := h₅.free
    have hneed : sectorsNeeded (300 : ℕ) = 3 := by decide
    have hnew : newBlocks 0 3 = 1 := rfl
    rw [Fits, hneed, hnew]
    dsimp only at hfree
    omega
  obtain ⟨k₆, he₆, hsame⟩ := h₅.session 0 rfl hlookF hplain₄ (List.replicate 300 0x61#8) hlen.ge
    (by rw [List.length_replicate]; decide) (by dsimp only; rwa [hdata, List.length_replicate])
  have hlook : ∀ name, lookupIn k₆.disk DirectorySector name = lookupIn k₅.disk DirectorySector name :=
    fun name => by
    rw [lookupIn, lookupIn, hsame.table h₅.sound.names.root]
  have hplain : System.OnPlainFile { sys₂ with kernel := k₅ } 0 pathF := fun s name e hr hl => by
    cases (h₅.resolve 0 rfl).symm.trans hr
    cases hlookF.symm.trans hl
    exact hplain₄
  have hstart : System.Reachable System.Regular sys := ⟨Kernel.blank, sys, hb, .refl⟩
  have hremoved :=
    ((hstart.step (.create 0 pathG 300) (show int32 300 = 300 by decide) (System.step_create he₁)).step .restart
    trivial he₂).step (.remove 0 pathG) trivial (System.step_remove he₃)
  have hmade := (hremoved.step (.create 0 pathF 0) (show int32 0 = 0 by decide) (System.step_create he₄)).step
    (.makeDir 0 bin 200)
    ⟨by decide, .inr (.inl (by decide))⟩ (System.step_makeDir he₅)
  have hreach := hmade.step (.session 0 pathF _) hplain (System.step_session he₆)
  obtain ⟨j, hj, howns⟩ := Owns.of_lookup ((hlook pathF).trans hlookF) (.inl hplain₄)
  obtain ⟨j', hj', howns'⟩ := Owns.of_lookup ((hlook bin).trans hlook₅) (.inr (by decide))
  have hown := sector_ownership { sys₂ with kernel := k₆ } hreach
  refine ⟨{ sys₂ with kernel := k₆ }, e₄, e₅, hreach, (hlook _).trans hlookF,
    (hlook _).trans hlook₅, (hown.1 _ _ howns).1,
    hown.2 _ _ _ _ howns howns' ?_⟩
  rintro heq
  cases heq
  cases hj.symm.trans hj'
  rw [hplain₄] at hdir
  cases hdir

end NachosFileSys
