import NachosFileSys.Room

namespace NachosFileSys

open Lib.Programs Lib.Bytes

variable {α : Type}

structure FailsClean (p : Nachos Bool) : Prop where
  keeps : ∀ {k k'}, exec p k = .ok (false, k') → k'.disk = k.disk

structure Succeeds (p : Nachos Bool) : Prop where
  ne : ∀ {k k'}, exec p k ≠ .ok (false, k')

lemma KeepsDisk.failsClean {p : Nachos Bool} (hp : KeepsDisk p) : FailsClean p := ⟨hp.exec_eq⟩

lemma Succeeds.failsClean {p : Nachos Bool} (hp : Succeeds p) : FailsClean p := ⟨fun he => absurd he hp.ne⟩

lemma succeeds_true : Succeeds (pure true) := ⟨fun he => nomatch he⟩

lemma Succeeds.bind (p : Nachos α) {f : α → Nachos Bool} (hf : ∀ a, Succeeds (f a)) : Succeeds (p >>= f) := by
  refine ⟨fun he => ?_⟩
  obtain ⟨a, k₁, -, he⟩ := exec_bind_ok.mp he
  exact (hf a).ne he

lemma FailsClean.bind {p : Nachos α} (hp : KeepsDisk p) {f : α → Nachos Bool} (hf : ∀ a, FailsClean (f a)) :
    FailsClean (p >>= f) := by
  refine ⟨fun he => ?_⟩
  obtain ⟨a, k₁, h₁, he⟩ := exec_bind_ok.mp he
  exact ((hf a).keeps he).trans (hp.exec_eq h₁)

lemma FailsClean.ite {c : Prop} [Decidable c] {p q : Nachos Bool} (hp : FailsClean p) (hq : FailsClean q) :
    FailsClean (if c then p else q) := by
  split
  · exact hp
  · exact hq

lemma FileHeader.allocate_false {h h' : FileHeader} {m m' : FreeMap} {fileSize : ℤ} {k k' : Kernel}
    (he : exec (h.allocate m fileSize) k = .ok ((false, h', m'), k')) : k'.disk = k.disk := by
  by_cases hfew : m.free.length < sectorsNeeded fileSize
  · rw [allocate_refuse h m fileSize k hfew] at he
    cases he
    rfl
  · rw [exec_allocate h m fileSize k (by omega)] at he
    obtain ⟨⟨a, ds, m₁⟩, k₁, -, he⟩ := exec_bind_ok.mp he
    obtain ⟨_, k₂, -, he⟩ := exec_bind_ok.mp he
    cases he

lemma FailsClean.allocate (h : FileHeader) (m : FreeMap) (fileSize : ℤ)
    {f : Bool × FileHeader × FreeMap → Nachos Bool}
    (hr : ∀ h' m', FailsClean (f (false, h', m'))) (hd : ∀ h' m', Succeeds (f (true, h', m'))) :
    FailsClean (h.allocate m fileSize >>= f) := by
  refine ⟨fun he => ?_⟩
  obtain ⟨⟨success, h', m'⟩, k₁, ha, he⟩ := exec_bind_ok.mp he
  cases success with
  | false => exact ((hr h' m').keeps he).trans (FileHeader.allocate_false ha)
  | true => exact absurd he (hd h' m').ne

namespace FileSystem

lemma failsClean_create (fs : FileSystem) (path : CString) (initialSize wdSector : ℤ) :
    FailsClean (fs.create path initialSize wdSector) := by
  refine .bind (keepsDisk_parsePath path wdSector) fun ⟨wd, name⟩ => .ite (keepsDisk_pure false).failsClean ?_
  refine .bind (Directory.keepsDisk_new _) fun d => .bind (OpenFile.keepsDisk_new wd) fun file =>
    .bind (d.reads_fetchFrom file).keepsDisk fun d' => .ite (keepsDisk_pure false).failsClean ?_
  refine .bind fs.reads_fetchFreeMap.keepsDisk fun m => ?_
  refine .bind (reads_lift m.findAndSet).keepsDisk fun ⟨s, m'⟩ => .ite (keepsDisk_pure false).failsClean ?_
  refine .bind (d'.keepsDisk_add name s) fun ⟨added, d''⟩ => .ite (keepsDisk_pure false).failsClean ?_
  refine .bind FileHeader.keepsDisk_new fun hdr =>
    .allocate hdr m' initialSize (fun _ _ => (keepsDisk_pure false).failsClean) fun h' m'' => ?_
  exact .bind _ fun _ => .bind _ fun _ => .bind _ fun _ => succeeds_true

lemma failsClean_makeDir (fs : FileSystem) (path : CString) (initialSize wdSector : ℤ) :
    FailsClean (fs.makeDir path initialSize wdSector) := by
  have hclose : ∀ file : OpenFile, FailsClean (do
      file.close
      pure false) := fun file =>
    .bind file.keepsDisk_close fun _ => (keepsDisk_pure false).failsClean
  refine .bind (keepsDisk_parsePath path wdSector) fun ⟨wd, name⟩ => .ite (keepsDisk_pure false).failsClean ?_
  refine .bind (Directory.keepsDisk_new _) fun d => .bind (OpenFile.keepsDisk_new wd) fun file =>
    .bind (d.reads_fetchFrom file).keepsDisk fun d' => .ite (hclose file) ?_
  refine .bind fs.reads_fetchFreeMap.keepsDisk fun m => ?_
  refine .bind (reads_lift m.findAndSet).keepsDisk fun ⟨s, m'⟩ => .ite (hclose file) ?_
  refine .bind (d'.keepsDisk_addDirectory name s) fun ⟨added, d''⟩ => .ite (hclose file) ?_
  refine .bind (reads_assert _).keepsDisk fun _ => .bind FileHeader.keepsDisk_new fun hdr =>
    .allocate hdr m' initialSize (fun _ _ => hclose file) fun h' m'' => ?_
  refine .bind _ fun _ => .bind _ fun _ => .bind _ fun _ => .bind _ fun _ => .bind _ fun _ => .bind _ fun _ => ?_
  refine .bind _ fun _ => .bind _ fun _ => .bind _ fun _ => .bind _ fun _ => .bind _ fun _ => ?_
  exact .bind _ fun _ => succeeds_true

lemma failsClean_remove (fs : FileSystem) (path : CString) (wdSector : ℤ) :
    FailsClean (fs.remove path wdSector) := by
  have hclose : ∀ file : OpenFile, FailsClean (do
      file.close
      pure false) := fun file =>
    .bind file.keepsDisk_close fun _ => (keepsDisk_pure false).failsClean
  refine .bind (keepsDisk_parsePath path wdSector) fun ⟨wd, name⟩ => .ite (keepsDisk_pure false).failsClean ?_
  refine .bind (reads_find _ wd).keepsDisk fun count => .ite (keepsDisk_pure false).failsClean ?_
  refine .bind (OpenFile.keepsDisk_new wd) fun file => .bind (keepsDisk_fetchDirectory file) fun d => ?_
  refine .ite (hclose file) (.ite (hclose file) (Succeeds.failsClean ?_))
  refine .bind _ fun _ => .bind _ fun _ => .bind _ fun _ => .bind _ fun _ => .bind _ fun _ => .bind _ fun _ => ?_
  exact .bind _ fun _ => succeeds_true

/-- A name operation that returns `FALSE` leaves every sector as it was. -/
theorem failed_operation_keeps_disk (fs : FileSystem) (path : CString) (initialSize wdSector : ℤ) (k k' : Kernel)
    (h : exec (fs.create path initialSize wdSector) k = .ok (false, k') ∨
      exec (fs.makeDir path initialSize wdSector) k = .ok (false, k') ∨
      exec (fs.remove path wdSector) k = .ok (false, k')) : k'.disk = k.disk := by
  rcases h with h | h | h
  · exact (failsClean_create fs path initialSize wdSector).keeps h
  · exact (failsClean_makeDir fs path initialSize wdSector).keeps h
  · exact (failsClean_remove fs path wdSector).keeps h

/-- A new disk with the file `f` and the directory `bin`, after a restart. Both names are there
already, the disk is too full for 1024 data sectors, and a directory cannot be removed. -/
theorem failed_operations_keep_disk_made : ∃ sys, System.Reachable System.Regular sys ∧
    (∃ k, exec (sys.fs.create pathF 5000 (sys.wd 0)) sys.kernel = .ok (false, k) ∧ k.disk = sys.kernel.disk) ∧
    (∃ k, exec (sys.fs.create pathG 131072 (sys.wd 0)) sys.kernel = .ok (false, k) ∧ k.disk = sys.kernel.disk) ∧
    (∃ k, exec (sys.fs.makeDir pathG 131072 (sys.wd 0)) sys.kernel = .ok (false, k) ∧ k.disk = sys.kernel.disk) ∧
    ∃ k, exec (sys.fs.remove bin (sys.wd 0)) sys.kernel = .ok (false, k) ∧ k.disk = sys.kernel.disk := by
  obtain ⟨sys, hb, h₀, -, hnone⟩ := System.boot_atRoot Kernel.blank
  obtain ⟨i, k₁, he₁, -, hinst₁, h₁, e₁, hlook₁, -⟩ :=
    h₀.create 0 990 rfl (hnone pathF) (n := 3000) (by decide) (by decide) (by decide) (by decide)
  obtain ⟨i', k₂, he₂, hinst₂, h₂, hfresh, e₂, hlook₂, -, hdir⟩ := h₁.makeDir 0 980 rfl
    (hinst₁.lookupIn_other (hnone bin) (by decide)) (n := 200)
    (by decide) (.inr (by decide)) (by decide) (by decide) (by decide)
  obtain ⟨sys₃, h₃, hd, hat, hheld⟩ := h₂.restart
  have hlookF : lookupIn sys₃.kernel.disk DirectorySector pathF = some e₁ := by
    rw [hd]
    exact (hinst₂.keeps (fun _ _ => False) hfresh (hinst₁.lookupIn_other (hnone bin) (by decide))).lookups
      h₁.sound.names.root hlook₁ (.inr id)
  have hnoneG : lookupIn sys₃.kernel.disk DirectorySector pathG = none := by
    rw [hd]
    exact hinst₂.lookupIn_other (hinst₁.lookupIn_other (hnone pathG) (by decide)) (by decide)
  have hlookB : lookupIn sys₃.kernel.disk DirectorySector bin = some e₂ := by rw [hd, hlook₂]
  have hfew : (freeMapAt sys₃.kernel.disk).free.length ≤ sectorsNeeded 131072 := by
    have hneed : sectorsNeeded 131072 = 1024 := by decide
    rw [hneed]
    exact Bitmap.free_length_le _
  obtain ⟨k₄, he₄, -⟩ := hat.sound.exec_create_present (hat.wd 0) rfl (hat.resolve 0 rfl) hlookF 5000
  obtain ⟨k₅, he₅, -⟩ := hat.sound.exec_create_refused (hat.wd 0) rfl (hat.resolve 0 rfl) hnoneG hfew
  obtain ⟨k₆, he₆, -⟩ := hat.sound.exec_makeDir_refused (hat.wd 0) rfl (hat.resolve 0 rfl) hnoneG hfew
  obtain ⟨k₇, he₇, -⟩ :=
    hat.sound.exec_remove_other (hat.wd 0) rfl hat.rest (hat.resolve 0 rfl) (hheld _) fun e hl => by
    cases hlookB.symm.trans hl
    rw [hdir]
    decide
  refine ⟨sys₃, ⟨Kernel.blank, sys, hb, ?_⟩, ⟨k₄, he₄, ?_⟩, ⟨k₅, he₅, ?_⟩, ⟨k₆, he₆, ?_⟩, ⟨k₇, he₇, ?_⟩⟩
  · exact .step .restart
      (.step (.makeDir 0 bin 200) (.step (.create 0 pathF 3000) .refl (show int32 3000 = 3000 by decide)
      (System.step_create he₁)) ⟨by decide, .inr (by decide)⟩ (System.step_makeDir he₂)) trivial h₃
  · exact failed_operation_keeps_disk sys₃.fs pathF 5000 (sys₃.wd 0) sys₃.kernel k₄ (.inl he₄)
  · exact failed_operation_keeps_disk sys₃.fs pathG 131072 (sys₃.wd 0) sys₃.kernel k₅ (.inl he₅)
  · exact failed_operation_keeps_disk sys₃.fs pathG 131072 (sys₃.wd 0) sys₃.kernel k₆ (.inr (.inl he₆))
  · exact failed_operation_keeps_disk sys₃.fs bin 0 (sys₃.wd 0) sys₃.kernel k₇ (.inr (.inr he₇))

end FileSystem

end NachosFileSys
