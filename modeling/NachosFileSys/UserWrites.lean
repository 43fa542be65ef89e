import NachosFileSys.Views
import NachosFileSys.Navigation
import NachosFileSys.Coherence

namespace NachosFileSys

open Lib.Programs Lib.Bytes Lib.Results Lib.Runs

/-- The calls of the kernel, and `Seek` and `Write` on the handles that are open, each of which keeps its
own copy of a header. -/
inductive UserOp
  | call (op : Op)
  | seek (handle : ℕ) (position : ℤ)
  | write (handle : ℕ) (src : List Byte) (numBytes : ℤ)

inductive Directories (d : Disk) : ℤ → Prop
  | root : Directories d DirectorySector
  | entry {s : ℤ} {name : CString} {e : DirectoryEntry} :
      Directories d s → lookupIn d s name = some e → e.isDir ≠ 0 →
      Directories d e.sector.toInt

namespace System

def userStep : UserOp → System → Except Fault System
  | .call op, sys => step op sys
  | .seek i position, sys =>
    match sys.handles[i]? with
    | none => pure sys
    | some f => pure { sys with handles := sys.handles.set i (f.seek position) }
  | .write i src numBytes, sys =>
    match sys.handles[i]? with
    | none => pure sys
    | some f => do
      let ((_, f), k) ← exec (OpenFile.write sys.fs.freeMapFile f src numBytes) sys.kernel
      pure { sys with
        kernel := k
        handles := sys.handles.set i f }

def SparesOpenFiles (sys : System) : Op → Prop
  | .remove t path => ∀ s name e, resolve sys.kernel.disk (components path) (sys.wd t) = some (s, name) →
      lookupIn sys.kernel.disk s name = some e → ∀ f ∈ sys.handles, f.hdrSector ≠ e.sector.toInt
  | _ => True

/-- The operations of which runs of user programs are made: what is written to is no directory. -/
def UserPermitted (sys : System) : UserOp → Prop
  | .call op => sys.Regular op ∧ sys.SparesOpenFiles op
  | .seek .. => True
  | .write i _ _ => ∀ f, sys.handles[i]? = some f → ¬Directories sys.kernel.disk f.hdrSector

def UserReachable (sys : System) : Prop :=
  ∃ k start, boot k = .ok start ∧ Reaches (fun op s t => userStep op s = .ok t) UserPermitted start sys

end System

namespace Directories

variable {fs : FileSystem} {d d' : Disk} {kind kind' : ℤ → Option Kind} {s : ℤ}

lemma kind_eq (hs : Sound fs d kind) (h : Directories d s) : kind s = some .dir := by
  induction h with
  | root => exact hs.names.root
  | entry _ hl hd ih => exact hs.kind_of_isDir ih hl hd

lemma keeps {gone : ℤ → CString → Prop} (hs : Sound fs d kind)
    (hk : Keeps gone d kind d' kind') (h : Directories d s) :
    Directories d' s := by
  induction h with
  | root => exact .root
  | entry hdir hl hd ih => exact .entry ih (hk.lookups (hdir.kind_eq hs) hl (Or.inl hd)) hd

lemma resolve (names : List CString) : ∀ {wd s : ℤ} {name : CString}, Directories d wd →
    NachosFileSys.resolve d names wd = some (s, name) → Directories d s := by
  induction names with
  | nil =>
    intro wd s name hwd hr
    cases hr
    exact hwd
  | cons dirname rest ih =>
    intro wd s name hwd hr
    cases rest with
    | nil =>
      cases hr
      exact hwd
    | cons name' rest =>
      rw [resolve_cons_cons] at hr
      cases he : lookupIn d wd dirname with
      | none =>
        rw [he] at hr
        cases hr
      | some e =>
        rw [he] at hr
        dsimp only at hr
        split at hr
        · exact ih (.entry hwd he ‹_›) hr
        · cases hr

lemma directoryAt {wd : ℤ} (hwd : Directories d wd) (path : CString)
    (h : NachosFileSys.directoryAt d path wd ≠ -1) :
    Directories d (NachosFileSys.directoryAt d path wd) := by
  rw [NachosFileSys.directoryAt] at h ⊢
  cases hr : NachosFileSys.resolve d (components path) wd with
  | none =>
    rw [hr] at h
    exact absurd rfl h
  | some r =>
    obtain ⟨s, name⟩ := r
    rw [hr] at h
    dsimp only at h ⊢
    cases hl : lookupIn d s name with
    | none =>
      rw [hl] at h
      exact absurd rfl h
    | some e =>
      rw [hl] at h
      dsimp only at h ⊢
      split at h
      · rw [if_pos ‹_›]
        exact .entry (resolve _ hwd hr) hl ‹_›
      · exact absurd rfl h

end Directories

lemma Roles.perform {fs : FileSystem} {kind : ℤ → Option Kind} {handles : List OpenFile} (actions : List Action) :
    ∀ {role : ℤ → Option Role} {k k' : Kernel} {f f' : OpenFile} {bs secs : List ℤ},
    Roles role k.disk (freeMapAt k.disk) kind handles → Sound fs k.disk kind → kind f.hdrSector = some .plain →
    View role k.disk f.hdrSector f.hdr bs secs → k.maps .semaphoreWrite f.hdrSector = some 1 →
    exec (NachosFileSys.perform fs.freeMapFile actions f) k = .ok (f', k') →
    ∃ role', Roles role' k'.disk (freeMapAt k'.disk) kind handles ∧ Sound fs k'.disk kind ∧ k'.maps = k.maps ∧
      f'.hdrSector = f.hdrSector ∧ SameDirs kind k.disk k'.disk := by
  induction actions with
  | nil =>
    intro role k k' f f' bs secs hr hs _ _ _ he
    cases he
    exact ⟨role, hr, hs, rfl, rfl, .refl _ _⟩
  | cons action rest ih =>
    intro role k k' f f' bs secs hr hs hk hv hsem he
    cases action with
    | seek position => exact ih (f := f.seek position) hr hs hk hv hsem he
    | write src numBytes =>
      obtain ⟨⟨r, f₁⟩, k₁, hw, he⟩ := exec_bind_ok.mp he
      obtain ⟨role₁, bs₁, secs₁, new, hr₁, hv₁, hs₁, hm₁, hsec₁, htab₁, -⟩ := hr.write_inv hs hk hv hsem hw
      rw [← hsec₁] at hk hv₁ hsem
      obtain ⟨role', hr', hs', hm', hsec', htab'⟩ := ih hr₁ hs₁ hk hv₁ (by rw [hm₁]; exact hsem) he
      exact ⟨role', hr', hs', hm'.trans hm₁, hsec'.trans hsec₁, htab₁.trans htab'⟩

namespace System

/-- The invariant of runs in which handles are used one call at a time. -/
structure Guarded (sys : System) (kind : ℤ → Option Kind) (role : ℤ → Option Role) : Prop where
  stable : sys.Stable kind
  roles : Roles role sys.kernel.disk (freeMapAt sys.kernel.disk) kind sys.handles
  wd : ∀ t, Directories sys.kernel.disk (sys.wd t)
  known : ∀ f ∈ sys.handles, kind f.hdrSector = some .plain ∨ Directories sys.kernel.disk f.hdrSector
  keys : ∀ f ∈ sys.handles, sys.kernel.maps .semaphoreWrite f.hdrSector ≠ none

namespace Guarded

variable {sys sys' : System} {kind kind' : ℤ → Option Kind} {role role' : ℤ → Option Role} {k : Kernel}

lemma kind_ne_none (hg : sys.Guarded kind role) : ∀ f ∈ sys.handles, kind f.hdrSector ≠ none := by
  intro f hf
  rcases hg.known f hf with h | h
  · rw [h]
    simp
  · rw [h.kind_eq hg.stable.sound]
    simp

lemma keeps {gone : ℤ → CString → Prop} (hg : sys.Guarded kind role) (hst : Stable { sys with kernel := k } kind')
    (hx : Extends sys.kernel.maps k.maps) (hk : Keeps gone sys.kernel.disk kind k.disk kind')
    (hr : Roles role' k.disk (freeMapAt k.disk) kind' sys.handles)
    (hopen : ∀ f ∈ sys.handles, kind' f.hdrSector = kind f.hdrSector) :
    Guarded { sys with kernel := k } kind' role' where
  stable := hst
  roles := hr
  wd t := (hg.wd t).keeps hg.stable.sound hk
  known f hf := (hg.known f hf).imp (fun h => (hopen f hf).trans h) fun h => h.keeps hg.stable.sound hk
  keys f hf := hx.keeps (hg.keys f hf)

lemma written (hg : sys.Guarded kind role) (hs : Sound sys.fs k.disk kind) (hx : Extends sys.kernel.maps k.maps)
    (htab : SameDirs kind sys.kernel.disk k.disk) (hr : Roles role' k.disk (freeMapAt k.disk) kind sys.handles) :
    Guarded { sys with kernel := k } kind role' := by
  have hkeeps : Keeps (fun _ _ => False) sys.kernel.disk kind k.disk kind := .of_tables htab
  refine hg.keeps
    ⟨⟨hs, hx.rests hg.stable.rest, hg.stable.wd, hg.stable.handles, hx.mapCount.trans hg.stable.mapCount⟩,
    fun {x} hk => ?_⟩ hx hkeeps hr fun _ _ => rfl
  dsimp only
  rw [htab.hdr hk]
  exact hg.stable.uncut hk

lemma same (hg : sys.Guarded kind role) (hd : k.disk = sys.kernel.disk) (hx : Extends sys.kernel.maps k.maps) :
    Guarded { sys with kernel := k } kind role := by
  have hk : Keeps (fun _ _ => False) sys.kernel.disk kind k.disk kind := by
    rw [hd]
    exact .refl _ _
  have hst : Stable { sys with kernel := k } kind :=
    ⟨⟨by rw [hd]; exact hg.stable.sound, hx.rests hg.stable.rest, hg.stable.wd, hg.stable.handles,
      hx.mapCount.trans hg.stable.mapCount⟩, by rw [hd]; exact hg.stable.uncut⟩
  exact hg.keeps hst hx hk (by rw [hd]; exact hg.roles) fun _ _ => rfl

lemma installed (hg : sys.Guarded kind role) {s : ℤ} {i : ℕ} {n : ℤ} {name : CString} {isDir : Byte} {c : Kind}
    (hinst : Installed sys.kernel.disk kind s name i isDir c n k.disk) (hks : kind s = some .dir)
    (hs : NextWhole sys.kernel.disk s → Sound sys.fs k.disk (Function.update kind i (some c)))
    (hcut : c = .dir → ¬Cuts (hdrAt k.disk i).numBytes) (hx : Extends sys.kernel.maps k.maps)
    (hi : (freeMapAt sys.kernel.disk).free.head? = some i) (hnone : lookupIn sys.kernel.disk s name = none) :
    ∃ role', Guarded { sys with kernel := k } (Function.update kind i (some c)) role' := by
  have hfresh : kind i = none := hg.stable.sound.storage.kind_of_free (mem_sectors_of_head hi)
  have hspared : ∀ {x r}, role x = some r → (∀ s, r ≠ .data s) → k.disk x = sys.kernel.disk x := by
    intro x r h hne
    refine hinst.spared x (hg.roles.marked h) (fun hx => ?_) fun hx => ?_
    · rw [(hg.roles.file hks).data x hx] at h
      exact hne s (Option.some.inj h).symm
    · rw [(hg.roles.file hg.stable.sound.storage.map).data x hx] at h
      exact hne _ (Option.some.inj h).symm
  obtain ⟨role', hr'⟩ := hg.roles.install hinst.storage hinst.taken hspared hg.kind_ne_none
  refine ⟨role', hg.keeps (hg.stable.of_installed hx hfresh hnone hinst hcut hs hks) hx
    (hinst.keeps (fun _ _ => False) hfresh hnone) hr' fun f hf => Function.update_of_ne ?_ _ _⟩
  intro he
  exact hg.kind_ne_none f hf (by rw [he]; exact hfresh)

lemma create (hg : sys.Guarded kind role) {t : ℕ} {path : CString} {n : ℤ} {b : Bool}
    (he : exec (sys.fs.create path n (sys.wd t)) sys.kernel = .ok (b, k)) :
    ∃ kind' role', Guarded { sys with kernel := k } kind' role' := by
  have hs := hg.stable.sound
  obtain ⟨hx, ⟨-, hd⟩ | ⟨-, s, name, i, hr, hnone, hi, -, hinst, hs'⟩⟩ := hs.create_inv (hg.stable.wd t) he
  · exact ⟨kind, role, hg.same hd hx⟩
  · obtain ⟨role', hg'⟩ := hg.installed hinst (hs.kind_of_resolve _ (hg.stable.wd t) hr) hs' (fun h => by cases h)
      hx hi hnone
    exact ⟨_, role', hg'⟩

lemma makeDir (hg : sys.Guarded kind role) {t : ℕ} {path : CString} {n : ℤ} {b : Bool} (hn : int32 n = n)
    (hclean : CleanLength n) (he : exec (sys.fs.makeDir path n (sys.wd t)) sys.kernel = .ok (b, k)) :
    ∃ kind' role', Guarded { sys with kernel := k } kind' role' := by
  have hs := hg.stable.sound
  obtain ⟨hx, ⟨-, hd⟩ | ⟨-, s, name, i, hr, hnone, hi, hinst, -, -, hs'⟩⟩ := hs.makeDir_inv (hg.stable.wd t) hn he
  · exact ⟨kind, role, hg.same hd hx⟩
  · obtain ⟨role', hg'⟩ := hg.installed hinst (hs.kind_of_resolve _ (hg.stable.wd t) hr)
      (hs' fun h => absurd h hclean.not_cuts)
      (fun _ => by rw [hinst.numBytes hn]; exact hclean.not_cuts) hx hi hnone
    exact ⟨_, role', hg'⟩

lemma remove (hg : sys.Guarded kind role) {t : ℕ} {path : CString} {b : Bool}
    (hspare : sys.SparesOpenFiles (.remove t path))
    (he : exec (sys.fs.remove path (sys.wd t)) sys.kernel = .ok (b, k)) :
    ∃ kind' role', Guarded { sys with kernel := k } kind' role' := by
  have hs := hg.stable.sound
  obtain ⟨hx, ⟨-, hd⟩ | ⟨-, s, name, e, i, hr, -, hlook, hplain, -, hu, hs'⟩⟩ :=
    hs.remove_inv (hg.stable.wd t) hg.stable.rest he
  · exact ⟨kind, role, hg.same hd hx⟩
  · have hks := hs.kind_of_resolve _ (hg.stable.wd t) hr
    have hopen := hspare s name e hr hlook
    obtain ⟨freed, hc, hfreed, -⟩ := hu.cleared
    have hspared : ∀ {x r}, role x = some r → (∀ s, r ≠ .data s) → k.disk x = sys.kernel.disk x := by
      intro x r h hne
      refine hu.spared x (fun hx => ?_) fun hx => ?_
      · rw [(hg.roles.file hks).data x hx] at h
        exact hne s (Option.some.inj h).symm
      · rw [(hg.roles.file hs.storage.map).data x hx] at h
        exact hne _ (Option.some.inj h).symm
    obtain ⟨role', hr'⟩ := hg.roles.drop (hs.kind_of_lookupIn hks hlook) hc hfreed hspared hopen
    have hk := hu.keeps hs hks hlook hplain
    have hst' : Stable { sys with kernel := k } (Function.update kind e.sector.toInt none) := by
      refine ⟨⟨hs', hx.rests hg.stable.rest, fun t => hk.dirs (hg.stable.wd t), hg.stable.handles,
        hx.mapCount.trans hg.stable.mapCount⟩, fun {x} hkx => ?_⟩
      rw [Function.update_apply] at hkx
      split at hkx
      · cases hkx
      · rw [hu.hdrs hkx]
        exact hg.stable.uncut hkx
    exact ⟨_, role', hg.keeps hst' hx hk hr' fun f hf => Function.update_of_ne (hopen f hf) _ _⟩

lemma withHandles (hg : sys.Guarded kind role) {handles : List OpenFile}
    (h : ∀ f ∈ handles, f.hdrSector ≠ FreeMapSector ∧
      (kind f.hdrSector = some .plain ∨ Directories sys.kernel.disk f.hdrSector) ∧
      sys.kernel.maps .semaphoreWrite f.hdrSector ≠ none ∧
      (kind f.hdrSector = some .plain → f ∈ sys.handles ∨
      ∃ bs secs, View role sys.kernel.disk f.hdrSector f.hdr bs secs)) :
    Guarded { sys with handles := handles } kind role where
  stable :=
    ⟨⟨hg.stable.sound, hg.stable.rest, hg.stable.wd, fun f hf => (h f hf).1, hg.stable.mapCount⟩, hg.stable.uncut⟩
  roles := hg.roles.replace fun f hf => (h f hf).2.2.2
  wd := hg.wd
  known f hf := (h f hf).2.1
  keys f hf := (h f hf).2.2.1

lemma of_mem (hg : sys.Guarded kind role) {f : OpenFile} (hf : f ∈ sys.handles) : f.hdrSector ≠ FreeMapSector ∧
    (kind f.hdrSector = some .plain ∨ Directories sys.kernel.disk f.hdrSector) ∧
    sys.kernel.maps .semaphoreWrite f.hdrSector ≠ none ∧
    (kind f.hdrSector = some .plain → f ∈ sys.handles ∨
    ∃ bs secs, View role sys.kernel.disk f.hdrSector f.hdr bs secs) :=
  ⟨hg.stable.handles f hf, hg.known f hf, hg.keys f hf, fun _ => Or.inl hf⟩

lemma openFile (hg : sys.Guarded kind role) {t : ℕ} {path : CString} {r : Option OpenFile}
    (he : exec (FileSystem.openFile path (sys.wd t)) sys.kernel = .ok (r, k)) :
    Guarded { sys with kernel := k, handles := sys.handles ++ r.toList } kind role := by
  have hs := hg.stable.sound
  obtain ⟨hd, hx, hfound⟩ := hs.open_inv (hg.stable.wd t) he
  have hg' := hg.same hd hx
  refine hg'.withHandles fun f hf => ?_
  obtain hf | hf := List.mem_append.mp hf
  · exact hg'.of_mem hf
  · obtain ⟨s, name, e, hr, hlook, rfl, hkeys⟩ := hfound f (Option.mem_toList.mp hf)
    have hkind := hs.kind_of_lookupIn (hs.kind_of_resolve _ (hg.stable.wd t) hr) hlook
    refine ⟨hs.ne_map hkind ?_, ?_, hkeys _,
        fun _ => Or.inr ⟨blocksAt k.disk e.sector.toInt, dataAt k.disk e.sector.toInt, ?_⟩⟩
    · rw [DirectoryEntry.kind]
      split <;> decide
    · by_cases hdir : e.isDir = 0
      · exact Or.inl (by rw [hkind, DirectoryEntry.kind, if_pos hdir])
      · refine Or.inr ?_
        dsimp only
        rw [hd]
        exact .entry ((hg.wd t).resolve _ hr) hlook hdir
    · have hfile := hg'.roles.file hkind
      dsimp only at hfile ⊢
      rw [hd] at hfile ⊢
      exact hfile

lemma session (hg : sys.Guarded kind role) {t : ℕ} {path : CString} {actions : List Action} {u : Unit}
    (hplain : sys.OnPlainFile t path)
    (he : exec (NachosFileSys.session sys.fs path (sys.wd t) actions) sys.kernel = .ok (u, k)) :
    ∃ role', Guarded { sys with kernel := k } kind role' := by
  have hs := hg.stable.sound
  rw [NachosFileSys.session] at he
  obtain ⟨r, k₁, ho, he⟩ := exec_bind_ok.mp he
  obtain ⟨hd₁, hx₁, hfound⟩ := hs.open_inv (hg.stable.wd t) ho
  have hg₁ := hg.same hd₁ hx₁
  cases r with
  | none =>
    cases he
    exact ⟨role, hg₁⟩
  | some f =>
    obtain ⟨s, name, e, hr, hlook, rfl, hkeys⟩ := hfound f rfl
    have hk : kind e.sector.toInt = some .plain := by
      rw [hs.kind_of_lookupIn (hs.kind_of_resolve _ (hg.stable.wd t) hr) hlook, DirectoryEntry.kind,
        if_pos (hplain s name e hr hlook)]
    obtain ⟨f', k₂, hp, hc⟩ := exec_bind_ok.mp he
    have hv := hg₁.roles.file hk
    dsimp only at hv
    rw [hd₁] at hv
    obtain ⟨role', hr', hs', hm', hsec', htab'⟩ :=
      hg₁.roles.perform (f := ⟨hdrAt sys.kernel.disk e.sector.toInt, 0, e.sector.toInt⟩)
      actions hg₁.stable.sound hk (by dsimp only; rw [hd₁]; exact hv) (hg₁.stable.rest.semaphoreWrite (hkeys _)) hp
    obtain ⟨k₃, hc₃, hd₃, hx₃, -⟩ := OpenFile.exec_close f' (by rw [hsec']; exact hs.plain_ne_map hk) k₂
    rw [hc₃] at hc
    cases hc
    dsimp only at htab'
    rw [hd₁, ← hd₃] at htab'
    exact ⟨role', hg.written (by rw [hd₃]; exact hs') (hx₁.trans (hm' ▸ hx₃)) htab' (by rw [hd₃]; exact hr')⟩

lemma call (hg : sys.Guarded kind role) {op : Op} (hop : sys.Regular op) (hspare : sys.SparesOpenFiles op)
    (h : step op sys = .ok sys') : ∃ kind' role', sys'.Guarded kind' role' := by
  have hs := hg.stable.sound
  cases op with
  | create t path n =>
    obtain ⟨⟨b, k⟩, he, h⟩ := bind_eq_ok.mp h
    cases h
    exact hg.create he
  | makeDir t path n =>
    obtain ⟨⟨b, k⟩, he, h⟩ := bind_eq_ok.mp h
    cases h
    exact hg.makeDir hop.1 hop.2 he
  | remove t path =>
    obtain ⟨⟨b, k⟩, he, h⟩ := bind_eq_ok.mp h
    cases h
    exact hg.remove hspare he
  | changeDir t path =>
    obtain ⟨⟨r, k⟩, he, h⟩ := bind_eq_ok.mp h
    cases h
    obtain ⟨k', he', hd, hx⟩ := hs.exec_changeDir (hg.stable.wd t) rfl path
    rw [he'] at he
    cases he
    have hg' := hg.same hd hx
    refine ⟨kind, role, ?_⟩
    split
    · exact hg'
    · have hdirs : ∀ t',
          Directories k.disk (Function.update sys.wd t (directoryAt sys.kernel.disk path (sys.wd t)) t') := by
        intro t'
        by_cases ht : t' = t
        · rw [ht, Function.update_self, hd]
          exact (hg.wd t).directoryAt path ‹_›
        · rw [Function.update_of_ne ht]
          exact hg'.wd t'
      exact ⟨⟨⟨hg'.stable.sound, hg'.stable.rest, fun t' => (hdirs t').kind_eq hg'.stable.sound,
        hg'.stable.handles,
        hg'.stable.mapCount⟩, hg'.stable.uncut⟩, hg'.roles, hdirs, hg'.known, hg'.keys⟩
  | list t depth =>
    obtain ⟨⟨u, k⟩, he, h⟩ := bind_eq_ok.mp h
    cases h
    obtain ⟨hd, hx⟩ := hs.list_inv (hg.stable.wd t) he
    exact ⟨kind, role, hg.same hd hx⟩
  | session t path actions =>
    obtain ⟨⟨u, k⟩, he, h⟩ := bind_eq_ok.mp h
    cases h
    exact ⟨kind, hg.session hop he⟩
  | openFile t path =>
    obtain ⟨⟨r, k⟩, he, h⟩ := bind_eq_ok.mp h
    cases h
    exact ⟨kind, role, hg.openFile he⟩
  | close i =>
    rw [step] at h
    split at h
    · cases h
      exact ⟨kind, role, hg⟩
    · rename_i f hf
      obtain ⟨⟨u, k⟩, he, h⟩ := bind_eq_ok.mp h
      cases h
      obtain ⟨k', he', hd, hx, -⟩ :=
        OpenFile.exec_close f (hg.stable.handles f (List.mem_of_getElem? hf)) sys.kernel
      rw [he'] at he
      cases he
      have hg' := hg.same hd hx
      exact ⟨kind, role, hg'.withHandles fun f hf => hg'.of_mem (List.mem_of_mem_eraseIdx hf)⟩
  | restart =>
    obtain ⟨⟨fs', k⟩, he, h⟩ := bind_eq_ok.mp h
    cases h
    obtain ⟨fs'', k', he', hd, hx, hs', hcounts⟩ := hs.exec_mount (k := reset sys.kernel) rfl
    rw [he'] at he
    cases he
    refine ⟨kind, role, ⟨⟨by dsimp only; rw [hd]; exact hs', hx (atRest_reset _), fun _ => hs.names.root,
      fun f hf => absurd hf List.not_mem_nil, hcounts (fun _ => rfl) _⟩, fun hk => ?_⟩, ?_, fun _ => .root,
      fun f hf => absurd hf List.not_mem_nil, fun f hf => absurd hf List.not_mem_nil⟩
    · dsimp only
      rw [hd]
      exact hg.stable.uncut hk
    dsimp only
    rw [hd]
    exact hg.roles.replace fun f hf => absurd hf List.not_mem_nil

lemma write (hg : sys.Guarded kind role) {f f' : OpenFile} (hf : f ∈ sys.handles)
    (hdir : ¬Directories sys.kernel.disk f.hdrSector) {src : List Byte} {n r : ℤ}
    (he : exec (OpenFile.write sys.fs.freeMapFile f src n) sys.kernel = .ok ((r, f'), k)) :
    ∃ role' bs' secs' new, Guarded { sys with kernel := k } kind role' ∧
      View role' k.disk f'.hdrSector f'.hdr bs' secs' ∧ f'.hdrSector = f.hdrSector ∧
      kind f.hdrSector = some .plain ∧
      SameDirs kind sys.kernel.disk k.disk ∧
      Taken (freeMapAt sys.kernel.disk) (freeMapAt k.disk) new ∧ new ⊆ owned k.disk f.hdrSector ∧
      (int32 (f.seekPosition + n) ≤ f.length → freeMapAt k.disk = freeMapAt sys.kernel.disk) ∧
      (f.length < int32 (f.seekPosition + n) → sectorsNeeded n ≤ new.length) := by
  have hk := (hg.known f hf).resolve_right hdir
  obtain ⟨bs, secs, hv⟩ := hg.roles.handle f hf hk
  obtain ⟨role', bs', secs', new, hr', hv', hs', hm', hsec', htab', ht, hnew, hsame, hlen⟩ :=
    hg.roles.write_inv hg.stable.sound hk hv (hg.stable.rest.semaphoreWrite (hg.keys f hf)) he
  rw [← hsec'] at hv'
  have hg' := hg.written hs' (by rw [hm']; exact .refl _) htab' hr'
  exact ⟨role', bs', secs', new, hg', hv', hsec', hk, htab', ht, hnew, hsame, hlen⟩

lemma step {op : UserOp} (hg : sys.Guarded kind role) (hop : sys.UserPermitted op)
    (h : userStep op sys = .ok sys') :
    ∃ kind' role', sys'.Guarded kind' role' := by
  cases op with
  | call op => exact hg.call hop.1 hop.2 h
  | seek i position =>
    rw [userStep] at h
    split at h
    · cases h
      exact ⟨kind, role, hg⟩
    · rename_i f hf
      cases h
      have hmem := List.mem_of_getElem? hf
      refine ⟨kind, role, hg.withHandles fun g hg' => ?_⟩
      obtain hg' | rfl := List.mem_or_eq_of_mem_set hg'
      · exact hg.of_mem hg'
      · exact ⟨hg.stable.handles f hmem, hg.known f hmem, hg.keys f hmem,
            fun hk => Or.inr (hg.roles.handle f hmem hk)⟩
  | write i src n =>
    rw [userStep] at h
    split at h
    · cases h
      exact ⟨kind, role, hg⟩
    · rename_i f hf
      obtain ⟨⟨⟨r, f'⟩, k⟩, he, h⟩ := bind_eq_ok.mp h
      cases h
      have hmem := List.mem_of_getElem? hf
      obtain ⟨role', bs', secs', new, hg', hv', hsec', hk, -⟩ := hg.write hmem (hop f hf) he
      refine ⟨kind, role', hg'.withHandles fun g hgm => ?_⟩
      obtain hgm | rfl := List.mem_or_eq_of_mem_set hgm
      · exact hg'.of_mem hgm
      · rw [hsec'] at hv' ⊢
        exact ⟨hg'.stable.handles f hmem, hg'.known f hmem, hg'.keys f hmem, fun _ => Or.inr ⟨bs', secs', hv'⟩⟩

end Guarded

lemma UserReachable.guarded {sys : System} (h : sys.UserReachable) : ∃ kind role, sys.Guarded kind role := by
  obtain ⟨k, start, hb, hr⟩ := h
  obtain ⟨sys₀, hb₀, hf, hst, hwd, -⟩ := boot_spec k
  rw [hb₀] at hb
  cases hb
  have hh : start.handles = [] := by
    rw [boot] at hb₀
    obtain ⟨⟨fs, k'⟩, -, he⟩ := bind_eq_ok.mp hb₀
    cases he
    rfl
  refine hr.invariant (I := fun s => ∃ kind role, s.Guarded kind role) (fun op s t hs hop hstep => ?_) ?_
  · obtain ⟨kind, role, hg⟩ := hs
    exact hg.step hop hstep
  · obtain ⟨role, hroles⟩ := hst.sound.storage.roles
    exact ⟨formatted, role, hst, by rw [hh]; exact hroles, fun t => by rw [hwd]; exact .root,
      fun f hf => absurd hf (by rw [hh]; exact List.not_mem_nil),
      fun f hf => absurd hf (by rw [hh]; exact List.not_mem_nil)⟩

end System

/-- In every run in which no directory is written to and no open file is removed, a `Write` through a handle
that is on no directory changes the table of no directory, and changes the free map only by marking sectors
that were free and now belong to the file; it marks none if it stays within the length that the handle knows. -/
theorem write_spares_structure (sys : System) (h : sys.UserReachable) (i : ℕ) (f f' : OpenFile) (src : List Byte)
    (n r : ℤ) (k : Kernel) (hi : sys.handles[i]? = some f) (hdir : ¬Directories sys.kernel.disk f.hdrSector)
    (he : exec (OpenFile.write sys.fs.freeMapFile f src n) sys.kernel = .ok ((r, f'), k)) :
    (∀ s, Directories sys.kernel.disk s → tableAt k.disk s = tableAt sys.kernel.disk s) ∧
    (∃ new, Taken (freeMapAt sys.kernel.disk) (freeMapAt k.disk) new ∧ new ⊆ owned k.disk f.hdrSector) ∧
    (int32 (f.seekPosition + n) ≤ f.length → freeMapAt k.disk = freeMapAt sys.kernel.disk) := by
  obtain ⟨kind, role, hg⟩ := h.guarded
  obtain ⟨-, -, -, new, -, -, -, -, htab, ht, hnew, hsame, -⟩ := hg.write (List.mem_of_getElem? hi) hdir he
  exact ⟨fun s hs => htab.table (hs.kind_eq hg.stable.sound), ⟨new, ht, hnew⟩, hsame⟩

lemma System.reachable_opened {sys₀ : System} (o : Op) {k₁ k₂ : Kernel} {path : CString} {f : OpenFile}
    (hb : System.boot Kernel.blank = .ok sys₀) (hop : sys₀.UserPermitted (.call o))
    (hstep : System.step o sys₀ = .ok { sys₀ with kernel := k₁ })
    (hopen : exec (FileSystem.openFile path (sys₀.wd 0)) k₁ = .ok (some f, k₂)) :
    System.UserReachable { sys₀ with kernel := k₂, handles := [f] } := by
  have hh : sys₀.handles = [] := by
    rw [System.boot] at hb
    obtain ⟨⟨fs, k'⟩, -, he⟩ := bind_eq_ok.mp hb
    cases he
    rfl
  have hstep' : System.userStep (.call (.openFile 0 path)) { sys₀ with kernel := k₁ } =
      .ok { sys₀ with kernel := k₂, handles := [f] } := by
    rw [System.userStep, System.step]
    dsimp only
    rw [hopen, hh]
    rfl
  exact ⟨Kernel.blank, sys₀, hb, .step (.call (.openFile 0 path)) (.step (.call o) .refl hop hstep)
    ⟨trivial, trivial⟩ hstep'⟩

lemma System.boot_open_file : ∃ (sys : System) (f f' : OpenFile) (r : ℤ) (k : Kernel), sys.UserReachable ∧
    sys.handles = [f] ∧ ¬Directories sys.kernel.disk f.hdrSector ∧ f.length < int32 (f.seekPosition + 1) ∧
    exec (OpenFile.write sys.fs.freeMapFile f [0x61] 1) sys.kernel = .ok ((r, f'), k) := by
  obtain ⟨sys₀, k₁, i, hb, hf, hst, hwd, hcreate, hx₁, hi, hinst, hs₁, -⟩ := System.boot_create
  have hin := inDisk_of_free (mem_sectors_of_head hi)
  have hroom := freeSlot_of_unused (by rw [hf.slots]; decide) hf.unused
  obtain ⟨e, hlook, hsec, hplain⟩ := hinst.lookupIn_eq hin (hf.lookupIn_root _) hroom
  have hres : resolve k₁.disk (components pathF) (sys₀.wd 0) = some (DirectorySector, pathF) := by
    rw [hwd]
    rfl
  have hprint : Printable k₁.disk DirectorySector := hinst.printable hst.sound hst.sound.names.root hin (by decide)
    fun e he hu => absurd (hf.unused e he) hu
  have hroot : Function.update formatted (i : ℤ) (some .plain) (sys₀.wd 0) = some .dir := by
    rw [hwd]
    exact hs₁.names.root
  obtain ⟨k₂, hopen, hd₂, hx₂, hkeys, -⟩ := hs₁.exec_open_found hroot rfl hres hprint hlook
  rw [hsec] at hopen hkeys
  let f : OpenFile := ⟨hdrAt k₁.disk i, 0, i⟩
  have hstep : System.step (.create 0 pathF 0) sys₀ = .ok { sys₀ with kernel := k₁ } := by
    rw [System.step, hcreate]
    rfl
  have hreach := System.reachable_opened (.create 0 pathF 0) hb ⟨show int32 0 = 0 by decide, trivial⟩ hstep hopen
  have hk : Function.update formatted (i : ℤ) (some .plain) f.hdrSector = some .plain := Function.update_self ..
  have hs : Sound sys₀.fs k₂.disk (Function.update formatted (i : ℤ) (some .plain)) := by
    rw [hd₂]
    exact hs₁
  have hlen : f.length = 0 := by
    obtain ⟨p, ds, hh⟩ := hinst.hdr
    change (hdrAt k₁.disk i).numBytes = 0
    rw [hh]
    rfl
  have hcur : f.Current k₂.disk := by
    rw [OpenFile.Current, hd₂]
  have hback : PlainBacked k₂.disk (Function.update formatted (i : ℤ) (some .plain)) := by
    rw [hd₂]
    refine hinst.plainBacked (by decide) fun {x} hkx => ?_
    rcases formatted_cases hkx with ⟨-, hc⟩ | ⟨-, hc⟩ <;> cases hc
  have hfit : Fits (dataAt k₂.disk i).length ((1 : ℕ) : ℤ) (freeMapAt k₂.disk).free.length := by
    have hneed : sectorsNeeded ((1 : ℕ) : ℤ) = 1 := by decide
    have hdata : (dataAt k₁.disk i).length = 0 := hinst.data.trans sectorsNeeded_zero
    have hnew : newBlocks 0 1 = 1 := rfl
    have hfree := hinst.free
    rw [hf.free, sectorsNeeded_zero, newBlocks_zero] at hfree
    rw [hd₂, hdata, Fits, hneed, hnew]
    omega
  have hrest : AtRest k₂.maps := hx₂.rests (hx₁.rests hst.rest)
  have hsrc : 1 ≤ ([0x61] : List Byte).length := by simp
  obtain ⟨r, f', k, he, -⟩ := (hs.write_reported_iff hk hcur hback
    (hrest.semaphoreWrite (hkeys _)) (n := 1) (p := 0) rfl (by rw [hlen]; rfl) (by decide) hsrc).mpr (Or.inr hfit)
  refine ⟨_, f, f', r, k, hreach, rfl, fun hd => ?_, ?_, he⟩
  · have hdir := hd.kind_eq hs
    rw [hk] at hdir
    cases hdir
  · rw [hlen]
    exact (by decide : (0 : ℤ) < int32 (0 + 1))

theorem write_spares_structure_extended : ∃ (sys : System) (f f' : OpenFile) (r : ℤ) (k : Kernel),
    exec (OpenFile.write sys.fs.freeMapFile f [0x61] 1) sys.kernel = .ok ((r, f'), k) ∧
    tableAt k.disk DirectorySector = tableAt sys.kernel.disk DirectorySector := by
  obtain ⟨sys, f, f', r, k, hreach, hh, hdir, -, he⟩ := System.boot_open_file
  exact ⟨sys, f, f', r, k, he,
      (write_spares_structure sys hreach 0 f f' [0x61] 1 r k (by rw [hh]; rfl) hdir he).1 _ .root⟩

lemma System.boot_written_directory : ∃ (sys : System) (f f' : OpenFile) (r : ℤ) (k : Kernel), sys.UserReachable ∧
    sys.handles = [f] ∧ Directories sys.kernel.disk f.hdrSector ∧
    exec (OpenFile.write sys.fs.freeMapFile f [0] 1) sys.kernel = .ok ((r, f'), k) ∧
    tableAt k.disk f.hdrSector ≠ tableAt sys.kernel.disk f.hdrSector := by
  obtain ⟨sys₀, hb, hf, hst, hwd, -⟩ := System.boot_spec Kernel.blank
  have hres₀ : resolve sys₀.kernel.disk (components bin) (sys₀.wd 0) = some (DirectorySector, bin) := by
    rw [hwd]
    rfl
  have hfree := hf.free
  have hneed : sectorsNeeded 200 = 2 := by decide
  have hblocks : newBlocks 0 2 = 1 := rfl
  obtain ⟨i, k₁, old, old', dir, hi, hmake, hx₁, hinst, hl, -, hs₁⟩ :=
    hst.sound.exec_makeDir_succeeds (hst.wd 0) rfl hres₀
    (hf.lookupIn_root bin) (n := 200) (by decide) (by rw [hneed]; omega) (by rw [hneed, hblocks]; omega)
  have hclean : CleanLength 200 := Or.inr (Or.inr le_rfl)
  replace hs₁ := hs₁ (fun h => absurd h hclean.not_cuts) (hst.nextWhole rfl)
  have hin := inDisk_of_free (mem_sectors_of_head hi)
  have hroom := freeSlot_of_unused (by rw [hf.slots]; decide) hf.unused
  obtain ⟨e, hlook, hsec, hisDir⟩ := hinst.lookupIn_eq hin (hf.lookupIn_root _) hroom
  have hres : resolve k₁.disk (components bin) (sys₀.wd 0) = some (DirectorySector, bin) := by
    rw [hwd]
    rfl
  have hprint : Printable k₁.disk DirectorySector := hinst.printable hst.sound hst.sound.names.root hin (by decide)
    fun e he hu => absurd (hf.unused e he) hu
  have hroot : Function.update formatted (i : ℤ) (some .dir) (sys₀.wd 0) = some .dir := by
    rw [hwd]
    exact hs₁.names.root
  obtain ⟨k₂, hopen, hd₂, hx₂, hkeys, -⟩ := hs₁.exec_open_found hroot rfl hres hprint hlook
  rw [hsec] at hopen hkeys
  let f : OpenFile := ⟨hdrAt k₁.disk i, 0, i⟩
  have hstep : System.step (.makeDir 0 bin 200) sys₀ = .ok { sys₀ with kernel := k₁ } := by
    rw [System.step, hmake]
    rfl
  have hreach :=
    System.reachable_opened (.makeDir 0 bin 200) hb ⟨⟨show int32 200 = 200 by decide, hclean⟩, trivial⟩ hstep hopen
  have hki : Function.update formatted (i : ℤ) (some .dir) i = some .dir := Function.update_self ..
  have hdir : DirAt k₂.disk i := by
    rw [hd₂]
    exact hs₁.dir hki
  have hnum : (hdrAt k₂.disk i).numBytes = 200 := by
    obtain ⟨p, ds, hh⟩ := hinst.hdr
    rw [hd₂, hh]
    exact FileHeader.fresh_grown_numBytes (by decide)
  have hcur : f.Current k₂.disk := by
    rw [OpenFile.Current, hd₂]
  have hlen : f.hdr.fileLength = 200 := by
    rw [hcur]
    exact hnum
  have hback := hcur.backed hdir.file hdir.backed
  have hst₂ : Storage k₂.disk (freeMapAt k₂.disk) (Function.update formatted (i : ℤ) (some .dir)) := by
    rw [hd₂]
    exact hs₁.storage
  have hrest : AtRest k₂.maps := hx₂.rests (hx₁.rests hst.rest)
  have ht : transferred f.hdr.fileLength 0 1 = 1 := by
    rw [hlen]
    rfl
  obtain ⟨k, he, -, hframe, hbytes⟩ := OpenFile.exec_writeLocked (hrest.semaphoreWrite (hkeys _)) hback
    (hst₂.data_nodup hki) [0] 1 0 rfl (by omega) (by rw [ht]; rfl)
  rw [ht] at he hframe hbytes
  have hw := (OpenFile.exec_write_within sys₀.fs.freeMapFile (f := f) (n := ((1 : ℕ) : ℤ)) (by
    rw [hlen]
    exact (by decide : ¬int32 (0 + ((1 : ℕ) : ℤ)) > 200)) [0] k₂).trans he
  have hstr := hst₂.structure_of_write hki (fun x hx => hframe x fun q _ _ hq => hx (List.mem_of_getElem? hq)) hki
  have hslots : slotsIn 200 = 10 := by decide
  refine ⟨_, f, _, _, k, hreach, rfl, ?_, hw, fun heq => ?_⟩
  · change Directories k₂.disk i
    rw [hd₂, ← hsec]
    exact .entry .root hlook (by rw [hisDir]; decide)
  · -- the flag of the first entry
    obtain ⟨junk, hdirtab, -⟩ := hl.links.eq
    have hold : (tableAt k₂.disk i)[0]? = some (old.filled dot i 1) := by
      rw [hd₂, hl.table, hdirtab, hslots]
      rfl
    have hnew : ∃ e', (tableAt k.disk i)[0]? = some e' ∧ e'.isDir = 0 := by
      rw [tableAt, hdrAt_congr hstr.1, hnum, hslots, dataAt_congr hstr.1 hstr.2]
      refine ⟨_, rfl, ?_⟩
      change (bytesIn k.disk (dataAt k₂.disk i) (EntrySize * 0) EntrySize).getD 0 0 = 0
      rw [getD_bytesIn _ _ _ _ _ (by decide)]
      exact (hbytes 0 (by rw [hlen]; decide)).trans rfl
    obtain ⟨e', he', hflag⟩ := hnew
    change tableAt k.disk i = tableAt k₂.disk i at heq
    rw [heq, hold] at he'
    cases he'
    exact absurd hflag (by decide : (1 : Byte) ≠ 0)

end NachosFileSys
