import NachosFileSys.FullPath
import NachosFileSys.UserWrites

namespace NachosFileSys

open Lib.Programs Lib.Bytes Lib.Results Lib.Runs

namespace Roles

variable {role : ℤ → Option Role} {kind : ℤ → Option Kind} {handles : List OpenFile}
  {fs : FileSystem} {k k' : Kernel}
  {f f' : OpenFile} {src : List Byte} {n r : ℤ} {bs secs : List ℤ} {x : ℤ} {q : Role}

lemma extend_frame (hr : Roles role k.disk (freeMapAt k.disk) kind handles) (hs : Sound fs k.disk kind)
    (hk : kind f.hdrSector = some .plain) (hv : View role k.disk f.hdrSector f.hdr bs secs)
    (he : exec (OpenFile.extend fs.freeMapFile f n) k = .ok (f', k'))
    (hx : role x = some q) (hself : x ≠ f.hdrSector)
    (hblock : q ≠ .block f.hdrSector) (hmap : q ≠ .data FreeMapSector) : k'.disk x = k.disk x := by
  rw [OpenFile.exec_extend_start hs.storage hs.mapFile hs.mapSector, OpenFile.extendFrom] at he
  obtain ⟨⟨success, hdr, m'⟩, k₁, ha, he⟩ := exec_bind_ok.mp he
  obtain ⟨u, k₂, hsucc, he⟩ := exec_bind_ok.mp he
  obtain ⟨rfl, rfl⟩ := exec_assert_ok.mp hsucc
  have hbf : ∀ b ∈ bs, b ∉ sectors (freeMapAt k.disk).free := by
    intro b hb hfree
    have hrole := hv.blocks b hb
    rw [hr.no_role_of_free hfree] at hrole
    cases hrole
  obtain ⟨ds, nbs, nsecs, d₁, rfl, rfl, hon, hlen, ht, hd₁⟩ :=
    FileHeader.allocate_inv hv.on (List.nodup_append.mp hv.nodup).1 hbf ha
  obtain ⟨hr₂, hv₂, hhdr, hframe⟩ := hr.extend hk hv ht hon (FileHeader.grown_fits hv.permisstion hon) hd₁ _ rfl
  set d₂ := Function.update d₁ f.hdrSector (f.hdr.grown n ds).toSector with hd₂
  have hne : FreeMapSector ≠ f.hdrSector := Ne.symm (hs.plain_ne_map hk)
  have hmaphdr : d₂ FreeMapSector = k.disk FreeMapSector := hframe (hr.header hs.storage.map) hne (by simp)
  have hmapblocks : ∀ b ∈ blocksAt k.disk FreeMapSector, d₂ b = k.disk b := by
    intro b hb
    have hb := (hr.file hs.storage.map).blocks b hb
    refine hframe hb ?_ (by simpa using hne)
    rintro rfl
    rw [hr.header hk] at hb
    cases hb
  have hst := hr₂.storage hs.storage hmaphdr hmapblocks
  have hcur : fs.freeMapFile.Current d₂ := by
    have h := hs.mapFile
    rw [OpenFile.Current, hs.mapSector] at h ⊢
    rw [hdrAt_congr hmaphdr, h]
  have hw := exec_write_inDisk (hr.fileAt hk).inDisk (f.hdr.grown n ds).toSector { k with disk := d₁ }
  rw [← FileHeader.writeBack] at hw
  obtain ⟨k₃, hwm, -, hout, -⟩ := exec_writeBack_map (k := { k with disk := d₂ }) hst hcur hs.mapSector m'
  dsimp only at hout
  rw [exec_bind_of_ok hw, exec_bind_of_ok hwm] at he
  obtain ⟨-, rfl⟩ : { f with hdr := f.hdr.grown n ds } = f' ∧ k₃ = k' := by simpa using he
  have hmapdata : x ∉ dataAt d₂ FreeMapSector := by
    intro hmem
    have hdata := (hr₂.file hs.storage.map).data x hmem
    rw [hr.withSectors_of_role ht hx] at hdata
    exact hmap (Option.some.inj hdata)
  exact (hout x hmapdata).trans (hframe hx hself hblock)

lemma write_frame (hr : Roles role k.disk (freeMapAt k.disk) kind handles) (hs : Sound fs k.disk kind)
    (hk : kind f.hdrSector = some .plain) (hv : View role k.disk f.hdrSector f.hdr bs secs)
    (hsem : k.maps .semaphoreWrite f.hdrSector = some 1)
    (he : exec (OpenFile.write fs.freeMapFile f src n) k = .ok ((r, f'), k')) (hx : role x = some q)
    (hself : x ≠ f.hdrSector) (hblock : q ≠ .block f.hdrSector) (hdata : q ≠ .data f.hdrSector)
    (hmap : q ≠ .data FreeMapSector) : k'.disk x = k.disk x := by
  by_cases hn : int32 (f.seekPosition + n) > f.hdr.fileLength
  · rw [OpenFile.exec_write_beyond _ hn] at he
    obtain ⟨g, t, hext, hw⟩ := exec_bind_ok.mp he
    have hframe := hr.extend_frame hs hk hv hext hx hself hblock hmap
    obtain ⟨role', hdr, nbs, nsecs, rfl, hm, -, hr₁, hv₁, -, -, -, ht⟩ := hr.extend_inv hs hk hv hext
    have hout :=
      (OpenFile.writeLocked_inv (f := { f with hdr := hdr }) (by rw [hm]; exact hsem) hv₁.on hv₁.nodup hw).2.1
    -- the sectors that the extension has added were free
    have hnew : x ∉ secs ++ nsecs := by
      intro hmem
      obtain hmem | hmem := List.mem_append.mp hmem
      · have h := hv.data x hmem
        rw [hx] at h
        exact hdata (Option.some.inj h)
      · have hnone := hr.no_role_of_free (ht.mem_free (List.mem_append_right _ hmem))
        rw [hx] at hnone
        cases hnone
    rw [hout x hnew, hframe]
  · rw [OpenFile.exec_write_within _ hn] at he
    have hout := (OpenFile.writeLocked_inv hsem hv.on hv.nodup he).2.1
    refine hout x fun hmem => ?_
    have h := hv.data x hmem
    rw [hx] at h
    exact hdata (Option.some.inj h)

lemma owned_frame (hr : Roles role k.disk (freeMapAt k.disk) kind handles) (hs : Sound fs k.disk kind)
    (hk : kind f.hdrSector = some .plain) (hv : View role k.disk f.hdrSector f.hdr bs secs)
    (hsem : k.maps .semaphoreWrite f.hdrSector = some 1)
    (he : exec (OpenFile.write fs.freeMapFile f src n) k = .ok ((r, f'), k')) {s : ℤ} (hks : kind s = some .plain)
    (hne : s ≠ f.hdrSector) (hx : x ∈ owned k.disk s) : k'.disk x = k.disk x := by
  have hself : ∀ {y}, role y = some (.block s) ∨ role y = some (.data s) → y ≠ f.hdrSector := by
    rintro y h rfl
    rw [hr.header hk] at h
    simp at h
  have hmap : s ≠ FreeMapSector := hs.plain_ne_map hks
  rcases hr.role_owned hks hx with ⟨rfl, h⟩ | h | h
  · exact hr.write_frame hs hk hv hsem he h hne (by simp) (by simp) (by simp)
  · exact hr.write_frame hs hk hv hsem he h (hself (.inl h)) (by simpa using hne) (by simp) (by simp)
  · exact hr.write_frame hs hk hv hsem he h (hself (.inr h)) (by simp) (by simpa using hne) (by simpa using hmap)

lemma perform_frame (actions : List Action) :
    ∀ {role : ℤ → Option Role} {k k' : Kernel} {f f' : OpenFile} {bs secs : List ℤ},
    Roles role k.disk (freeMapAt k.disk) kind handles → Sound fs k.disk kind → kind f.hdrSector = some .plain →
    View role k.disk f.hdrSector f.hdr bs secs → k.maps .semaphoreWrite f.hdrSector = some 1 →
    exec (NachosFileSys.perform fs.freeMapFile actions f) k = .ok (f', k') → ∀ {s : ℤ}, kind s = some .plain →
    s ≠ f.hdrSector → ∀ x ∈ owned k.disk s, k'.disk x = k.disk x := by
  induction actions with
  | nil =>
    intro role k k' f f' bs secs _ _ _ _ _ he s _ _ x _
    cases he
    rfl
  | cons action rest ih =>
    intro role k k' f f' bs secs hr hs hk hv hsem he s hks hne x hx
    cases action with
    | seek position => exact ih (f := f.seek position) hr hs hk hv hsem he hks hne x hx
    | write src numBytes =>
      obtain ⟨⟨r, f₁⟩, k₁, hw, he⟩ := exec_bind_ok.mp he
      have hframe : ∀ y ∈ owned k.disk s, k₁.disk y = k.disk y :=
        fun y hy => hr.owned_frame hs hk hv hsem hw hks hne hy
      obtain ⟨role₁, bs₁, secs₁, -, hr₁, hv₁, hs₁, hm₁, hsec₁, -⟩ := hr.write_inv hs hk hv hsem hw
      have howned := (owned_congr (hr.fileAt hks) hframe).2
      rw [← hsec₁] at hk hv₁ hsem hne
      rw [ih hr₁ hs₁ hk hv₁ (by rw [hm₁]; exact hsem) he hks hne x (by rw [howned]; exact hx), hframe x hx]

end Roles

namespace System

def Avoids (s : ℤ) (sys : System) : UserOp → Prop
  | .call (.session t path _) => ∀ dir name e, resolve sys.kernel.disk (components path) (sys.wd t) =
      some (dir, name) →
      lookupIn sys.kernel.disk dir name = some e → e.sector.toInt ≠ s
  | .call (.remove t path) => ∀ dir name e, resolve sys.kernel.disk (components path) (sys.wd t) =
      some (dir, name) →
      lookupIn sys.kernel.disk dir name = some e → e.sector.toInt ≠ s
  | .write i _ _ => ∀ f, sys.handles[i]? = some f → f.hdrSector ≠ s
  | _ => True

def LeadsTo (d : Disk) (path : CString) (s : ℤ) : Prop :=
  ∃ dir name e, resolve d (components path) DirectorySector = some (dir, name) ∧ lookupIn d dir name = some e ∧
    e.isDir = 0 ∧ e.sector.toInt = s

namespace Guarded

variable {sys sys' : System} {kind : ℤ → Option Kind} {role : ℤ → Option Role} {s : ℤ} {k : Kernel}

lemma session_frame (hg : sys.Guarded kind role) (hks : kind s = some .plain) {t : ℕ} {path : CString}
    {actions : List Action} {u : Unit} (hplain : sys.OnPlainFile t path)
    (hav : sys.Avoids s (.call (.session t path actions)))
    (he : exec (NachosFileSys.session sys.fs path (sys.wd t) actions) sys.kernel = .ok (u, k)) :
    ∀ x ∈ owned sys.kernel.disk s, k.disk x = sys.kernel.disk x := by
  have hs := hg.stable.sound
  rw [NachosFileSys.session] at he
  obtain ⟨r, k₁, ho, he⟩ := exec_bind_ok.mp he
  obtain ⟨hd₁, hx₁, hfound⟩ := hs.open_inv (hg.stable.wd t) ho
  have hg₁ := hg.same hd₁ hx₁
  cases r with
  | none =>
    cases he
    intro x _
    rw [hd₁]
  | some f =>
    obtain ⟨dir, name, e, hr, hlook, rfl, hkeys⟩ := hfound f rfl
    have hk : kind e.sector.toInt = some .plain := by
      rw [hs.kind_of_lookupIn (hs.kind_of_resolve _ (hg.stable.wd t) hr) hlook, DirectoryEntry.kind,
        if_pos (hplain dir name e hr hlook)]
    obtain ⟨f', k₂, hp, hc⟩ := exec_bind_ok.mp he
    have hv := hg₁.roles.file hk
    dsimp only at hv
    rw [hd₁] at hv
    have hsec : f'.hdrSector = e.sector.toInt := by
      obtain ⟨-, -, -, -, hsec, -⟩ :=
        hg₁.roles.perform (f := ⟨hdrAt sys.kernel.disk e.sector.toInt, 0, e.sector.toInt⟩)
        actions hg₁.stable.sound hk (by dsimp only; rw [hd₁]; exact hv)
        (hg₁.stable.rest.semaphoreWrite (hkeys _)) hp
      exact hsec
    obtain ⟨k₃, hc₃, hd₃, -⟩ := OpenFile.exec_close f' (by rw [hsec]; exact hs.plain_ne_map hk) k₂
    rw [hc₃] at hc
    cases hc
    have hframe := hg₁.roles.perform_frame (f := ⟨hdrAt sys.kernel.disk e.sector.toInt, 0, e.sector.toInt⟩) actions
      hg₁.stable.sound hk (by dsimp only; rw [hd₁]; exact hv) (hg₁.stable.rest.semaphoreWrite (hkeys _)) hp hks
      (hav dir name e hr hlook).symm
    dsimp only at hframe
    rw [hd₁] at hframe
    rw [hd₃]
    exact hframe

lemma call_frame (hg : sys.Guarded kind role) (hks : kind s = some .plain) {op : Op} (hop : sys.Regular op)
    (hav : sys.Avoids s (.call op)) (h : System.step op sys = .ok sys') :
    ∀ x ∈ owned sys.kernel.disk s, sys'.kernel.disk x = sys.kernel.disk x := by
  have hs := hg.stable.sound
  have hsame : ∀ {d : Disk}, d = sys.kernel.disk → ∀ x ∈ owned sys.kernel.disk s, d x = sys.kernel.disk x := by
    rintro d rfl x _
    rfl
  cases op with
  | create t path n =>
    obtain ⟨⟨b, k⟩, he, h⟩ := bind_eq_ok.mp h
    cases h
    obtain ⟨-, ⟨-, hd⟩ | ⟨-, dir, name, i, -, -, -, -, hinst, -⟩⟩ := hs.create_inv (hg.stable.wd t) he
    · exact hsame hd
    · exact hinst.files hks
  | makeDir t path n =>
    obtain ⟨⟨b, k⟩, he, h⟩ := bind_eq_ok.mp h
    cases h
    obtain ⟨-, ⟨-, hd⟩ | ⟨-, dir, name, i, -, -, -, hinst, -⟩⟩ := hs.makeDir_inv (hg.stable.wd t) hop.1 he
    · exact hsame hd
    · exact hinst.files hks
  | remove t path =>
    obtain ⟨⟨b, k⟩, he, h⟩ := bind_eq_ok.mp h
    cases h
    obtain ⟨-, ⟨-, hd⟩ | ⟨-, dir, name, e, i, hr, -, hlook, -, -, hu, -⟩⟩ :=
      hs.remove_inv (hg.stable.wd t) hg.stable.rest he
    · exact hsame hd
    · exact hu.files hks (hav dir name e hr hlook).symm
  | changeDir t path =>
    obtain ⟨⟨r, k⟩, he, h⟩ := bind_eq_ok.mp h
    cases h
    obtain ⟨k', he', hd, -⟩ := hs.exec_changeDir (hg.stable.wd t) rfl path
    rw [he'] at he
    cases he
    exact hsame hd
  | list t depth =>
    obtain ⟨⟨u, k⟩, he, h⟩ := bind_eq_ok.mp h
    cases h
    exact hsame (hs.list_inv (hg.stable.wd t) he).1
  | session t path actions =>
    obtain ⟨⟨u, k⟩, he, h⟩ := bind_eq_ok.mp h
    cases h
    exact hg.session_frame hks hop hav he
  | openFile t path =>
    obtain ⟨⟨r, k⟩, he, h⟩ := bind_eq_ok.mp h
    cases h
    exact hsame (hs.open_inv (hg.stable.wd t) he).1
  | close i =>
    rw [System.step] at h
    split at h
    · cases h
      exact hsame rfl
    · rename_i f hf
      obtain ⟨⟨u, k⟩, he, h⟩ := bind_eq_ok.mp h
      cases h
      obtain ⟨k', he', hd, -⟩ := OpenFile.exec_close f (hg.stable.handles f (List.mem_of_getElem? hf)) sys.kernel
      rw [he'] at he
      cases he
      exact hsame hd
  | restart =>
    obtain ⟨⟨fs', k⟩, he, h⟩ := bind_eq_ok.mp h
    cases h
    obtain ⟨fs'', k', he', hd, -⟩ := hs.exec_mount (k := reset sys.kernel) rfl
    rw [he'] at he
    cases he
    exact hsame hd

lemma keeps_file {op : UserOp} (hg : sys.Guarded kind role) (hks : kind s = some .plain)
    (hop : sys.UserPermitted op)
    (hav : sys.Avoids s op) (h : userStep op sys = .ok sys') :
    (∀ x ∈ owned sys.kernel.disk s, sys'.kernel.disk x = sys.kernel.disk x) ∧
      ∃ gone kind', Keeps gone sys.kernel.disk kind sys'.kernel.disk kind' ∧
        ∀ {dir name e}, lookupIn sys.kernel.disk dir name = some e → e.sector.toInt = s → ¬gone dir name := by
  cases op with
  | call op =>
    obtain ⟨kind', -, hkeeps, -⟩ := hg.stable.step hop.1 h
    refine ⟨hg.call_frame hks hop.1 hav h, _, kind', hkeeps, ?_⟩
    rintro dir name e hlook rfl ⟨t, path, name', k, rfl, hr, hkey, -⟩
    exact hav dir name' e hr ((lookupIn_congr hkey).symm.trans hlook) rfl
  | seek i position =>
    rw [userStep] at h
    split at h
    · cases h
      exact ⟨fun _ _ => rfl, _, kind, .refl _ _, fun _ _ => id⟩
    · cases h
      exact ⟨fun _ _ => rfl, _, kind, .refl _ _, fun _ _ => id⟩
  | write i src n =>
    rw [userStep] at h
    split at h
    · cases h
      exact ⟨fun _ _ => rfl, _, kind, .refl _ _, fun _ _ => id⟩
    · rename_i f hf
      obtain ⟨⟨⟨r, f'⟩, k⟩, he, h⟩ := bind_eq_ok.mp h
      cases h
      have hmem := List.mem_of_getElem? hf
      have hk := (hg.known f hmem).resolve_right (hop f hf)
      obtain ⟨bs, secs, hv⟩ := hg.roles.handle f hmem hk
      have hsem := hg.stable.rest.semaphoreWrite (hg.keys f hmem)
      obtain ⟨-, -, -, -, -, -, -, -, htab, -⟩ := hg.write hmem (hop f hf) he
      exact ⟨fun x hx => hg.roles.owned_frame hg.stable.sound hk hv hsem he hks (hav f hf).symm hx, _, kind,
        .of_tables htab, fun _ _ => id⟩

lemma leadsTo {op : UserOp} {path : CString} (hg : sys.Guarded kind role) (hl : LeadsTo sys.kernel.disk path s)
    (hop : sys.UserPermitted op) (hav : sys.Avoids s op) (h : userStep op sys = .ok sys') :
    LeadsTo sys'.kernel.disk path s ∧ ∀ x ∈ owned sys.kernel.disk s, sys'.kernel.disk x = sys.kernel.disk x := by
  obtain ⟨dir, name, e, hr, hlook, hplain, hsec⟩ := hl
  have hs := hg.stable.sound
  have hdir := hs.kind_of_resolve _ hs.names.root hr
  have hks : kind s = some .plain := by
    rw [← hsec, hs.kind_of_lookupIn hdir hlook, DirectoryEntry.kind, if_pos hplain]
  obtain ⟨hframe, gone, kind', hkeeps, hgone⟩ := hg.keeps_file hks hop hav h
  exact ⟨⟨dir, name, e, hkeeps.resolve hs _ hs.names.root hr,
    hkeeps.lookups hdir hlook (.inr (hgone hlook hsec)), hplain, hsec⟩, hframe⟩

lemma fileAt {path : CString} (hg : sys.Guarded kind role) (hl : LeadsTo sys.kernel.disk path s) :
    FileAt sys.kernel.disk s := by
  obtain ⟨dir, name, e, hr, hlook, -, rfl⟩ := hl
  have hs := hg.stable.sound
  exact hs.storage.file (hs.kind_of_lookupIn (hs.kind_of_resolve _ hs.names.root hr) hlook)

end Guarded

end System

lemma contentsAt_congr {d d' : Disk} {s : ℤ} (h : ∀ x ∈ owned d s, d' x = d x)
    (hb : (hdrAt d s).numBytes ≤ 128 * (dataAt d s).length) : contentsAt d' s = contentsAt d s := by
  have hhdr := hdrAt_congr (h s (mem_owned_self d s))
  have hdata := dataAt_congr (h s (mem_owned_self d s)) fun b hb => h b (mem_owned_block hb)
  rw [contentsAt, contentsAt, hhdr, hdata]
  apply bytesIn_congr
  intro q _ hq
  have hlen : (hdrAt d s).fileLength = (hdrAt d s).numBytes := rfl
  apply byteIn_congr (by omega)
  intro x hx
  exact h x (mem_owned_data hx)

/-- In every run of calls of users, none of which writes to the file to which a path leads or removes it, the path
goes on leading to the file, and the file keeps its header, its sectors and what they hold: whatever is created,
written through other handles, old or new, removed or mounted again meanwhile. -/
theorem file_isolated (sys sys' : System) (h : sys.UserReachable) (path : CString) (s : ℤ)
    (hl : System.LeadsTo sys.kernel.disk path s)
    (hrun : Reaches (fun op a b => System.userStep op a = .ok b)
    (fun a op => a.UserPermitted op ∧ a.Avoids s op) sys sys') :
    System.LeadsTo sys'.kernel.disk path s ∧ owned sys'.kernel.disk s = owned sys.kernel.disk s ∧
      (∀ x ∈ owned sys.kernel.disk s, sys'.kernel.disk x = sys.kernel.disk x) ∧
      ((hdrAt sys.kernel.disk s).numBytes ≤ 128 * (dataAt sys.kernel.disk s).length →
        contentsAt sys'.kernel.disk s = contentsAt sys.kernel.disk s) := by
  obtain ⟨kind, role, hg⟩ := h.guarded
  have hfile := hg.fileAt hl
  have hinv : (∃ kind role, sys'.Guarded kind role) ∧ System.LeadsTo sys'.kernel.disk path s ∧
      ∀ x ∈ owned sys.kernel.disk s, sys'.kernel.disk x = sys.kernel.disk x := by
    apply hrun.invariant (I := fun σ => (∃ kind role, σ.Guarded kind role) ∧ System.LeadsTo σ.kernel.disk path s ∧
      ∀ x ∈ owned sys.kernel.disk s, σ.kernel.disk x = sys.kernel.disk x)
    · rintro op a b ⟨⟨kind, role, hg⟩, hla, hframe⟩ ⟨hop, hav⟩ hstep
      obtain ⟨hlb, hframe'⟩ := hg.leadsTo hla hop hav hstep
      rw [(owned_congr hfile hframe).2] at hframe'
      exact ⟨hg.step hop hstep, hlb, fun x hx => (hframe' x hx).trans (hframe x hx)⟩
    · exact ⟨⟨kind, role, hg⟩, hl, fun _ _ => rfl⟩
  obtain ⟨-, hl', hframe⟩ := hinv
  exact ⟨hl', (owned_congr hfile hframe).2, hframe, contentsAt_congr hframe⟩

theorem file_isolated_mounted_again : ∃ (sys sys' : System) (s : ℤ),
    System.userStep (.call .restart) sys = .ok sys' ∧ System.LeadsTo sys'.kernel.disk pathF s ∧
      ∀ x ∈ owned sys.kernel.disk s, sys'.kernel.disk x = sys.kernel.disk x := by
  obtain ⟨sys₀, k, i, hb, hf, hst, hwd, hcreate, -, hi, hinst, hs, -⟩ := System.boot_create
  have hin := inDisk_of_free (mem_sectors_of_head hi)
  have hroom := freeSlot_of_unused (by rw [hf.slots]; decide) hf.unused
  obtain ⟨e, hlook, hsec, hplain⟩ := hinst.lookupIn_eq hin (hf.lookupIn_root _) hroom
  have hstep : System.userStep (.call (.create 0 pathF 0)) sys₀ = .ok { sys₀ with kernel := k } := by
    rw [System.userStep, System.step, hcreate]
    rfl
  have hreach : System.UserReachable { sys₀ with kernel := k } :=
    ⟨Kernel.blank, sys₀, hb, .step (.call (.create 0 pathF 0)) .refl ⟨show int32 0 = 0 by decide, trivial⟩ hstep⟩
  have hl : System.LeadsTo k.disk pathF i := ⟨DirectorySector, pathF, e, rfl, hlook, hplain, hsec⟩
  obtain ⟨fs', k', hmount, -⟩ := hs.exec_mount (k := System.reset k) rfl
  have hrestart : System.userStep (.call .restart) { sys₀ with kernel := k } =
      .ok ⟨fs', k', fun _ => DirectorySector, []⟩ := by
    rw [System.userStep, System.step]
    dsimp only
    rw [hmount]
    rfl
  obtain ⟨hl', -, hframe, -⟩ :=
    file_isolated { sys₀ with kernel := k } ⟨fs', k', fun _ => DirectorySector, []⟩ hreach
    pathF i hl (.step (.call .restart) .refl ⟨⟨trivial, trivial⟩, trivial⟩ hrestart)
  exact ⟨_, _, i, hrestart, hl', hframe⟩

end NachosFileSys
