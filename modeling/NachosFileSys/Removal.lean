import NachosFileSys.MakeDirectory

namespace NachosFileSys

open Lib.Programs Lib.Bytes

namespace FileSystem

def removeIn (fs : FileSystem) (wdSector : ℤ) (name : CString) : Nachos Bool := do
  let dirFile ← OpenFile.new wdSector
  let directory ← fetchDirectory dirFile
  let sector := directory.find name
  if sector = -1 then
    dirFile.close
    pure false
  else if directory.isDirectory name then
    dirFile.close
    pure false
  else
    let fileHdr ← FileHeader.fetchFrom sector
    let freeMap ← fs.fetchFreeMap
    let (_, freeMap) ← fileHdr.deallocate freeMap
    let freeMap ← lift (freeMap.clear sector)
    let directory := (directory.remove name).2
    freeMap.writeBack fs.freeMapFile
    directory.writeBack dirFile
    dirFile.close
    pure true

lemma remove_eq (fs : FileSystem) (path : CString) (wdSector : ℤ) :
    fs.remove path wdSector = (do
      let (wdSector, name) ← parsePath path wdSector
      if wdSector < 0 then pure false
      else
        let count ← NachosFileSys.find .openFileCount wdSector
        if count.any (0 < ·) then pure false else fs.removeIn wdSector name) := rfl

end FileSystem

lemma exec_fetchDirectory {fs : FileSystem} {d : Disk} {kind : ℤ → Option Kind} (hs : Grounded fs d kind) {s : ℤ}
    (hk : kind s = some .dir) (hu : CutUnused d s) {k : Kernel} (hd : k.disk = d) (pos : ℤ) :
    ∃ dir k', exec (fetchDirectory ⟨hdrAt d s, pos, s⟩) k = .ok (dir, k') ∧ k'.disk = d ∧ k'.maps = k.maps ∧
      Loaded (tableAt d s) dir := by
  obtain ⟨dir, k₁, h₁, hd₁, hm₁, hlen, hnew⟩ := Directory.exec_new k
  obtain ⟨dir', h₂, hl⟩ := hs.exec_loadDirectory hk hu (hd₁.trans hd) hlen hnew pos
  exact ⟨dir', k₁, by rw [fetchDirectory, exec_bind_of_ok h₁, h₂], hd₁.trans hd, hm₁, hl⟩

structure Unlinked (d : Disk) (kind : ℤ → Option Kind) (s : ℤ) (i : ℕ) (e : DirectoryEntry) (d' : Disk) :
    Prop where
  entry : (tableAt d s)[i]? = some e
  table : tableAt d' s = (tableAt d s).set i { e with inUse := 0 }
  others : ∀ {x}, kind x = some .dir → x ≠ s → tableAt d' x = tableAt d x
  hdrs : ∀ {x c'}, kind x = some c' → hdrAt d' x = hdrAt d x
  datas : ∀ {x c'}, kind x = some c' → x ≠ e.sector.toInt → dataAt d' x = dataAt d x
  files : ∀ {x}, kind x = some .plain → x ≠ e.sector.toInt → ∀ y ∈ owned d x, d' y = d y
  spared : ∀ y, y ∉ dataAt d s → y ∉ dataAt d FreeMapSector → d' y = d y
  cleared : ∃ freed, Cleared (freeMapAt d) (freeMapAt d') freed ∧ freed ⊆ owned d e.sector.toInt ∧
    ((blocksAt d e.sector.toInt).length ≤ (hdrAt d e.sector.toInt).numSectors.toNat →
      owned d e.sector.toInt ⊆ freed)
  unused : CutUnused d' s

namespace Sound

variable {fs : FileSystem} {d : Disk} {kind : ℤ → Option Kind} {s wd : ℤ} {name path : CString} {k : Kernel}
  {e : DirectoryEntry}

lemma exec_remove_none (hs : Sound fs d kind) (hwd : kind wd = some .dir) (hd : k.disk = d)
    (hr : resolve d (components path) wd = none) :
    ∃ k', exec (fs.remove path wd) k = .ok (false, k') ∧ k'.disk = d ∧ Extends k.maps k'.maps := by
  obtain ⟨k', hd', hx, he⟩ := hs.exec_enter_none hwd hd hr false fun wdSector name => do
    let count ← NachosFileSys.find .openFileCount wdSector
    if count.any (0 < ·) then pure false else fs.removeIn wdSector name
  exact ⟨k', he, hd', hx⟩

lemma exec_remove_enter (hs : Sound fs d kind) (hwd : kind wd = some .dir)
    (hd : k.disk = d) (hrest : AtRest k.maps)
    (hr : resolve d (components path) wd = some (s, name)) :
    ∃ k', k'.disk = d ∧ Extends k.maps k'.maps ∧
      exec (fs.remove path wd) k =
        if HeldOpen k.maps s then .ok (false, k') else exec (fs.removeIn s name) k' := by
  have hks := hs.kind_of_resolve _ hwd hr
  obtain ⟨k₁, h₁, hd₁, hx₁, hh₁⟩ := hs.exec_walk (components path) hwd hd
  have hheld := (hh₁ hrest (by rw [hr]; rfl)).heldOpen s
  have h0 : ¬s < 0 := not_lt.mpr (hs.inDisk hks).1
  rw [hr, Option.getD_some] at h₁
  refine ⟨k₁, hd₁, hx₁, ?_⟩
  rw [FileSystem.remove_eq, parsePath, exec_bind_of_ok h₁]
  dsimp only
  rw [if_neg h0, exec_bind_of_ok (exec_find _ _ _), ← hheld, HeldOpen]
  split
  · rw [exec_pure]
  · rfl

lemma exec_remove_held (hs : Sound fs d kind) (hwd : kind wd = some .dir) (hd : k.disk = d) (hrest : AtRest k.maps)
    (hr : resolve d (components path) wd = some (s, name)) (hh : HeldOpen k.maps s = true) :
    ∃ k', exec (fs.remove path wd) k = .ok (false, k') ∧ k'.disk = d ∧ Extends k.maps k'.maps := by
  obtain ⟨k', hd', hx, he⟩ := hs.exec_remove_enter hwd hd hrest hr
  exact ⟨k', by rw [he, if_pos hh], hd', hx⟩

lemma exec_remove_other (hs : Sound fs d kind) (hwd : kind wd = some .dir)
    (hd : k.disk = d) (hrest : AtRest k.maps)
    (hr : resolve d (components path) wd = some (s, name)) (hh : HeldOpen k.maps s = false)
    (ho : ∀ e, lookupIn d s name = some e → e.isDir ≠ 0) :
    ∃ k', exec (fs.remove path wd) k = .ok (false, k') ∧ k'.disk = d ∧ Extends k.maps k'.maps := by
  have hks := hs.kind_of_resolve _ hwd hr
  obtain ⟨k₁, hd₁, hx₁, he⟩ := hs.exec_remove_enter hwd hd hrest hr
  obtain ⟨k₂, h₂, hd₂, hx₂, -⟩ := hs.exec_openDirectory hks hd₁
  obtain ⟨dir, k₃, h₃, hd₃, hm₃, hl⟩ := exec_fetchDirectory hs.toGrounded hks (hs.unused hks) hd₂ 0
  obtain ⟨k', hc, hd', hx'⟩ := exec_close_false ⟨hdrAt d s, 0, s⟩ (hs.dir_ne_map hks) k₃
  refine ⟨k', ?_, hd'.trans hd₃, hx₁.trans (hx₂.trans (hm₃ ▸ hx'))⟩
  rw [he, if_neg (by simp [hh]), FileSystem.removeIn, exec_bind_of_ok h₂, exec_bind_of_ok h₃]
  dsimp only
  cases hlook : lookupIn d s name with
  | none => rw [if_pos (find_none hl hlook), hc]
  | some e =>
    have hdir : dir.isDirectory name = true := by
      rw [hl.isDirectory_eq, hlook]
      simpa using ho e hlook
    rw [if_neg (hs.find_ne hks hl hlook), if_pos hdir, hc]

lemma exec_remove_plain (hs : Sound fs d kind) (hwd : kind wd = some .dir)
    (hd : k.disk = d) (hrest : AtRest k.maps)
    (hr : resolve d (components path) wd = some (s, name)) (hh : HeldOpen k.maps s = false)
    (hlook : lookupIn d s name = some e) (hplain : e.isDir = 0) :
    ∃ dir k', k'.disk = d ∧ Extends k.maps k'.maps ∧ Loaded (tableAt d s) dir ∧
      exec (fs.remove path wd) k =
        exec (do
          let (_, freeMap) ← (hdrAt d e.sector.toInt).deallocate (freeMapAt d)
          let freeMap ← lift (freeMap.clear e.sector.toInt)
          freeMap.writeBack fs.freeMapFile
          (dir.remove name).2.writeBack ⟨hdrAt d s, 0, s⟩
          (OpenFile.mk (hdrAt d s) 0 s).close
          pure true) k' := by
  have hks := hs.kind_of_resolve _ hwd hr
  have hkh := hs.kind_of_lookupIn hks hlook
  obtain ⟨k₁, hd₁, hx₁, he⟩ := hs.exec_remove_enter hwd hd hrest hr
  obtain ⟨k₂, h₂, hd₂, hx₂, -⟩ := hs.exec_openDirectory hks hd₁
  obtain ⟨dir, k₃, h₃, hd₃, hm₃, hl⟩ := exec_fetchDirectory hs.toGrounded hks (hs.unused hks) hd₂ 0
  refine ⟨dir, k₃, hd₃, hx₁.trans (hm₃ ▸ hx₂), hl, ?_⟩
  subst hd₃
  have hsec : dir.find name = e.sector.toInt := by
    rw [hl.find_eq, hlook]
    rfl
  have hdir : ¬dir.isDirectory name = true := by
    rw [hl.isDirectory_eq, hlook]
    simpa using hplain
  have hfetch : exec (FileHeader.fetchFrom e.sector.toInt) k₃ = .ok (hdrAt k₃.disk e.sector.toInt, k₃) := by
    rw [FileHeader.fetchFrom, exec_bind_of_ok (exec_read_inDisk (hs.inDisk hkh) k₃)]
    rfl
  rw [he, if_neg (by simp [hh]), FileSystem.removeIn, exec_bind_of_ok h₂, exec_bind_of_ok h₃]
  dsimp only
  rw [if_neg (hs.find_ne hks hl hlook), if_neg hdir, hsec, exec_bind_of_ok hfetch,
    exec_bind_of_ok (exec_fetchFreeMap hs.storage hs.mapFile hs.mapSector)]

lemma exec_remove_outside (hs : Sound fs d kind) (hwd : kind wd = some .dir)
    (hd : k.disk = d) (hrest : AtRest k.maps)
    (hr : resolve d (components path) wd = some (s, name)) (hh : HeldOpen k.maps s = false)
    (hlook : lookupIn d s name = some e) (hplain : e.isDir = 0)
    (hmany : (NumDirect : ℤ) < (hdrAt d e.sector.toInt).numSectors) (x : Bool × Kernel) :
    exec (fs.remove path wd) k ≠ .ok x := by
  have hkh := hs.kind_of_lookupIn (hs.kind_of_resolve _ hwd hr) hlook
  obtain ⟨dir, k', -, -, -, he⟩ := hs.exec_remove_plain hwd hd hrest hr hh hlook hplain
  rcases x with ⟨b, k''⟩
  rw [he]
  intro hok
  obtain ⟨⟨_, m₁⟩, t, ha, -⟩ := exec_bind_ok.mp hok
  rw [FileHeader.deallocate] at ha
  obtain ⟨x, t', ha, -⟩ := exec_bind_ok.mp ha
  refine FileHeader.deallocateLoop_outside _ _ ?_ _ _ _ ha
  rw [(hs.storage.file hkh).on.length]
  omega

lemma exec_free (hs : Sound fs d kind) {h : ℤ} (hk : kind h = some .plain) {k : Kernel} (hd : k.disk = d)
    (hfew : (hdrAt d h).numSectors ≤ (NumDirect : ℤ)) :
    ∃ hdr m₁ m₂ freed, exec ((hdrAt d h).deallocate (freeMapAt d)) k = .ok ((hdr, m₁), k) ∧ m₁.clear h = .ok m₂ ∧
      Cleared (freeMapAt d) m₂ freed ∧ freed ⊆ owned d h ∧
      ((blocksAt d h).length ≤ (hdrAt d h).numSectors.toNat → owned d h ⊆ freed) ∧
      Storage d m₂ (Function.update kind h none) := by
  subst hd
  have hfile := hs.storage.file hk
  obtain ⟨slots, freed, m₁, he, hc₁, hsub, hall⟩ := FileHeader.deallocateLoop_spec (k := k) hfile.on.stored
    (hdrAt k.disk h).numSectors.toNat (freeMapAt k.disk) (by rw [hfile.on.length]; omega)
    (fun x hx => hs.storage.marked hk x (List.mem_cons_of_mem _ hx)) (hs.storage.data_nodup hk)
  obtain ⟨m₂, hclear, hc₂⟩ := Cleared.clear (m := m₁) hfile.inDisk
  have hfreed : freed ++ [h] ⊆ owned k.disk h := by
    intro x hx
    rcases List.mem_append.mp hx with hx | hx
    · exact List.mem_cons_of_mem _ (hsub hx)
    · rw [List.mem_singleton.mp hx]
      exact mem_owned_self _ _
  refine ⟨{ hdrAt k.disk h with dataSectors := slots }, m₁, m₂, freed ++ [h], ?_, hclear, hc₁.trans hc₂, hfreed,
    fun hle x hx => ?_, hs.storage.drop hk (hs.plain_ne_map hk) (freed ++ [h]) hfreed (hc₁.trans hc₂)⟩
  · rw [FileHeader.deallocate, exec_bind_of_ok he]
    rfl
  · rcases List.mem_cons.mp hx with rfl | hx
    · exact List.mem_append_right _ (List.mem_singleton.mpr rfl)
    · exact List.mem_append_left _ (hall hle hx)

lemma exec_unlink (hs : Sound fs d kind) (hks : kind s = some .dir) (hd : k.disk = d) {dir : Directory}
    (hl : Loaded (tableAt d s) dir) (hlook : lookupIn d s name = some e) (hkh : kind e.sector.toInt = some .plain)
    {m : FreeMap} {freed : List ℤ} (hc : Cleared (freeMapAt d) m freed) (hsub : freed ⊆ owned d e.sector.toInt)
    (hall : (blocksAt d e.sector.toInt).length ≤ (hdrAt d e.sector.toInt).numSectors.toNat →
      owned d e.sector.toInt ⊆ freed) (hst : Storage d m (Function.update kind e.sector.toInt none)) :
    ∃ i k₁ k', exec (m.writeBack fs.freeMapFile) k = .ok ((), k₁) ∧
      exec ((dir.remove name).2.writeBack ⟨hdrAt d s, 0, s⟩) k₁ = .ok ((), k') ∧ k'.maps = k.maps ∧
      Unlinked d kind s i e k'.disk ∧
      Storage k'.disk (freeMapAt k'.disk) (Function.update kind e.sector.toInt none) := by
  subst hd
  have hkind : ∀ {x c'}, kind x = some c' → c' ≠ .plain →
      Function.update kind e.sector.toInt none x = some c' := by
    intro x c' hkx hc
    rw [Function.update_of_ne]
    · exact hkx
    · rintro rfl
      rw [hkh] at hkx
      cases hkx
      exact hc rfl
  have hkm := hkind hs.storage.map (by simp)
  have hksd := hkind hks (by simp)
  obtain ⟨k₁, h₁, hm₁, hout₁, hmap₁⟩ := exec_writeBack_map hst hs.mapFile hs.mapSector m
  have hst₁ := hst.write hkm hout₁
  have hstr₁ := hst.structure_of_write hkm hout₁ hksd
  have hhdr₁ : hdrAt k₁.disk s = hdrAt k.disk s := hdrAt_congr hstr₁.1
  have hdata₁ : dataAt k₁.disk s = dataAt k.disk s := dataAt_congr hstr₁.1 hstr₁.2
  obtain ⟨i, hentry, htake, hlen, hunused⟩ := Directory.remove_spec hl hlook
  have hcur : (OpenFile.mk (hdrAt k.disk s) 0 s).Current k₁.disk := hhdr₁.symm
  obtain ⟨k', h₂, hm₂, hout₂, htab₂, hbytes₂⟩ := exec_writeBack_directory (hst₁.file hksd)
    (by rw [hhdr₁, hdata₁]; exact hs.backed hks) (hst₁.nodup hksd) hcur rfl
    (dir.remove name).2 hlen.ge (by rw [hlen]; decide)
  rw [hdata₁] at hout₂ hbytes₂
  rw [hhdr₁] at htab₂ hbytes₂
  have hmap₂ : freeMapAt k'.disk = m := by
    rw [hst₁.freeMapAt_of_write hksd (hs.dir_ne_map hks) (by rw [hdata₁]; exact hout₂), hmap₁]
  -- the two writes change the data of the free map and of the directory only
  have hspared : ∀ y, y ∉ dataAt k.disk s → y ∉ dataAt k.disk FreeMapSector → k'.disk y = k.disk y := by
    intro y hys hy0
    rw [hout₂ y hys, hout₁ y hy0]
  have hfiles : ∀ {x c'}, kind x = some c' → x ≠ s → c' ≠ .map → ∀ y ∈ owned k.disk x, k'.disk y = k.disk y := by
    intro x c' hkx hxs hc y hy
    exact hspared y (fun h => hs.storage.apart hkx hks hxs y hy (mem_owned_data h)) fun h =>
      hs.storage.apart hkx hs.storage.map (hs.ne_map hkx hc) y hy (mem_owned_data h)
  have hstr : ∀ {x c'}, kind x = some c' → k'.disk x = k.disk x ∧
      ∀ b ∈ blocksAt k.disk x, k'.disk b = k.disk b := by
    intro x c' hkx
    have hs' := hs.storage.structure_not_data hks hkx
    have hm' := hs.storage.structure_not_data hs.storage.map hkx
    exact ⟨hspared x hs'.1 hm'.1, fun b hb => hspared b (hs'.2 b hb) (hm'.2 b hb)⟩
  refine ⟨i, k₁, k', h₁, h₂, hm₂.trans hm₁, ⟨hentry, ?_, fun hkx hxs => ?_, fun hkx => hdrAt_congr (hstr hkx).1,
    fun hkx _ => dataAt_congr (hstr hkx).1 (hstr hkx).2, fun hkx _ => hfiles hkx ?_ (by decide), hspared,
    ⟨freed, by rw [hmap₂]; exact hc, hsub, hall⟩, fun hcut => ?_⟩, ?_⟩
  · rw [htab₂, ← tableAt_length, htake]
  · exact tableAt_congr (hs.backed hkx) (hfiles hkx hxs (by decide))
  · rintro rfl
    rw [hks] at hkx
    cases hkx
  · have hhdr : hdrAt k'.disk s = hdrAt k.disk s := hdrAt_congr (hstr hks).1
    rw [hhdr] at hcut
    have hlt := (cuts_iff _).mp hcut
    have hslot : slotsIn (hdrAt k.disk s).numBytes < (dir.remove name).2.table.length := by
      simp only [EntrySize, NumDirEntries] at hlt hlen
      omega
    rw [tableAt_length] at hunused
    rw [← hunused _ (List.getElem?_eq_getElem hslot)]
    refine cutInUse_of_bytes (by rw [hhdr]; exact hcut) (fun q hq => ?_)
        (by rw [hhdr]; exact List.getElem?_eq_getElem hslot)
    rw [hhdr] at hq
    rw [dataAt_congr (hstr hks).1 (hstr hks).2, hbytes₂ q hq]
  · rw [hmap₂]
    exact hst₁.write hksd (by rw [hdata₁]; exact hout₂)

lemma sound_of_unlinked (hs : Sound fs d kind) (hks : kind s = some .dir) (hlook : lookupIn d s name = some e)
    (hplain : e.isDir = 0) {i : ℕ} {d' : Disk} (hu : Unlinked d kind s i e d')
    (hst : Storage d' (freeMapAt d') (Function.update kind e.sector.toInt none)) :
    Sound fs d' (Function.update kind e.sector.toInt none) := by
  have hold : ∀ {x c'}, Function.update kind e.sector.toInt none x = some c' →
      kind x = some c' ∧ x ≠ e.sector.toInt := by
    intro x c' hkx
    by_cases hxe : x = e.sector.toInt
    · rw [hxe, Function.update_self] at hkx
      cases hkx
    · exact ⟨by rwa [Function.update_of_ne hxe] at hkx, hxe⟩
  refine ⟨⟨hst, ?_, fun hkx => ?_, ?_, hs.mapSector⟩, fun {x} hkx hcut => ?_⟩
  · refine (hs.names.unlink hks hu.entry (lookupIn_spec hlook).2.1 hplain).congr fun x hkx => ?_
    by_cases hxs : x = s
    · rw [hxs, Function.update_self]
      exact hu.table
    · rw [Function.update_of_ne hxs]
      exact hu.others (hold hkx).1 hxs
  · rw [hu.hdrs (hold hkx).1, hu.datas (hold hkx).1 (hold hkx).2]
    exact hs.backed (hold hkx).1
  · have h := hs.mapFile
    rw [OpenFile.Current, hs.mapSector] at h ⊢
    rw [hu.hdrs hs.storage.map]
    exact h
  · by_cases hxs : x = s
    · subst hxs
      exact hu.unused hcut
    · have hkx := (hold hkx).1
      rw [hu.hdrs hkx] at hcut
      rw [cutInUse_congr (hs.backed hkx) (fun y hy => ?_) hcut]
      · exact hs.unused hkx hcut
      · exact hu.spared y (fun h => hs.storage.apart hkx hks hxs y hy (mem_owned_data h)) fun h =>
          hs.storage.apart hkx hs.storage.map (hs.dir_ne_map hkx) y hy (mem_owned_data h)

lemma exec_remove_succeeds (hs : Sound fs d kind) (hwd : kind wd = some .dir)
    (hd : k.disk = d) (hrest : AtRest k.maps)
    (hr : resolve d (components path) wd = some (s, name)) (hh : HeldOpen k.maps s = false)
    (hlook : lookupIn d s name = some e) (hplain : e.isDir = 0)
    (hfew : (hdrAt d e.sector.toInt).numSectors ≤ (NumDirect : ℤ)) :
    ∃ i k', exec (fs.remove path wd) k = .ok (true, k') ∧ Extends k.maps k'.maps ∧ Unlinked d kind s i e k'.disk ∧
      Sound fs k'.disk (Function.update kind e.sector.toInt none) := by
  have hks := hs.kind_of_resolve _ hwd hr
  have hkh : kind e.sector.toInt = some .plain := by
    rw [hs.kind_of_lookupIn hks hlook, DirectoryEntry.kind, if_pos hplain]
  obtain ⟨dir, k₁, hd₁, hx₁, hl, he⟩ := hs.exec_remove_plain hwd hd hrest hr hh hlook hplain
  obtain ⟨hdr, m₁, m₂, freed, hdealloc, hclear, hc, hsub, hall, hst⟩ := hs.exec_free hkh hd₁ hfew
  obtain ⟨i, k₂, k₃, h₂, h₃, hm, hu, hst'⟩ := hs.exec_unlink hks hd₁ hl hlook hkh hc hsub hall hst
  obtain ⟨k', h₄, hd', hx', -⟩ := OpenFile.exec_close ⟨hdrAt d s, 0, s⟩ (hs.dir_ne_map hks) k₃
  rw [← hd'] at hu hst'
  refine ⟨i, k', ?_, hx₁.trans (by rw [← hm]; exact hx'), hu, hs.sound_of_unlinked hks hlook hplain hu hst'⟩
  rw [he, exec_bind_of_ok hdealloc]
  dsimp only
  rw [hclear, exec_bind_of_ok (exec_lift_ok _ _), exec_bind_of_ok h₂,
      exec_bind_of_ok h₃, exec_bind_of_ok h₄, exec_pure]

end Sound

end NachosFileSys
