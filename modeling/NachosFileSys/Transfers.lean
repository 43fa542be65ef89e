import NachosFileSys.AddrSpace
import NachosFileSys.Coherence

namespace NachosFileSys

open Lib.Programs Lib.Bytes Lib.Runs

namespace OpenFile

def writeAll (freeMapFile : OpenFile) : OpenFile → List (List Byte) → Nachos (List ℤ × OpenFile)
  | f, [] => pure ([], f)
  | f, chunk :: chunks => do
    let (result, f) ← write freeMapFile f chunk chunk.length
    let (results, f) ← writeAll freeMapFile f chunks
    pure (result :: results, f)

def readAll : OpenFile → List ℕ → Nachos (List (List Byte) × OpenFile)
  | f, [] => pure ([], f)
  | f, size :: sizes => do
    let (bytes, f) ← f.read size
    let (rest, f) ← readAll f sizes
    pure (bytes :: rest, f)

end OpenFile

def pieces : List Byte → List ℕ → List (List Byte)
  | _, [] => []
  | bytes, size :: sizes => bytes.take size :: pieces (bytes.drop size) sizes

/-- Before the end of the file no size that is asked for leads to a position that is not an `int`. -/
def IntSizes (len : ℕ) : ℕ → List ℕ → Prop
  | _, [] => True
  | p, size :: sizes => (p < len → p + size < 2147483648) ∧ IntSizes len (min (p + size) len) sizes

namespace OpenFile

variable {fs : FileSystem} {kind : ℤ → Option Kind} {s : ℤ} {k k' : Kernel} {f f' : OpenFile} {p : ℕ}

structure Handy (fs : FileSystem) (kind : ℤ → Option Kind) (s : ℤ) (f : OpenFile) (p : ℕ) (k : Kernel) : Prop where
  shared : Shared fs kind s k.disk []
  current : f.Current k.disk
  sector : f.hdrSector = s
  seek : f.seekPosition = p
  rest : AtRest k.maps
  keys : ∀ m, k.maps m s ≠ none

namespace Handy

lemma trails (h : Handy fs kind s f p k) : f.Trails k.disk s :=
  h.current.trails h.sector (h.shared.sound.storage.file h.shared.plain) h.shared.backed

lemma hdr (h : Handy fs kind s f p k) : f.hdr = hdrAt k.disk s := by
  have hcur := h.current
  rw [Current, h.sector] at hcur
  exact hcur

lemma semaphoreWrite (h : Handy fs kind s f p k) : k.maps .semaphoreWrite s = some 1 :=
  h.rest.semaphoreWrite (h.keys _)

lemma write (src : List Byte) (h : Handy fs kind s f p k) (hp : p + src.length < 2147483648) (hsrc : src ≠ [])
    (hlen : f.hdr.fileLength = p ∨ (p + src.length : ℤ) ≤ f.hdr.fileLength) :
    exec (OpenFile.write fs.freeMapFile f src src.length) k = .error .assertion ∨
      ∃ f' k', exec (OpenFile.write fs.freeMapFile f src src.length) k = .ok (((src.length : ℕ), f'), k') ∧
        Handy fs kind s f' (p + src.length) k' ∧
        contentsAt k'.disk s = SharedFile.put (contentsAt k.disk s) p src ∧
        SameDirs kind k.disk k'.disk := by
  have hpos : 0 < src.length := List.length_pos_of_ne_nil hsrc
  have hsum : int32 (f.seekPosition + src.length) = p + src.length := by
    rw [h.seek, int32_of_bounds (by omega) (by omega)]
  -- what is left to show when the handle may write
  have hdone : f.WritesAll k.disk src → ∃ f' k',
      exec (OpenFile.write fs.freeMapFile f src src.length) k = .ok (((src.length : ℕ), f'), k') ∧
        Handy fs kind s f' (p + src.length) k' ∧
        contentsAt k'.disk s = SharedFile.put (contentsAt k.disk s) p src ∧
        SameDirs kind k.disk k'.disk := by
    intro hw
    obtain ⟨f', k', he, hseek, hm, hshared, -, hc⟩ := h.shared.exec_write h.trails h.semaphoreWrite h.seek hw
    have hplain := h.shared.plain
    rw [← h.sector] at hplain
    obtain ⟨-, -, hcur, hsec, htab, -⟩ :=
      h.shared.sound.write_inv hplain h.current (by rw [h.sector]; exact h.semaphoreWrite) he
    exact ⟨f', k', he,
      ⟨hshared, hcur, hsec.trans h.sector, hseek, by rw [hm]; exact h.rest, by rw [hm]; exact h.keys⟩,
      hc, htab⟩
  by_cases hin : (p + src.length : ℤ) ≤ f.hdr.fileLength
  · refine .inr (hdone (.inr ⟨by rw [h.seek]; omega, by rw [h.seek]; omega, ?_⟩))
    rw [h.seek, if_pos hin]
    exact .inl h.current
  · have hend := hlen.resolve_right hin
    by_cases hfit : Fits (dataAt k.disk f.hdrSector).length src.length (freeMapAt k.disk).free.length
    · refine .inr (hdone (.inr ⟨by rw [h.seek]; omega, by rw [h.seek]; omega, ?_⟩))
      rw [h.seek, if_neg hin]
      exact ⟨h.current, .inr hend.symm, hfit⟩
    · left
      have hplain := h.shared.plain
      rw [← h.sector] at hplain
      have hfollows := h.current.follows (h.shared.sound.storage.file hplain)
      have hbeyond : int32 (f.seekPosition + src.length) > f.hdr.fileLength := by
        rw [hsum]
        omega
      have hextend :=
        exec_extend_aborts h.shared.sound.storage h.shared.sound.mapFile h.shared.sound.mapSector hplain
        hfollows hfit
      exact (exec_write_beyond fs.freeMapFile hbeyond src k).trans (exec_bind_of_error hextend _)

lemma length_contents (h : Handy fs kind s f p k) : (contentsAt k.disk s).length = f.hdr.fileLength.toNat := by
  rw [contentsAt_length, h.hdr]

lemma writeAll (chunks : List (List Byte)) : ∀ {f : OpenFile} {k : Kernel} {p : ℕ}, Handy fs kind s f p k →
    0 ≤ f.hdr.fileLength → (∀ c ∈ chunks, c ≠ []) → p + chunks.flatten.length < 2147483648 →
    (contentsAt k.disk s).length = p ∨ (contentsAt k.disk s).length = p + chunks.flatten.length →
    exec (OpenFile.writeAll fs.freeMapFile f chunks) k = .error .assertion ∨
      ∃ f' k', exec (OpenFile.writeAll fs.freeMapFile f chunks) k =
          .ok ((chunks.map fun c => (c.length : ℤ), f'), k') ∧
        Handy fs kind s f' (p + chunks.flatten.length) k' ∧ 0 ≤ f'.hdr.fileLength ∧
        contentsAt k'.disk s = (contentsAt k.disk s).take p ++ chunks.flatten ∧
        SameDirs kind k.disk k'.disk := by
  induction chunks with
  | nil =>
    intro f k p h hnn _ _ hlen
    refine .inr ⟨f, k, rfl, h, hnn, ?_, .refl _ _⟩
    have hp : (contentsAt k.disk s).length ≤ p := by
      obtain hlen | hlen := hlen
      · exact hlen.le
      · exact hlen.le
    simp [List.take_of_length_le hp]
  | cons chunk chunks ih =>
    intro f k p h hnn hne hlt hlen
    rw [List.flatten_cons, List.length_append] at hlt hlen
    have hlc := h.length_contents
    have hpos : 0 < chunk.length := List.length_pos_of_ne_nil (hne chunk (by simp))
    obtain he | ⟨f₁, k₁, he, h₁, hc, htab⟩ := h.write chunk (by omega) (hne chunk (by simp)) (by omega)
    · left
      rw [OpenFile.writeAll, exec_bind, he]
    · have hput := SharedFile.take_put (contentsAt k.disk s) chunk (p := p) (by omega) (hne chunk (by simp))
      have hputlen := SharedFile.length_put (contentsAt k.disk s) chunk (p := p) (by omega) (hne chunk (by simp))
      rw [← hc] at hput hputlen
      have hlc₁ := h₁.length_contents
      have hnn₁ : 0 ≤ f₁.hdr.fileLength := by omega
      obtain he₂ | ⟨f₂, k₂, he₂, h₂, hnn₂, hc₂, htab₂⟩ :=
        ih h₁ hnn₁ (fun c hm => hne c (by simp [hm])) (by omega) (by omega)
      · left
        rw [OpenFile.writeAll, exec_bind_of_ok he, exec_bind, he₂]
      · refine .inr ⟨f₂, k₂, ?_, ?_, hnn₂, ?_, htab.trans htab₂⟩
        · rw [OpenFile.writeAll, exec_bind_of_ok he, exec_bind_of_ok he₂]
          rfl
        · rw [List.flatten_cons, List.length_append, ← add_assoc]
          exact h₂
        · rw [hc₂, hput, List.flatten_cons, List.append_assoc]

lemma readAt (h : Handy fs kind s f p k) (n : ℕ)
    (hn : p < (contentsAt k.disk s).length → p + n < 2147483648) {k₁ : Kernel} (hd : k₁.disk = k.disk) :
    exec (f.readAt n f.seekPosition) k₁ = .ok (((contentsAt k.disk s).drop p).take n, k₁) := by
  have hlen := h.length_contents
  have hint : p < f.hdr.fileLength → (p + n : ℤ) < 2147483648 := fun hp => by
    have := hn (by omega)
    omega
  have ht := h.trails
  rw [h.seek]
  rw [← hd] at ht ⊢
  exact Shared.exec_readAt ht p n hint (by rw [h.hdr, hd])

lemma read (h : Handy fs kind s f p k) (hlt : (contentsAt k.disk s).length < 2147483648)
    (hle : p ≤ (contentsAt k.disk s).length) (n : ℕ) (hn : p < (contentsAt k.disk s).length → p + n < 2147483648) :
    ∃ f', exec (f.read n) k = .ok ((((contentsAt k.disk s).drop p).take n, f'), k) ∧
      Handy fs kind s f' (min (p + n) (contentsAt k.disk s).length) k := by
  have hkeys := h.keys
  rw [← h.sector] at hkeys
  have hread := OpenFile.exec_read (h.rest.semaphoreRead (hkeys _)) (h.rest.semaphoreWrite (hkeys _))
    (h.rest.readerCount (hkeys _)) (fun k₁ hd => h.readAt n hn hd)
  refine ⟨_, hread, h.shared, h.current, h.sector, ?_, h.rest, h.keys⟩
  rw [h.seek, int32_of_bounds (by omega) (by rw [List.length_take, List.length_drop]; omega), List.length_take,
    List.length_drop]
  dsimp only
  omega

lemma readAll (sizes : List ℕ) : ∀ {f : OpenFile} {p : ℕ}, Handy fs kind s f p k →
    (contentsAt k.disk s).length < 2147483648 → p ≤ (contentsAt k.disk s).length →
    IntSizes (contentsAt k.disk s).length p sizes →
    ∃ f', exec (OpenFile.readAll f sizes) k = .ok ((pieces ((contentsAt k.disk s).drop p) sizes, f'), k) := by
  induction sizes with
  | nil => exact fun {f} _ _ _ _ _ => ⟨f, rfl⟩
  | cons size sizes ih =>
    intro f p h hlt hle hs
    obtain ⟨f₁, he, h₁⟩ := h.read hlt hle size hs.1
    obtain ⟨f₂, he₂⟩ := ih h₁ hlt (min_le_right _ _) hs.2
    have hdrop : (contentsAt k.disk s).drop (min (p + size) (contentsAt k.disk s).length) =
        ((contentsAt k.disk s).drop p).drop size := by
      rw [List.drop_drop]
      rcases le_total (p + size) (contentsAt k.disk s).length with hcut | hcut
      · rw [min_eq_left hcut]
      · rw [min_eq_right hcut, List.drop_length, List.drop_eq_nil_of_le hcut]
    refine ⟨f₂, ?_⟩
    rw [OpenFile.readAll, exec_bind_of_ok he, exec_bind_of_ok he₂, hdrop]
    rfl

end Handy

lemma readSectors_inv {h : FileHeader} (count : ℕ) : ∀ {i : ℤ} {bytes : List Byte} {k k' : Kernel},
    exec (readSectors h i count) k = .ok (bytes, k') → ∀ j < count,
      ∃ t k₁ k₂, exec (h.byteToSector ((i + j) * SectorSize)) k₁ = .ok (t, k₂) := by
  induction count with
  | zero => exact fun _ j hj => absurd hj (Nat.not_lt_zero j)
  | succ count ih =>
    intro i bytes k k' he j hj
    rw [readSectors] at he
    obtain ⟨t, k₁, ht, he⟩ := exec_bind_ok.mp he
    obtain ⟨data, k₂, -, he⟩ := exec_bind_ok.mp he
    obtain ⟨rest, k₃, hrest, -⟩ := exec_bind_ok.mp he
    cases j with
    | zero => exact ⟨t, k, k₁, by simpa using ht⟩
    | succ j =>
      obtain ⟨t', k₄, k₅, h'⟩ := ih hrest j (by omega)
      rw [add_assoc, add_comm (1 : ℤ)] at h'
      exact ⟨t', k₄, k₅, by exact_mod_cast h'⟩

lemma byteToSector_far {h : FileHeader} (hlen : h.dataSectors.length = NumDirect) {i t : ℤ} (hi : 928 ≤ i)
    (he : exec (h.byteToSector (i * SectorSize)) k = .ok (t, k')) : False := by
  rw [FileHeader.byteToSector, Int.mul_tdiv_cancel _ (by decide)] at he
  obtain ⟨b, k₁, hb, -⟩ := exec_bind_ok.mp he
  obtain ⟨hslot, -⟩ := exec_lift_eq_ok.mp hb
  obtain ⟨-, hget⟩ := index_eq_ok.mp hslot
  have hlt := (List.getElem?_eq_some_iff.mp hget).1
  have hdiv : i.tdiv MaxSector = i / 32 := Int.tdiv_eq_ediv_of_nonneg (by omega)
  have hnum : NumDirect = 29 := rfl
  rw [hdiv, hlen] at hlt
  omega

lemma readAt_overflow (hlen : f.hdr.dataSectors.length = NumDirect) {n : ℕ} (hp : (p : ℤ) < f.hdr.fileLength)
    (hsmall : f.hdr.fileLength ≤ 131072) (hn : n < 2147483648) (hpn : 2147483648 ≤ p + n) {bytes : List Byte}
    (he : exec (f.readAt n p) k = .ok (bytes, k')) : False := by
  have hsum : int32 ((p : ℤ) + n) = p + n - 4294967296 := by
    have hshift : int32 ((p : ℤ) + n) = int32 ((p : ℤ) + n - 4294967296) := by
      rw [int32, int32, BitVec.toInt_ofInt, BitVec.toInt_ofInt, Int.bmod_def, Int.bmod_def]
      norm_num
    rw [hshift, int32_of_bounds (by omega) (by omega)]
  have hclip :
      (if (p : ℤ) + n - 4294967296 > f.hdr.fileLength then int32 (f.hdr.fileLength - p) else (n : ℤ)) = n :=
    if_neg (by omega)
  rw [OpenFile.readAt] at he
  dsimp only at he
  rw [if_neg (by omega), hsum, hclip, hsum, divRoundDown_natCast] at he
  split at he
  · exact absurd he (by simp)
  · rename_i hpos
    obtain ⟨buf, k₁, hread, he⟩ := exec_bind_ok.mp he
    by_cases hexact : p + n = 2147483648
    · -- the last position wraps around to the largest `int`
      have hlast : int32 ((p : ℤ) + n - 4294967296 - 1) = 2147483647 := by
        rw [show (p : ℤ) + n - 4294967296 - 1 = -2147483649 by omega]
        decide
      have hdiv : divRoundDown 2147483647 SectorSize = 16777215 := by decide
      rw [hlast, hdiv] at hread
      have hcount : 928 < ((1 : ℤ) + 16777215 - ((p / 128 : ℕ) : ℤ)).toNat := by omega
      obtain ⟨t, k₂, k₃, hbyte⟩ := readSectors_inv _ hread 928 hcount
      exact byteToSector_far hlen (by omega) hbyte
    · have hlast : int32 ((p : ℤ) + n - 4294967296 - 1) = p + n - 4294967297 := by
        rw [int32_of_bounds (by omega) (by omega)]
        omega
      have hneg : divRoundDown ((p : ℤ) + n - 4294967297) SectorSize ≤ -1 := by
        have h :=
          Int.tdiv_le_tdiv (a := (p : ℤ) + n - 4294967297) (b := -128) (c := SectorSize) (by decide) (by omega)
        exact h.trans (by decide)
      rw [hlast] at hread
      have hzero : (1 + divRoundDown ((p : ℤ) + n - 4294967297) SectorSize - ((p / 128 : ℕ) : ℤ)).toNat = 0 :=
        by omega
      rw [hzero] at hread
      cases hread
      obtain ⟨hslice, -⟩ := exec_lift_eq_ok.mp he
      rw [slice] at hslice
      split at hslice
      · rename_i hoff
        simp only [List.length_nil] at hoff
        omega
      · cases hslice

lemma Handy.intSizes (sizes : List ℕ) :
    ∀ {f g : OpenFile} {p : ℕ} {result : List (List Byte)} {k' : Kernel}, Handy fs kind s f p k →
    (contentsAt k.disk s).length ≤ 131072 → p ≤ (contentsAt k.disk s).length → (∀ n ∈ sizes, n < 2147483648) →
    exec (OpenFile.readAll f sizes) k = .ok ((result, g), k') → IntSizes (contentsAt k.disk s).length p sizes := by
  induction sizes with
  | nil => exact fun _ _ _ _ _ => trivial
  | cons size sizes ih =>
    intro f g p result k' h hsmall hle hn he
    have hlen := h.length_contents
    obtain ⟨bs, secs, hfol, -⟩ := h.trails.follows
    rw [OpenFile.readAll] at he
    obtain ⟨⟨bytes, f₁⟩, k₁, hread, he⟩ := exec_bind_ok.mp he
    obtain ⟨⟨rest, f₂⟩, k₂, hrest, -⟩ := exec_bind_ok.mp he
    have hfits : p < (contentsAt k.disk s).length → p + size < 2147483648 := by
      intro hp
      by_contra hbig
      rw [OpenFile.read] at hread
      obtain ⟨-, k₃, -, hread⟩ := exec_bind_ok.mp hread
      obtain ⟨bytes', k₄, hat, -⟩ := exec_bind_ok.mp hread
      rw [h.seek] at hat
      exact readAt_overflow hfol.on.length (by omega) (by omega) (hn size (by simp)) (not_lt.mp hbig) hat
    obtain ⟨f', hread', h'⟩ := h.read (by omega) hle size hfits
    rw [hread'] at hread
    cases hread
    exact ⟨hfits, ih h' hsmall (min_le_right _ _) (fun n hm => hn n (by simp [hm])) hrest⟩

end OpenFile

/-- A new handle on the file: `Open` returns it, or it is made on the header, as `Open` does. -/
def NewHandle (path : CString) (wd s : ℤ) (k : Kernel) (f : OpenFile) (k' : Kernel) : Prop :=
  exec (OpenFile.new s) k = .ok (f, k') ∨ exec (FileSystem.openFile path wd) k = .ok (some f, k')

section RoundTrip

open OpenFile

variable {fs : FileSystem} {kind : ℤ → Option Kind} {k k' k₁ : Kernel}
  {p : ℕ} {path name : CString} {wd dir : ℤ} {e : DirectoryEntry}
  {f : OpenFile}

lemma NewHandle.handy (hsh : Shared fs kind e.sector.toInt k.disk [])
    (hrest : AtRest k.maps) (hwd : kind wd = some .dir)
    (hr : resolve k.disk (components path) wd = some (dir, name)) (hl : lookupIn k.disk dir name = some e)
    (h : NewHandle path wd e.sector.toInt k f k') :
    k'.disk = k.disk ∧ f.hdr = hdrAt k.disk e.sector.toInt ∧ Handy fs kind e.sector.toInt f 0 k' := by
  rcases h with h | h
  · obtain ⟨k₁, he, hd, -, hrest₁, hkeys, -⟩ := OpenFile.exec_new (hsh.sound.inDisk hsh.plain) k
    rw [he] at h
    cases h
    refine ⟨hd, rfl, by rw [hd]; exact hsh, ?_, rfl, rfl, hrest₁ hrest, hkeys⟩
    rw [Current, hd]
  · obtain ⟨hd, hx, hfound⟩ := hsh.sound.open_inv hwd h
    obtain ⟨dir', name', e', hr', hl', rfl, hkeys⟩ := hfound f rfl
    obtain ⟨rfl, rfl⟩ := Prod.mk.inj (Option.some.inj (hr'.symm.trans hr))
    obtain rfl := Option.some.inj (hl'.symm.trans hl)
    refine ⟨hd, rfl, by rw [hd]; exact hsh, ?_, rfl, rfl, hx.rests hrest, hkeys⟩
    rw [Current, hd]

lemma NewHandle.exists (hsh : Shared fs kind e.sector.toInt k.disk []) (path : CString) (wd : ℤ) :
    ∃ f k', NewHandle path wd e.sector.toInt k f k' := by
  obtain ⟨k', he, -⟩ := OpenFile.exec_new (hsh.sound.inDisk hsh.plain) k
  exact ⟨_, k', .inl he⟩

lemma Sound.created (hs : Sound fs k.disk kind) (hwd : kind wd = some .dir)
    (hwhole : ∀ s name, resolve k.disk (components path) wd = some (s, name) → NextWhole k.disk s) (n : ℕ)
    (hn : n < 2147483648)
    (hc : exec (fs.create path n wd) k = .ok (true, k'))
    (hr : resolve k'.disk (components path) wd = some (dir, name))
    (hl : lookupIn k'.disk dir name = some e) :
    ∃ kind', kind' wd = some .dir ∧ Shared fs kind' e.sector.toInt k'.disk [] ∧ Extends k.maps k'.maps ∧
      (hdrAt k'.disk e.sector.toInt).fileLength = n := by
  have hint : int32 (n : ℤ) = n := int32_of_bounds (by omega) (by omega)
  obtain ⟨hx, ⟨hfalse, -⟩ | ⟨-, dir', name', i, hr', hnone, hi, -, hinst, hs'⟩⟩ := hs.create_inv hwd hc
  · cases hfalse
  have hfresh : kind i = none := hs.storage.kind_of_free (mem_sectors_of_head hi)
  have hkeeps := hinst.keeps (fun _ _ => False) hfresh hnone
  obtain ⟨rfl, rfl⟩ := Prod.mk.inj (Option.some.inj ((hkeeps.resolve hs _ hwd hr').symm.trans hr))
  have hroom : freeSlot (tableAt k.disk dir') ≠ none := by
    intro hfull
    rw [lookupIn, hinst.table, withEntry, hfull] at hl
    exact absurd (hl.symm.trans hnone) (by simp)
  obtain ⟨e', hl', hsec, -⟩ := hinst.lookupIn_eq (inDisk_of_free (mem_sectors_of_head hi)) hnone hroom
  obtain rfl := Option.some.inj (hl'.symm.trans hl)
  rw [hsec]
  have hlen := hinst.numBytes hint
  refine ⟨_, hkeeps.dirs hwd, ⟨hs' (hwhole dir' name' hr'), Function.update_self _ _ _,
      ?_, fun _ hf => absurd hf List.not_mem_nil⟩, hx, hlen⟩
  rw [hlen, hinst.data]
  exact le_sectorsNeeded n

lemma OpenFile.Handy.readBack (h : Handy fs kind e.sector.toInt f p k) (hwd : kind wd = some .dir)
    (hr : resolve k.disk (components path) wd = some (dir, name)) (hl : lookupIn k.disk dir name = some e)
    (hsmall : (contentsAt k.disk e.sector.toInt).length ≤ 131072) (hk : k₁ = k ∨ exec f.close k = .ok ((), k₁)) :
    (∃ g k', NewHandle path wd e.sector.toInt k₁ g k') ∧ ∀ g k', NewHandle path wd e.sector.toInt k₁ g k' →
      ∀ sizes : List ℕ, (∀ n ∈ sizes, n < 2147483648) →
        ((∃ g' k'', exec (g.readAll sizes) k' = .ok ((pieces (contentsAt k.disk e.sector.toInt) sizes, g'), k'')) ↔
          IntSizes (contentsAt k.disk e.sector.toInt).length 0 sizes) := by
  have hd : k₁.disk = k.disk ∧ AtRest k₁.maps := by
    rcases hk with rfl | hk
    · exact ⟨rfl, h.rest⟩
    · have hne : f.hdrSector ≠ FreeMapSector := by
        rw [h.sector]
        exact h.shared.sound.plain_ne_map h.shared.plain
      obtain ⟨k₂, he, hd, hx, -⟩ := OpenFile.exec_close f hne k
      rw [he] at hk
      cases hk
      exact ⟨hd, hx.rests h.rest⟩
  have hsh := h.shared
  rw [← hd.1] at hsh hr hl hsmall ⊢
  refine ⟨NewHandle.exists hsh path wd, fun g k' hg sizes hn => ?_⟩
  obtain ⟨hd', -, hg⟩ := hg.handy hsh hd.2 hwd hr hl
  rw [← hd'] at hsmall ⊢
  constructor
  · rintro ⟨g', k'', he⟩
    exact hg.intSizes sizes hsmall (Nat.zero_le _) hn he
  · intro hs
    obtain ⟨g', he⟩ := hg.readAll sizes (by omega) (Nat.zero_le _) hs
    exact ⟨g', k', he⟩

end RoundTrip

/-- What is written in chunks to a file that `Create` has just made is read back in pieces of any sizes, exactly
when no size leads past the largest `int` before the end of the file. -/
theorem written_file_read_back_iff (sys : System) (h : System.Reachable System.Regular sys)
    (t : ℕ) (path name : CString)
    (bytes : List Byte) (hfit : bytes.length ≤ NumSectors * SectorSize) (chunks : List (List Byte))
    (hne : ∀ c ∈ chunks, c ≠ []) (hsplit : chunks.flatten = bytes) (n : ℕ) (hn : n = 0 ∨ n = bytes.length)
    (k₁ k₂ : Kernel) (hcreate : exec (sys.fs.create path n (sys.wd t)) sys.kernel = .ok (true, k₁)) (dir : ℤ)
    (e : DirectoryEntry) (hr : resolve k₁.disk (components path) (sys.wd t) = some (dir, name))
    (hl : lookupIn k₁.disk dir name = some e) (f : OpenFile)
    (hf : NewHandle path (sys.wd t) e.sector.toInt k₁ f k₂) :
    exec (OpenFile.writeAll sys.fs.freeMapFile f chunks) k₂ = .error .assertion ∨
      ∃ f' k₃, exec (OpenFile.writeAll sys.fs.freeMapFile f chunks) k₂ =
          .ok ((chunks.map fun c => (c.length : ℤ), f'), k₃) ∧
        (hdrAt k₃.disk e.sector.toInt).fileLength = bytes.length ∧
        ∀ k₄, k₄ = k₃ ∨ exec f'.close k₃ = .ok ((), k₄) →
          (∃ g k₅, NewHandle path (sys.wd t) e.sector.toInt k₄ g k₅) ∧
          ∀ g k₅, NewHandle path (sys.wd t) e.sector.toInt k₄ g k₅ →
            ∀ sizes : List ℕ, (∀ n ∈ sizes, n < 2147483648) →
              ((∃ g' k₆, exec (g.readAll sizes) k₅ = .ok ((pieces bytes sizes, g'), k₆)) ↔
                IntSizes bytes.length 0 sizes) := by
  have hdisk : NumSectors * SectorSize = 131072 := by decide
  have hsmall : bytes.length ≤ 131072 := by omega
  obtain ⟨kind₀, hst⟩ := h.stable
  obtain ⟨kind, hwd, hsh, hx, hlen⟩ := hst.sound.created (hst.wd t) (hst.entersWhole (.create t path n)) n
    (by omega) hcreate hr hl
  obtain ⟨hd, hhdr, hf⟩ := hf.handy hsh (hx.rests hst.rest) hwd hr hl
  have hlc := hf.length_contents
  rw [hhdr, hlen, Int.toNat_natCast] at hlc
  obtain he | ⟨f', k₃, he, hf', hnn, hc, htab⟩ := hf.writeAll chunks (by rw [hhdr, hlen]; omega) hne
    (by rw [hsplit]; omega) (by rw [hsplit]; omega)
  · exact .inl he
  · rw [List.take_zero, List.nil_append, hsplit] at hc
    have hlc' := hf'.length_contents
    rw [hc] at hlc'
    refine .inr ⟨f', k₃, he, by rw [← hf'.hdr]; omega, fun k₄ hk₄ => ?_⟩
    rw [← hd] at hr hl
    have hkeeps : Keeps (fun _ _ => False) k₂.disk kind k₃.disk kind := Keeps.of_tables htab
    have hr₃ := hkeeps.resolve hf.shared.sound _ hwd hr
    have hl₃ : lookupIn k₃.disk dir name = some e := by
      rw [lookupIn, htab.table (hf.shared.sound.kind_of_resolve _ hwd hr)]
      exact hl
    have hread := hf'.readBack hwd hr₃ hl₃ (by rw [hc]; exact hsmall) hk₄
    rw [hc] at hread
    exact hread

lemma System.boot_written : ∃ (sys : System) (k₁ k₂ k₃ : Kernel) (e : DirectoryEntry) (f f' : OpenFile)
    (kind : ℤ → Option Kind), System.Reachable System.Regular sys ∧
    exec (sys.fs.create pathF (0 : ℕ) (sys.wd 0)) sys.kernel = .ok (true, k₁) ∧
    resolve k₁.disk (components pathF) (sys.wd 0) = some (DirectorySector, pathF) ∧
    lookupIn k₁.disk DirectorySector pathF = some e ∧ NewHandle pathF (sys.wd 0) e.sector.toInt k₁ f k₂ ∧
    exec (OpenFile.writeAll sys.fs.freeMapFile f [[0x61, 0x62]]) k₂ = .ok (([2], f'), k₃) ∧
    kind (sys.wd 0) = some .dir ∧ OpenFile.Handy sys.fs kind e.sector.toInt f' 2 k₃ ∧
    contentsAt k₃.disk e.sector.toInt = [0x61, 0x62] ∧
    resolve k₃.disk (components pathF) (sys.wd 0) = some (DirectorySector, pathF) ∧
    lookupIn k₃.disk DirectorySector pathF = some e := by
  obtain ⟨sys, k₁, i, hb, hform, hst, hwd₀, hcreate, hx, hi, hinst, -⟩ := System.boot_create
  have hroom := freeSlot_of_unused (by rw [hform.slots]; decide) hform.unused
  obtain ⟨e, hl, hsec, -⟩ :=
    hinst.lookupIn_eq (inDisk_of_free (mem_sectors_of_head hi)) (hform.lookupIn_root _) hroom
  have hr : ∀ d : Disk, resolve d (components pathF) (sys.wd 0) = some (DirectorySector, pathF) := by
    intro d
    rw [hwd₀]
    rfl
  obtain ⟨kind, hwd, hsh, -, hlen⟩ := hst.sound.created (hst.wd 0) (hst.entersWhole (.create 0 pathF 0)) 0
    (by decide) hcreate (hr _) hl
  obtain ⟨f, k₂, hf⟩ := NewHandle.exists hsh pathF (sys.wd 0)
  obtain ⟨hd, hhdr, h⟩ := hf.handy hsh (hx.rests hst.rest) hwd (hr _) hl
  have hlen : f.hdr.fileLength = 0 := by
    rw [hhdr]
    exact hlen
  have hfree := hinst.free
  rw [hform.free, sectorsNeeded_zero, newBlocks_zero] at hfree
  have hfits : Fits (dataAt k₂.disk f.hdrSector).length (2 : ℕ) (freeMapAt k₂.disk).free.length := by
    have hneed : sectorsNeeded ((2 : ℕ) : ℤ) = 1 := by decide
    have hnew : newBlocks 0 1 = 1 := rfl
    rw [h.sector, hd, hsec, hinst.data, sectorsNeeded_zero, Fits, hneed, hnew]
    omega
  have hw : f.WritesAll k₂.disk [0x61, 0x62] := by
    refine .inr ⟨by rw [h.seek]; decide, by rw [h.seek]; decide, ?_⟩
    rw [h.seek, hlen, if_neg (by decide)]
    exact ⟨h.current, .inr rfl, hfits⟩
  obtain ⟨f₁, k₃, he, -⟩ := h.shared.exec_write h.trails h.semaphoreWrite h.seek hw
  have hall : exec (OpenFile.writeAll sys.fs.freeMapFile f [[0x61, 0x62]]) k₂ = .ok (([2], f₁), k₃) := by
    rw [OpenFile.writeAll, exec_bind_of_ok he]
    rfl
  have hlc := h.length_contents
  rw [hlen] at hlc
  obtain he' | ⟨f', k₃', he', h', -, hc, htab⟩ :=
    h.writeAll [[0x61, 0x62]] hlen.ge (by decide) (by decide) (.inl hlc)
  · exact absurd (hall.symm.trans he') (by simp)
  · rw [hall] at he'
    cases he'
    refine ⟨sys, k₁, k₂, k₃, e, f, f₁, kind, ⟨_, sys, hb, .refl⟩,
        hcreate, hr _, hl, hf, hall, hwd, h', hc, hr _, ?_⟩
    rw [lookupIn, htab.table (h.shared.sound.kind_of_resolve _ hwd (hr _)), hd]
    exact hl

theorem written_file_read_back_twoBytes :
    ∃ (sys : System) (k₃ k₅ k₆ : Kernel) (e : DirectoryEntry) (g g' : OpenFile),
    NewHandle pathF (sys.wd 0) e.sector.toInt k₃ g k₅ ∧
    exec (g.readAll [1, 1, 1]) k₅ = .ok (([[0x61], [0x62], []], g'), k₆) := by
  obtain ⟨sys, k₁, k₂, k₃, e, f, f', kind, hreach, hcreate, hr, hl, hf, hw, -⟩ := System.boot_written
  obtain he | ⟨f₁, k₃', he, -, hread⟩ :=
    written_file_read_back_iff sys hreach 0 pathF pathF [0x61, 0x62] (by decide)
    [[0x61, 0x62]] (by decide) rfl 0 (.inl rfl) k₁ k₂ hcreate DirectorySector e hr hl f hf
  · exact absurd (hw.symm.trans he) (by simp)
  · obtain ⟨⟨g, k₅, hg⟩, hread⟩ := hread k₃' (.inl rfl)
    obtain ⟨g', k₆, h⟩ := (hread g k₅ hg [1, 1, 1] (by decide)).mpr (by simp [IntSizes])
    exact ⟨sys, k₃', k₅, k₆, e, g, g', hg, h⟩

/-- After one byte, the largest `int` is not a size that `Read` can take: the sum wraps around, and the
request is not cut to the length of the file. -/
theorem read_back_overflows : ∃ (sys : System) (k₁ k₂ k₃ k₅ : Kernel) (e : DirectoryEntry) (f f' g : OpenFile),
    System.Reachable System.Regular sys ∧
    exec (sys.fs.create pathF (0 : ℕ) (sys.wd 0)) sys.kernel = .ok (true, k₁) ∧
    resolve k₁.disk (components pathF) (sys.wd 0) = some (DirectorySector, pathF) ∧
    lookupIn k₁.disk DirectorySector pathF = some e ∧ NewHandle pathF (sys.wd 0) e.sector.toInt k₁ f k₂ ∧
    exec (OpenFile.writeAll sys.fs.freeMapFile f [[0x61, 0x62]]) k₂ = .ok (([2], f'), k₃) ∧
    NewHandle pathF (sys.wd 0) e.sector.toInt k₃ g k₅ ∧
    ¬∃ g' k₆, exec (g.readAll [1, 2147483647]) k₅ = .ok ((pieces [0x61, 0x62] [1, 2147483647], g'), k₆) := by
  obtain ⟨sys, k₁, k₂, k₃, e, f, f', kind, hreach, hcreate, hr, hl, hf, hw, hwd, h', hc, hr₃, hl₃⟩ :=
    System.boot_written
  obtain ⟨⟨g, k₅, hg⟩, hread⟩ := h'.readBack hwd hr₃ hl₃ (by rw [hc]; decide) (.inl rfl)
  have hiff := hread g k₅ hg [1, 2147483647] (by decide)
  rw [hc] at hiff
  refine ⟨sys, k₁, k₂, k₃, k₅, e, f, f', g, hreach, hcreate, hr, hl, hf, hw, hg, fun hok => ?_⟩
  exact absurd (hiff.mp hok) (by simp [IntSizes])

end NachosFileSys
