import NachosFileSys.Effects
import NachosFileSys.Allocation

namespace NachosFileSys

open Lib.Programs Lib.Bytes

def byteIn (d : Disk) (secs : List ℤ) (p : ℕ) : Byte :=
  (d (secs.getD (p / 128) EmptyBlock)).toList.getD (p % 128) 0

def bytesIn (d : Disk) (secs : List ℤ) (p n : ℕ) : List Byte := (List.range n).map fun i => byteIn d secs (p + i)

@[simp] lemma bytesIn_length (d : Disk) (secs : List ℤ) (p n : ℕ) : (bytesIn d secs p n).length = n := by
  simp [bytesIn]

lemma getElem?_bytesIn (d : Disk) (secs : List ℤ) (p n i : ℕ) :
    (bytesIn d secs p n)[i]? = if i < n then some (byteIn d secs (p + i)) else none := by
  rw [bytesIn, List.getElem?_map]
  by_cases hi : i < n
  · rw [List.getElem?_range hi, if_pos hi]
    rfl
  · rw [List.getElem?_eq_none (by simpa using hi), if_neg hi]
    rfl

lemma bytesIn_append (d : Disk) (secs : List ℤ) (p n n' : ℕ) :
    bytesIn d secs p n ++ bytesIn d secs (p + n) n' = bytesIn d secs p (n + n') := by
  rw [bytesIn, bytesIn, bytesIn, List.range_add, List.map_append, List.map_map]
  congr 1
  apply List.map_congr_left
  intro i _
  rw [Function.comp_apply, Nat.add_assoc]

lemma bytesIn_slice (d : Disk) (secs : List ℤ) (p n off len : ℕ) (h : off + len ≤ n) :
    ((bytesIn d secs p n).drop off).take len = bytesIn d secs (p + off) len := by
  apply List.ext_getElem?
  intro i
  rw [List.getElem?_take, List.getElem?_drop, getElem?_bytesIn, getElem?_bytesIn]
  by_cases hi : i < len
  · rw [if_pos hi, if_pos (by omega), if_pos hi, Nat.add_assoc]
  · rw [if_neg hi, if_neg hi]

lemma bytesIn_congr {d d' : Disk} {secs : List ℤ} {p n : ℕ}
    (h : ∀ q, p ≤ q → q < p + n → byteIn d' secs q = byteIn d secs q) :
    bytesIn d' secs p n = bytesIn d secs p n := by
  apply List.map_congr_left
  intro i hi
  exact h _ (by omega) (by have := List.mem_range.mp hi; omega)

lemma byteIn_congr {d d' : Disk} {secs : List ℤ} {p : ℕ} (hp : p / 128 < secs.length)
    (h : ∀ s ∈ secs, d' s = d s) : byteIn d' secs p = byteIn d secs p := by
  rw [byteIn, byteIn, List.getD_eq_getElem _ _ hp, h _ (List.getElem_mem hp)]

lemma toList_eq_bytesIn (d : Disk) (secs : List ℤ) (i : ℕ) (hi : i < secs.length) :
    (d secs[i]).toList = bytesIn d secs (128 * i) 128 := by
  apply List.ext_getElem?
  intro j
  rw [getElem?_bytesIn]
  by_cases hj : j < 128
  · have hd : (128 * i + j) / 128 = i := by omega
    have hm : (128 * i + j) % 128 = j := by omega
    rw [if_pos hj, byteIn, hd, hm, List.getD_eq_getElem _ _ hi, List.getD_eq_getElem _ _ (by simpa using hj)]
    exact List.getElem?_eq_getElem _
  · rw [if_neg hj, List.getElem?_eq_none (by simpa using hj)]

lemma Stored.lookup {d : Disk} {slots bs secs : List ℤ} (h : Stored d slots bs secs) :
    ∀ (i : ℕ) (hi : i < secs.length), ∃ b ∈ bs, slots[i / 32]? = some b ∧
      (IndirectBlock.ofSector (d b)).dataSectors[i % 32]? = some secs[i] := by
  induction h with
  | nil n => intro i hi; simp at hi
  | @cons b part slots bs secs hb hpart hpos hle hfull hblock rest ih =>
    intro i hi
    by_cases hp : i < part.length
    · refine ⟨b, List.mem_cons_self, ?_, ?_⟩
      · rw [Nat.div_eq_of_lt (by omega), List.getElem?_cons_zero]
      · rw [hblock, Nat.mod_eq_of_lt (by omega), List.getElem?_append_left hp, List.getElem_append_left hp]
        exact List.getElem?_eq_getElem hp
    · have hi' : i - part.length < secs.length := by
        rw [List.length_append] at hi
        omega
      have hfl : part.length = 32 := by
        apply hfull
        intro hn
        rw [rest.blocks_eq_nil.mp hn] at hi'
        simp at hi'
      obtain ⟨b', hb', hs, hd⟩ := ih (i - part.length) hi'
      refine ⟨b', List.mem_cons_of_mem _ hb', ?_, ?_⟩
      · have hdiv : i / 32 = (i - part.length) / 32 + 1 := by omega
        rw [hdiv, List.getElem?_cons_succ, hs]
      · have hmod : i % 32 = (i - part.length) % 32 := by omega
        rw [hmod, hd, List.getElem_append_right (by omega)]

lemma Stored.mem_of_lookup {d : Disk} {slots bs secs : List ℤ} (h : Stored d slots bs secs) {b s : ℤ}
    (hb : b ∈ slots) (hbe : b ≠ EmptyBlock) (hs : s ∈ (IndirectBlock.ofSector (d b)).dataSectors)
    (hse : s ≠ EmptyBlock) : s ∈ secs := by
  induction h with
  | nil n => exact absurd (List.eq_of_mem_replicate hb) hbe
  | @cons b' part slots bs secs _ _ _ _ _ hblock _ ih =>
    rcases List.mem_cons.mp hb with rfl | hb
    · rw [hblock] at hs
      rcases List.mem_append.mp hs with hs | hs
      · exact List.mem_append_left _ hs
      · exact absurd (List.eq_of_mem_replicate hs) hse
    · exact List.mem_append_right _ (ih hb)

lemma index_eq_ok {α : Type} {table : List α} {i : ℤ} {a : α} :
    index table i = .ok a ↔ 0 ≤ i ∧ table[i.toNat]? = some a := by
  rw [index]
  by_cases hi : 0 ≤ i
  · rw [if_pos hi]
    cases table[i.toNat]? with
    | none => simp
    | some b => simp [hi]
  · simp [hi]

lemma exec_assert_ok {b : Bool} {k k' : Kernel} {u : Unit} :
    exec (assert b) k = .ok (u, k') ↔ b = true ∧ k = k' := by
  rw [exec_assert]
  cases b <;> simp

lemma exec_read_ok {s : ℤ} {data : Sector} {k k' : Kernel} :
    exec (readSector s) k = .ok (data, k') ↔ InDisk s ∧ k.disk s = data ∧ k = k' := by
  rw [exec_readSector]
  by_cases hs : 0 ≤ s ∧ s < NumSectors
  · rw [if_pos hs, Except.ok.injEq, Prod.mk.injEq]
    exact (and_iff_right (show InDisk s from hs)).symm
  · rw [if_neg hs]
    exact ⟨fun h => (nomatch h), fun h => absurd h.1 hs⟩

lemma malloc_inv {n : ℕ} {junk : List Byte} {k k' : Kernel} (he : exec (malloc n) k = .ok (junk, k')) :
    k'.disk = k.disk ∧ k'.maps = k.maps := by
  rw [exec_malloc] at he
  cases he
  exact ⟨rfl, rfl⟩

lemma IndirectBlock.fetchFrom_inv {s : ℤ} {block : IndirectBlock} {k k' : Kernel}
    (he : exec (fetchFrom s) k = .ok (block, k')) : InDisk s ∧ ofSector (k.disk s) = block ∧ k = k' := by
  rw [fetchFrom] at he
  obtain ⟨data, k₁, hr, he⟩ := exec_bind_ok.mp he
  obtain ⟨hs, rfl, rfl⟩ := exec_read_ok.mp hr
  cases he
  exact ⟨hs, rfl, rfl⟩

namespace FileHeader

lemma On.congr {h : FileHeader} {d d' : Disk} {bs secs : List ℤ} (hon : h.On d bs secs)
    (hd : ∀ b ∈ bs, d' b = d b) : h.On d' bs secs :=
  ⟨hon.stored.congr hd, hon.length⟩

variable {h : FileHeader} {bs secs : List ℤ} {k k' : Kernel}

lemma exec_byteToSector (hon : h.On k.disk bs secs) (i : ℕ) (hi : i < secs.length) :
    exec (h.byteToSector (i * SectorSize)) k = .ok (secs[i], k) := by
  obtain ⟨b, hb, hslot, hd⟩ := hon.stored.lookup i hi
  have hv : ((i : ℤ) * SectorSize).tdiv SectorSize = (i : ℤ) := Int.mul_tdiv_cancel _ (by decide)
  have hq : ((i : ℤ)).tdiv (MaxSector : ℕ) = ((i / 32 : ℕ) : ℤ) := rfl
  have hr : ((i : ℤ)).tmod (MaxSector : ℕ) = ((i % 32 : ℕ) : ℤ) := rfl
  have hw : (((i % 32 : ℕ) : ℤ) * SectorSize).tdiv SectorSize = ((i % 32 : ℕ) : ℤ) :=
    Int.mul_tdiv_cancel _ (by decide)
  have hix : index h.dataSectors ((i / 32 : ℕ) : ℤ) = .ok b := index_eq_ok.mpr ⟨by omega, hslot⟩
  have hix' : (IndirectBlock.ofSector (k.disk b)).byteToSector (((i % 32 : ℕ) : ℤ) * SectorSize) =
      .ok secs[i] := by
    have hlt : ((i % 32 : ℕ) : ℤ) < (MaxSector : ℕ) := by simp only [MaxSector]; omega
    have hix : index (IndirectBlock.ofSector (k.disk b)).dataSectors ((i % 32 : ℕ) : ℤ) = .ok secs[i] :=
      index_eq_ok.mpr ⟨by omega, hd⟩
    rw [IndirectBlock.byteToSector]
    simp only [hw, check, decide_eq_true hlt, if_true, hix, bind, Except.bind]
  have hin := hon.stored.secs_inDisk _ (List.getElem_mem hi)
  rw [byteToSector]
  simp only [hv, hq, hr, hix, exec_bind, exec_lift_ok, IndirectBlock.fetchFrom,
    exec_read_inDisk (hon.stored.blocks_inDisk b hb), exec_pure, hix', exec_assert]
  rw [if_pos (by simpa using And.intro hin.1 hin.2)]

lemma byteToSector_inv (hon : h.On k.disk bs secs) {offset s : ℤ}
    (he : exec (h.byteToSector offset) k = .ok (s, k')) : s ∈ secs ∧ k = k' := by
  rw [byteToSector] at he
  obtain ⟨b, k₁, hb, he⟩ := exec_bind_ok.mp he
  obtain ⟨hslot, rfl⟩ := exec_lift_eq_ok.mp hb
  obtain ⟨block, k₂, hr, he⟩ := exec_bind_ok.mp he
  obtain ⟨hbd, rfl, rfl⟩ := IndirectBlock.fetchFrom_inv hr
  obtain ⟨p, k₃, hp, he⟩ := exec_bind_ok.mp he
  obtain ⟨hsec, rfl⟩ := exec_lift_eq_ok.mp hp
  obtain ⟨_, k₄, ha, he⟩ := exec_bind_ok.mp he
  obtain ⟨hpd, rfl⟩ := exec_assert_ok.mp ha
  cases he
  simp only [decide_eq_true_eq] at hpd
  rw [IndirectBlock.byteToSector, check] at hsec
  split at hsec
  case isFalse => cases hsec
  case isTrue =>
    have hi := index_eq_ok.mp hslot
    have hj := index_eq_ok.mp hsec
    exact ⟨hon.stored.mem_of_lookup (List.mem_of_getElem? hi.2) hbd.ne_empty (List.mem_of_getElem? hj.2)
      (InDisk.ne_empty hpd), rfl⟩

end FileHeader

/-- The number of bytes that a request for `n` bytes at position `p` of a file of length `len` moves. -/
def transferred (len : ℤ) (p n : ℕ) : ℕ := min n (len.toNat - p)

lemma divRoundDown_natCast (x : ℕ) : divRoundDown x SectorSize = ((x / 128 : ℕ) : ℤ) := rfl

lemma clip_eq {len : ℤ} {p n : ℕ} (hn : 0 < n) (hp : (p : ℤ) < len) (hpn : p + n < 2147483648)
    (hlen : len < 2147483648) :
    (if int32 ((p : ℤ) + n) > len then int32 (len - p) else (n : ℤ)) = transferred len p n := by
  rw [int32_of_bounds (by omega) (by omega), int32_of_bounds (by omega) (by omega), transferred]
  split <;> omega

lemma last_eq {len : ℤ} {p n : ℕ} (hn : 0 < n) (hp : (p : ℤ) < len) (hpn : p + n < 2147483648) :
    int32 (int32 ((p : ℤ) + transferred len p n) - 1) = ((p + transferred len p n - 1 : ℕ) : ℤ) := by
  have hc : 0 < transferred len p n := by rw [transferred]; omega
  have hcn : transferred len p n ≤ n := min_le_left _ _
  rw [int32_of_bounds (x := (p : ℤ) + transferred len p n) (by omega) (by omega),
    int32_of_bounds (by omega) (by omega)]
  omega

namespace OpenFile

variable {h : FileHeader} {f : OpenFile} {bs secs : List ℤ} {k k' : Kernel}

lemma exec_readSectors (hon : h.On k.disk bs secs) (count : ℕ) : ∀ i : ℕ, i + count ≤ secs.length →
    exec (readSectors h i count) k = .ok (bytesIn k.disk secs (128 * i) (128 * count), k) := by
  induction count with
  | zero => intro i _; rfl
  | succ count ih =>
    intro i hi
    have hin : i < secs.length := by omega
    have hrest := ih (i + 1) (by omega)
    rw [Nat.cast_add, Nat.cast_one] at hrest
    rw [readSectors]
    simp only [exec_bind, FileHeader.exec_byteToSector hon i hin,
      exec_read_inDisk (hon.stored.secs_inDisk _ (List.getElem_mem hin)), hrest, exec_pure]
    rw [toList_eq_bytesIn _ _ _ hin, show 128 * (i + 1) = 128 * i + 128 by ring, bytesIn_append]
    congr 3
    ring

structure Backed (f : OpenFile) (d : Disk) (bs secs : List ℤ) : Prop where
  on : f.hdr.On d bs secs
  length_le : f.hdr.fileLength ≤ 128 * secs.length

lemma Backed.length_lt {d : Disk} (hf : f.Backed d bs secs) : f.hdr.fileLength < 2147483648 := by
  have := hf.length_le
  have := hf.on.secs_le
  omega

lemma exec_readAt (hf : f.Backed k.disk bs secs) (n p : ℕ) (hpn : p + n < 2147483648) :
    exec (f.readAt n p) k = .ok (bytesIn k.disk secs p (transferred f.hdr.fileLength p n), k) := by
  have hlt := hf.length_lt
  have hle := hf.length_le
  have hsl := hf.on.secs_le
  rw [readAt]
  dsimp only
  by_cases hz : (n : ℤ) ≤ 0 ∨ (p : ℤ) ≥ f.hdr.fileLength
  · have hc : transferred f.hdr.fileLength p n = 0 := by rw [transferred]; omega
    rw [if_pos hz, hc]
    rfl
  · have hn : 0 < n := by omega
    have hp : (p : ℤ) < f.hdr.fileLength := by omega
    have hc : 0 < transferred f.hdr.fileLength p n := by rw [transferred]; omega
    have hcl : p + transferred f.hdr.fileLength p n ≤ 128 * secs.length := by rw [transferred]; omega
    rw [if_neg hz]
    simp only [clip_eq hn hp hpn hlt, last_eq hn hp hpn, divRoundDown_natCast]
    generalize transferred f.hdr.fileLength p n = c at hc hcl
    have hnum : (1 + (((p + c - 1) / 128 : ℕ) : ℤ) - ((p / 128 : ℕ) : ℤ)) =
        (((p + c - 1) / 128 + 1 - p / 128 : ℕ) : ℤ) := by
      omega
    have hcount : 128 * ((p + c - 1) / 128 + 1 - p / 128) ≤ 118784 := by omega
    simp only [SectorSize, hnum]
    rw [if_neg (by rw [int32_of_bounds (by omega) (by omega)]; omega), Int.toNat_natCast, exec_bind,
      exec_readSectors hf.on _ _ (by omega)]
    simp only
    have hoff : (p : ℤ) - ((p / 128 : ℕ) : ℤ) * 128 = ((p % 128 : ℕ) : ℤ) := by omega
    rw [hoff, slice, if_pos (by rw [bytesIn_length]; omega), exec_lift_ok, Int.toNat_natCast, Int.toNat_natCast,
      bytesIn_slice _ _ _ _ _ _ (by omega)]
    congr 3
    omega

lemma exec_writeSectors (count : ℕ) : ∀ {k : Kernel} (i : ℕ) (buf : List Byte), h.On k.disk bs secs →
    (bs ++ secs).Nodup → i + count ≤ secs.length → buf.length = 128 * count →
    ∃ d', exec (writeSectors h i count buf) k = .ok ((), { k with disk := d' }) ∧
      (∀ x, (∀ j, i ≤ j → j < i + count → secs[j]? ≠ some x) → d' x = k.disk x) ∧
      ∀ q, 128 * i ≤ q → q < 128 * (i + count) → byteIn d' secs q = buf.getD (q - 128 * i) 0 := by
  induction count with
  | zero =>
    intro k i buf _ _ _ _
    refine ⟨k.disk, rfl, fun _ _ => rfl, fun q h1 h2 => ?_⟩
    omega
  | succ count ih =>
    intro k i buf hon hnd hi hbuf
    have hin : i < secs.length := by omega
    obtain ⟨-, hsn, hdisj⟩ := List.nodup_append.mp hnd
    -- the indirect blocks are not among the data sectors
    have hon₁ : h.On (Function.update k.disk secs[i] (Sector.ofList buf)) bs secs := hon.congr fun b hb =>
      Function.update_of_ne (fun he => hdisj b hb _ (List.getElem_mem hin) he) _ _
    obtain ⟨d', he, hframe, hbytes⟩ := ih
      (k := { k with disk := Function.update k.disk secs[i] (Sector.ofList buf) }) (i + 1) (buf.drop 128) hon₁ hnd
      (by omega) (by rw [List.length_drop]; omega)
    rw [Nat.cast_add, Nat.cast_one] at he
    refine ⟨d', ?_, ?_, ?_⟩
    · rw [writeSectors]
      simp only [exec_bind, FileHeader.exec_byteToSector hon i hin,
        exec_write_inDisk (hon.stored.secs_inDisk _ (List.getElem_mem hin)), he]
    · intro x hx
      rw [hframe x fun j h1 h2 => hx j (by omega) (by omega)]
      refine Function.update_of_ne ?_ _ _
      rintro rfl
      exact hx i (by omega) (by omega) (List.getElem?_eq_getElem hin)
    · intro q h1 h2
      by_cases hq : 128 * (i + 1) ≤ q
      · have hsub : 128 + (q - 128 * (i + 1)) = q - 128 * i := by omega
        rw [hbytes q hq (by omega), List.getD_eq_getElem?_getD,
            List.getD_eq_getElem?_getD, List.getElem?_drop, hsub]
      · have hd : q / 128 = i := by omega
        have hsame : d' secs[i] = Sector.ofList buf := by
          rw [hframe secs[i] fun j h1 h2 hj => ?_]
          · exact Function.update_self _ _ _
          · obtain ⟨hjl, hje⟩ := List.getElem?_eq_some_iff.mp hj
            have := (List.Nodup.getElem_inj_iff hsn).mp hje
            omega
        have hm : q % 128 < 128 := Nat.mod_lt _ (by omega)
        rw [byteIn, hd, List.getD_eq_getElem _ _ hin, hsame, Sector.ofList,
          List.getD_eq_getElem _ _ (by simpa using hm)]
        simp only [Vector.getElem_toList, Vector.getElem_ofFn]
        congr 1
        omega

lemma writeSectors_inv (count : ℕ) : ∀ {k k' : Kernel} {i : ℤ} {buf : List Byte} {u : Unit}, h.On k.disk bs secs →
    (bs ++ secs).Nodup → exec (writeSectors h i count buf) k = .ok (u, k') →
    k'.maps = k.maps ∧ ∀ x, x ∉ secs → k'.disk x = k.disk x := by
  induction count with
  | zero =>
    intro k k' i buf u _ _ he
    cases he
    exact ⟨rfl, fun _ _ => rfl⟩
  | succ count ih =>
    intro k k' i buf u hon hnd he
    rw [writeSectors] at he
    obtain ⟨s, k₁, hs, he⟩ := exec_bind_ok.mp he
    obtain ⟨hmem, rfl⟩ := FileHeader.byteToSector_inv hon hs
    obtain ⟨v, k₂, hw, he⟩ := exec_bind_ok.mp he
    rw [exec_write_inDisk (hon.stored.secs_inDisk s hmem)] at hw
    cases hw
    obtain ⟨-, -, hdisj⟩ := List.nodup_append.mp hnd
    obtain ⟨hm, hd⟩ := ih (hon.congr fun b hb => Function.update_of_ne (hdisj b hb s hmem) _ _) hnd he
    refine ⟨hm, fun x hx => ?_⟩
    rw [hd x hx]
    refine Function.update_of_ne ?_ _ _
    rintro rfl
    exact hx hmem

lemma getD_overlay (buf : List Byte) (off : ℕ) (src : List Byte) (hle : off + src.length ≤ buf.length) (j : ℕ) :
    (overlay buf off src).getD j 0 =
      if off ≤ j ∧ j < off + src.length then src.getD (j - off) 0 else buf.getD j 0 := by
  rw [List.getD_eq_getElem?_getD, getElem?_overlay buf off src hle, List.getD_eq_getElem?_getD,
    List.getD_eq_getElem?_getD]
  split <;> rfl

lemma copyInto_natCast (buf : List Byte) (off : ℕ) (src : List Byte) (hle : off + src.length ≤ buf.length) :
    copyInto buf off src = .ok (overlay buf off src) := by
  rw [copyInto, if_pos (by omega), Int.toNat_natCast]

lemma exec_readPartial (hf : f.Backed k.disk bs secs) (partly : Bool) (s off : ℕ) (buf : List Byte)
    (hs : 128 * s + 128 < 2147483648) (hoff : off + 128 ≤ buf.length) :
    ∃ buf', exec (f.readPartial partly s off buf) k = .ok (buf', k) ∧ buf'.length = buf.length ∧
      ∀ j, buf'.getD j 0 =
        if partly = true ∧ off ≤ j ∧ j < off + transferred f.hdr.fileLength (128 * s) 128
        then byteIn k.disk secs (128 * s + (j - off)) else buf.getD j 0 := by
  cases partly with
  | false => exact ⟨buf, rfl, rfl, fun j => by simp⟩
  | true =>
    have hc : transferred f.hdr.fileLength (128 * s) 128 ≤ 128 := min_le_left _ _
    have hread := exec_readAt hf 128 (128 * s) (by omega)
    have hpos : ((128 * s : ℕ) : ℤ) = (s : ℤ) * SectorSize := by push_cast; ring
    have hsize : ((128 : ℕ) : ℤ) = SectorSize := rfl
    rw [hpos, hsize] at hread
    have hle : off + (bytesIn k.disk secs (128 * s) (transferred f.hdr.fileLength (128 * s) 128)).length ≤
        buf.length := by
      rw [bytesIn_length]
      omega
    refine ⟨_, ?_, overlay_length _ _ _ hle, fun j => ?_⟩
    · rw [readPartial, if_pos rfl, exec_bind, hread]
      simp only [copyInto_natCast _ _ _ hle, exec_lift_ok]
    · rw [getD_overlay _ _ _ hle, bytesIn_length]
      simp only [true_and]
      by_cases hj : off ≤ j ∧ j < off + transferred f.hdr.fileLength (128 * s) 128
      · rw [if_pos hj, if_pos hj, List.getD_eq_getElem?_getD,
            getElem?_bytesIn, if_pos (by omega), Option.getD_some]
      · rw [if_neg hj, if_neg hj]

lemma exec_fill (hf : f.Backed k.disk bs secs) (src junk : List Byte) (p c : ℕ) (hc : 0 < c)
    (hlen : (p + c : ℤ) ≤ f.hdr.fileLength) (hsrc : c ≤ src.length)
    (hjunk : junk.length = 128 * ((p + c - 1) / 128 + 1 - p / 128)) (firstPartial lastPartial : Bool)
    (hfirst : p % 128 ≠ 0 → firstPartial = true)
    (hlast : (p + c) % 128 ≠ 0 → lastPartial = true ∨ firstPartial = true ∧ p / 128 = (p + c - 1) / 128) :
    ∃ buf, exec (do
        let buf ← f.readPartial firstPartial (p / 128 : ℕ) 0 junk
        let buf ← f.readPartial lastPartial ((p + c - 1) / 128 : ℕ)
          ((((p + c - 1) / 128 : ℕ) - (p / 128 : ℕ)) * SectorSize) buf
        let bytes ← lift (slice src 0 c)
        lift (copyInto buf (p - (p / 128 : ℕ) * SectorSize) bytes)) k = .ok (buf, k) ∧ buf.length = junk.length ∧
      ∀ q, 128 * (p / 128) ≤ q → q < 128 * ((p + c - 1) / 128 + 1) → (q : ℤ) < f.hdr.fileLength →
        buf.getD (q - 128 * (p / 128)) 0 =
          if p ≤ q ∧ q < p + c then src.getD (q - p) 0 else byteIn k.disk secs q := by
  have hlt := hf.length_le
  have hsl := hf.on.secs_le
  obtain ⟨buf₁, he₁, hl₁, hg₁⟩ := exec_readPartial hf firstPartial (p / 128) 0 junk (by omega) (by omega)
  obtain ⟨buf₂, he₂, hl₂, hg₂⟩ := exec_readPartial hf lastPartial ((p + c - 1) / 128)
    (128 * ((p + c - 1) / 128 - p / 128)) buf₁ (by omega) (by omega)
  have hoff : ((128 * ((p + c - 1) / 128 - p / 128) : ℕ) : ℤ) =
      ((((p + c - 1) / 128 : ℕ) : ℤ) - ((p / 128 : ℕ) : ℤ)) * SectorSize := by
    simp only [SectorSize]
    omega
  have hpos : (p : ℤ) - ((p / 128 : ℕ) : ℤ) * SectorSize = ((p % 128 : ℕ) : ℤ) := by
    simp only [SectorSize]
    omega
  have hslice : slice src 0 c = .ok (src.take c) := by
    rw [slice, if_pos (by omega), Int.toNat_natCast]
    rfl
  have htake : (src.take c).length = c := by
    rw [List.length_take]
    omega
  have hle : p % 128 + (src.take c).length ≤ buf₂.length := by omega
  rw [hoff] at he₂
  refine ⟨overlay buf₂ (p % 128) (src.take c), ?_, by rw [overlay_length _ _ _ hle]; omega, ?_⟩
  · rw [Nat.cast_zero] at he₁
    simp only [exec_bind, he₁, he₂, hslice, exec_lift_ok, hpos, copyInto_natCast _ _ _ hle]
  · intro q h1 h2 hq
    rw [getD_overlay _ _ _ hle, htake]
    by_cases hin : p ≤ q ∧ q < p + c
    · rw [if_pos (by omega), if_pos hin, List.getD_eq_getElem?_getD, List.getElem?_take_of_lt (by omega),
        ← List.getD_eq_getElem?_getD]
      congr 1
      omega
    · rw [if_neg (by omega), if_neg hin, hg₂, hg₁]
      have ht : ∀ s, transferred f.hdr.fileLength (128 * s) 128 = min 128 (f.hdr.fileLength.toNat - 128 * s) :=
        fun s => rfl
      rw [ht, ht]
      -- a byte before the new ones is in the first sector, a byte after them in the last one
      split
      · congr 1
        omega
      · split
        · congr 1
          omega
        · rename_i hn2 hn1
          exfalso
          rcases Nat.lt_or_ge q p with hqp | hqp
          · have := hfirst (by omega)
            exact hn1 ⟨this, by omega, by omega⟩
          · rcases hlast (by omega) with hl | ⟨hl, he⟩
            · exact hn2 ⟨hl, by omega, by omega⟩
            · exact hn1 ⟨hl, by omega, by omega⟩

lemma exec_writeAt (hf : f.Backed k.disk bs secs) (hnd : (bs ++ secs).Nodup) (src : List Byte) (n p : ℕ)
    (hpn : p + n < 2147483648) (hsrc : transferred f.hdr.fileLength p n ≤ src.length) :
    ∃ k', exec (f.writeAt src n p) k = .ok ((transferred f.hdr.fileLength p n : ℤ), k') ∧ k'.maps = k.maps ∧
      (∀ x, (∀ q, p ≤ q → q < p + transferred f.hdr.fileLength p n → secs[q / 128]? ≠ some x) →
        k'.disk x = k.disk x) ∧
      ∀ q : ℕ, (q : ℤ) < f.hdr.fileLength → byteIn k'.disk secs q =
        if p ≤ q ∧ q < p + transferred f.hdr.fileLength p n then src.getD (q - p) 0 else byteIn k.disk secs q := by
  have hlt := hf.length_lt
  have hle := hf.length_le
  have hsl := hf.on.secs_le
  rw [writeAt]
  dsimp only
  by_cases hz : (n : ℤ) ≤ 0 ∨ (p : ℤ) ≥ f.hdr.fileLength
  · have hc : transferred f.hdr.fileLength p n = 0 := by rw [transferred]; omega
    rw [if_pos hz, hc]
    refine ⟨k, rfl, rfl, fun _ _ => rfl, fun q _ => ?_⟩
    rw [if_neg (by omega)]
  · have hn : 0 < n := by omega
    have hp : (p : ℤ) < f.hdr.fileLength := by omega
    have hc : 0 < transferred f.hdr.fileLength p n := by rw [transferred]; omega
    have hcl : (p + transferred f.hdr.fileLength p n : ℤ) ≤ f.hdr.fileLength := by rw [transferred]; omega
    rw [if_neg hz]
    simp only [clip_eq hn hp hpn hlt, last_eq hn hp hpn, divRoundDown_natCast]
    generalize transferred f.hdr.fileLength p n = c at hc hcl hsrc
    let k₁ : Kernel := { k with heap := fun i => k.heap (i + 128 * ((p + c - 1) / 128 + 1 - p / 128)) }
    have hnum : 1 + (((p + c - 1) / 128 : ℕ) : ℤ) - ((p / 128 : ℕ) : ℤ) =
        (((p + c - 1) / 128 + 1 - p / 128 : ℕ) : ℤ) := by
      omega
    have hbytes : ((((p + c - 1) / 128 + 1 - p / 128 : ℕ) : ℤ) * SectorSize).toNat =
        128 * ((p + c - 1) / 128 + 1 - p / 128) := by
      simp only [SectorSize]
      omega
    obtain ⟨buf, hfill, hbl, hbuf⟩ := exec_fill (k := k₁) hf src
      ((List.range (128 * ((p + c - 1) / 128 + 1 - p / 128))).map k.heap) p c hc hcl hsrc (by simp)
      (!decide ((p : ℤ) = ((p / 128 : ℕ) : ℤ) * SectorSize))
      (!decide (int32 ((p : ℤ) + c) = int32 ((((p + c - 1) / 128 : ℕ) + 1) * SectorSize)) &&
        (decide ((((p / 128 : ℕ) : ℤ)) ≠ (((p + c - 1) / 128 : ℕ) : ℤ)) ||
          decide ((p : ℤ) = ((p / 128 : ℕ) : ℤ) * SectorSize)))
      (by
        intro hm
        simp only [SectorSize, Bool.not_eq_true', decide_eq_false_iff_not]
        omega)
      (by
        intro hm
        rw [int32_of_bounds (by omega) (by omega), int32_of_bounds (by simp only [SectorSize]; omega)
          (by simp only [SectorSize]; omega)]
        simp only [SectorSize, Bool.not_eq_true', decide_eq_false_iff_not, Bool.and_eq_true, Bool.or_eq_true,
          decide_eq_true_eq]
        omega)
    obtain ⟨d', hw, hframe, hd⟩ :=
      exec_writeSectors (k := k₁) ((p + c - 1) / 128 + 1 - p / 128) (p / 128) buf hf.on
      hnd (by omega) (by rw [hbl]; simp)
    refine ⟨{ k₁ with disk := d' }, ?_, rfl, ?_, ?_⟩
    · rw [hnum, if_neg (by
        rw [int32_of_bounds (by simp only [SectorSize]; omega) (by simp only [SectorSize]; omega)]
        simp only [SectorSize]
        omega)]
      obtain ⟨b₁, t₁, h₁, hfill⟩ := exec_bind_ok.mp hfill
      obtain ⟨b₂, t₂, h₂, hfill⟩ := exec_bind_ok.mp hfill
      obtain ⟨bytes, t₃, h₃, h₄⟩ := exec_bind_ok.mp hfill
      rw [hbytes, Int.toNat_natCast]
      refine exec_bind_ok.mpr
          ⟨_, k₁, exec_malloc _ _, exec_bind_ok.mpr ⟨_, _, h₁, exec_bind_ok.mpr ⟨_, _, h₂, ?_⟩⟩⟩
      refine exec_bind_ok.mpr ⟨_, _, h₃, exec_bind_ok.mpr ⟨_, _, h₄, exec_bind_ok.mpr ⟨_, _, hw, rfl⟩⟩⟩
    · intro x hx
      refine hframe x fun j h1 h2 => ?_
      have hq := hx (max p (128 * j)) (by omega) (by omega)
      rwa [show max p (128 * j) / 128 = j by omega] at hq
    · intro q hq
      by_cases hin : 128 * (p / 128) ≤ q ∧ q < 128 * ((p + c - 1) / 128 + 1)
      · rw [hd q hin.1 (by omega)]
        exact hbuf q hin.1 hin.2 hq
      · rw [if_neg (by omega)]
        have hql : q / 128 < secs.length := by omega
        have hsame : d' secs[q / 128] = k.disk secs[q / 128] := hframe _ fun j h1 h2 hj => by
          obtain ⟨hjl, hje⟩ := List.getElem?_eq_some_iff.mp hj
          have := (List.Nodup.getElem_inj_iff (List.nodup_append.mp hnd).2.1).mp hje
          omega
        change byteIn d' secs q = _
        rw [byteIn, byteIn, List.getD_eq_getElem _ _ hql, hsame]

lemma writeAt_inv (hon : f.hdr.On k.disk bs secs) (hnd : (bs ++ secs).Nodup) {src : List Byte} {n p r : ℤ}
    (he : exec (f.writeAt src n p) k = .ok (r, k')) :
    k'.maps = k.maps ∧ ∀ x, x ∉ secs → k'.disk x = k.disk x := by
  rw [writeAt] at he
  dsimp only at he
  split at he
  · cases he
    exact ⟨rfl, fun _ _ => rfl⟩
  · generalize (if int32 (p + n) > f.hdr.fileLength then int32 (f.hdr.fileLength - p) else n) = c at he
    split at he
    · cases he
    · obtain ⟨junk, k₁, hm, he⟩ := exec_bind_ok.mp he
      obtain ⟨hdisk, hmaps⟩ := malloc_inv hm
      rw [← hdisk] at hon
      rw [← hdisk, ← hmaps]
      obtain ⟨b₁, k₂, h₁, he⟩ := exec_bind_ok.mp he
      obtain rfl := (reads_readPartial _ _ _ _ _).exec_eq h₁
      obtain ⟨b₂, k₃, h₂, he⟩ := exec_bind_ok.mp he
      obtain rfl := (reads_readPartial _ _ _ _ _).exec_eq h₂
      obtain ⟨bytes, k₄, h₃, he⟩ := exec_bind_ok.mp he
      obtain ⟨-, rfl⟩ := exec_lift_eq_ok.mp h₃
      obtain ⟨buf, k₅, h₄, he⟩ := exec_bind_ok.mp he
      obtain ⟨-, rfl⟩ := exec_lift_eq_ok.mp h₄
      obtain ⟨u, k₆, h₅, he⟩ := exec_bind_ok.mp he
      cases he
      exact writeSectors_inv _ hon hnd h₅

end OpenFile

namespace FileHeader

def sectorOf (h : FileHeader) (d : Disk) (i : ℕ) : ℤ :=
  (IndirectBlock.ofSector (d (h.dataSectors.getD (i / 32) EmptyBlock))).dataSectors.getD (i % 32) EmptyBlock

def byteAt (h : FileHeader) (d : Disk) (q : ℕ) : Byte := (d (h.sectorOf d (q / 128))).toList.getD (q % 128) 0

lemma sectorOf_eq {h : FileHeader} {d : Disk} {bs secs : List ℤ} (hon : h.On d bs secs) {i : ℕ}
    (hi : i < secs.length) : h.sectorOf d i = secs[i] := by
  obtain ⟨b, -, hslot, hd⟩ := hon.stored.lookup i hi
  rw [sectorOf, List.getD_eq_getElem?_getD, List.getD_eq_getElem?_getD,
      hslot, Option.getD_some, hd, Option.getD_some]

lemma byteAt_eq {h : FileHeader} {d : Disk} {bs secs : List ℤ} (hon : h.On d bs secs) {q : ℕ}
    (hq : q / 128 < secs.length) : h.byteAt d q = byteIn d secs q := by
  rw [byteAt, byteIn, sectorOf_eq hon hq, List.getD_eq_getElem _ _ hq]

end FileHeader

namespace OpenFile

/-- `ReadAt` and `WriteAt` on a header that `Allocate` has built, on any disk that holds its indirect
blocks: they read and write the array of its logical bytes, and only the sectors of the bytes written
change. The lengths asked for are such that the length of the file stays an `int`. -/
theorem readAt_writeAt_byte_array (k₀ k₁ k : Kernel) (m m' : FreeMap) (permisstion : ℤ) (f : OpenFile)
    (sizes : List ℤ) (hsizes : ∀ j, -2147483648 ≤ (sizes.take j).sum)
    (ha : exec (FileHeader.allocateAll (.fresh permisstion) m sizes) k₀ = .ok ((true, f.hdr, m'), k₁))
    (hk : ∀ b ∈ f.hdr.dataSectors, b ≠ EmptyBlock → k.disk b = k₁.disk b) (buf : List Byte) (n p : ℕ)
    (hpn : p + n < 2147483648) (hbuf : n ≤ buf.length) :
    (∃ k', exec (f.writeAt buf n p) k = .ok ((transferred f.length p n : ℤ), k') ∧
      (∀ q : ℕ, (q : ℤ) < f.length → f.hdr.byteAt k'.disk q =
        if p ≤ q ∧ q < p + transferred f.length p n then buf.getD (q - p) 0 else f.hdr.byteAt k.disk q) ∧
      ∀ x, (∀ q, p ≤ q → q < p + transferred f.length p n → f.hdr.sectorOf k.disk (q / 128) ≠ x) →
        k'.disk x = k.disk x) ∧
    exec (f.readAt n p) k =
      .ok ((List.range (transferred f.length p n)).map fun i => f.hdr.byteAt k.disk (p + i), k) := by
  obtain ⟨bs, secs, d₁, rfl, hon, hn, ht, -, -, hlen⟩ := FileHeader.allocateAll_inv sizes
    (FileHeader.fresh_on permisstion k₀.disk) List.nodup_nil (by simp) ha
  simp only [List.nil_append] at hon hlen
  have hslots : ∀ b ∈ bs, b ∈ f.hdr.dataSectors := fun b hb => by
    rw [hon.stored.slots_eq]
    exact List.mem_append_left _ hb
  have hon : f.hdr.On k.disk bs secs := hon.congr fun b hb =>
    hk b (hslots b hb) (hon.stored.blocks_inDisk b hb).ne_empty
  have hf : f.Backed k.disk bs secs :=
    ⟨hon, hlen (by simpa [FileHeader.fresh] using hsizes) (by simp [FileHeader.fresh])⟩
  have hle := hf.length_le
  have hc : transferred f.length p n ≤ n := min_le_left _ _
  have hin : ∀ q, p ≤ q → q < p + transferred f.length p n → q / 128 < secs.length := by
    intro q h1 h2
    have : transferred f.length p n = min n (f.hdr.fileLength.toNat - p) := rfl
    omega
  refine ⟨?_, ?_⟩
  · obtain ⟨k', he, -, hframe, hbytes⟩ := exec_writeAt hf ht.nodup buf n p hpn (hc.trans hbuf)
    have hframe' : ∀ x, (∀ q, p ≤ q → q < p + transferred f.length p n → f.hdr.sectorOf k.disk (q / 128) ≠ x) →
        k'.disk x = k.disk x := fun x hx => hframe x fun q h1 h2 hq => by
      refine hx q h1 h2 ?_
      rw [FileHeader.sectorOf_eq hon (hin q h1 h2)]
      exact (List.getElem?_eq_some_iff.mp hq).2
    have hon' : f.hdr.On k'.disk bs secs := hon.congr fun b hb => hframe b fun q h1 h2 hq =>
      (List.nodup_append.mp ht.nodup).2.2 b hb b (List.mem_of_getElem? hq) rfl
    refine ⟨k', he, fun q hq => ?_, hframe'⟩
    have hql : q / 128 < secs.length := by
      have : f.length = f.hdr.fileLength := rfl
      omega
    rw [FileHeader.byteAt_eq hon' hql, FileHeader.byteAt_eq hon hql]
    exact hbytes q hq
  · rw [exec_readAt hf n p hpn]
    congr 2
    apply List.map_congr_left
    intro i hi
    rw [FileHeader.byteAt_eq hon
        (hin _ (by omega) (by have := List.mem_range.mp hi; exact Nat.add_lt_add_left this p))]

theorem readAt_byte_array_300 :
    ∃ f m' k', exec (FileHeader.allocateAll (.fresh 0) (Bitmap.empty 1024) [300]) Kernel.blank =
        .ok ((true, OpenFile.hdr f, m'), k') ∧
      exec (f.readAt (200 : ℕ) (120 : ℕ)) k' =
        .ok ((List.range (transferred f.length 120 200)).map fun i => f.hdr.byteAt k'.disk (120 + i), k') := by
  obtain ⟨h, m', k', ha⟩ := FileHeader.allocateAll_blank 300 (by decide)
  have hsizes : ∀ j, -2147483648 ≤ (([300] : List ℤ).take j).sum := by
    intro j
    cases j <;> simp
  exact ⟨⟨h, 0, 0⟩, m', k', ha, (readAt_writeAt_byte_array _ k' k' _ m' 0 ⟨h, 0, 0⟩ [300] hsizes ha
    (fun _ _ _ => rfl) (List.replicate 200 0) 200 120 (by decide) (by rw [List.length_replicate])).2⟩

end OpenFile

end NachosFileSys
