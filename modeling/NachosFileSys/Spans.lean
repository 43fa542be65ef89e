import NachosFileSys.Growth

namespace NachosFileSys

open Lib.Programs Lib.Bytes

namespace OpenFile

structure Span where
  numBytes : ℤ
  firstSector : ℤ
  lastSector : ℤ
  deriving DecidableEq

def Span.numSectors (s : Span) : ℤ := 1 + s.lastSector - s.firstSector

def span (fileLength numBytes position : ℤ) : Option Span :=
  if numBytes ≤ 0 ∨ position ≥ fileLength then none
  else
    let numBytes := if int32 (position + numBytes) > fileLength then int32 (fileLength - position) else numBytes
    some ⟨numBytes, divRoundDown position SectorSize,
      divRoundDown (int32 (int32 (position + numBytes) - 1)) SectorSize⟩

lemma readAt_eq_span (f : OpenFile) (numBytes position : ℤ) :
    f.readAt numBytes position =
      match span f.length numBytes position with
      | none => pure []
      | some s =>
        if int32 (s.numSectors * SectorSize) < 0 then stop .allocation
        else readSectors f.hdr s.firstSector s.numSectors.toNat >>= fun buf =>
          lift (slice buf (position - s.firstSector * SectorSize) s.numBytes) := by
  rw [readAt, span, OpenFile.length]
  by_cases h : numBytes ≤ 0 ∨ position ≥ f.hdr.fileLength
  · simp only [if_pos h]
  · simp only [if_neg h]
    rfl

/-- `WriteAt` reads the first and the last sector of the span where they are written in part, puts
the bytes at their place in the buffer, and writes the sectors of the span. -/
lemma writeAt_eq_span (f : OpenFile) (src : List Byte) (numBytes position : ℤ) :
    f.writeAt src numBytes position =
      match span f.length numBytes position with
      | none => pure 0
      | some s =>
        if int32 (s.numSectors * SectorSize) < 0 then stop .allocation
        else malloc (s.numSectors * SectorSize).toNat >>= fun buf =>
          f.readPartial (decide (position ≠ s.firstSector * SectorSize)) s.firstSector 0 buf >>= fun buf =>
          f.readPartial (decide (int32 (position + s.numBytes) ≠ int32 ((s.lastSector + 1) * SectorSize)) &&
            (s.firstSector ≠ s.lastSector || position = s.firstSector * SectorSize)) s.lastSector
            ((s.lastSector - s.firstSector) * SectorSize) buf >>= fun buf =>
          lift (slice src 0 s.numBytes) >>= fun bytes =>
          lift (copyInto buf (position - s.firstSector * SectorSize) bytes) >>= fun buf =>
          writeSectors f.hdr s.firstSector s.numSectors.toNat buf >>= fun _ => pure s.numBytes := by
  rw [writeAt, span, OpenFile.length]
  by_cases h : numBytes ≤ 0 ∨ position ≥ f.hdr.fileLength
  · simp only [if_pos h]
  · simp only [if_neg h, decide_not]
    rfl

structure Span.Inside (s : Span) (fileLength position : ℤ) : Prop where
  start : 0 ≤ position - s.firstSector * SectorSize
  stop : position - s.firstSector * SectorSize + s.numBytes ≤ s.numSectors * SectorSize
  sectors : ∀ i, s.firstSector ≤ i → i ≤ s.lastSector → 0 ≤ i ∧ i * SectorSize < fileLength ∧
    0 ≤ (i - s.firstSector) * SectorSize ∧
    (i - s.firstSector) * SectorSize + SectorSize ≤ s.numSectors * SectorSize

structure Span.Exact (s : Span) (fileLength numBytes position : ℤ) : Prop where
  request : int32 (position + numBytes) = position + numBytes
  rest : position + numBytes > fileLength → int32 (fileLength - position) = fileLength - position
  last : int32 (position + s.numBytes) = position + s.numBytes
  before : int32 (position + s.numBytes - 1) = position + s.numBytes - 1
  size : int32 (s.numSectors * SectorSize) = s.numSectors * SectorSize
  sectors : ∀ i, s.firstSector ≤ i → i ≤ s.lastSector + 1 → int32 (i * SectorSize) = i * SectorSize

def Accesses (fileLength numBytes position : ℤ) : Prop :=
  ∀ s, span fileLength numBytes position = some s → s.Inside fileLength position ∧
      s.Exact fileLength numBytes position

/-- Both functions return, with a count within the request and the file, and all that they access is inside the
buffer and the file; `WriteAt` also reads the first and the last sector of its span. -/
structure Bounded (f : OpenFile) (k : Kernel) (buf : List Byte) (numBytes position : ℤ) : Prop where
  read : ∃ bytes, exec (f.readAt numBytes position) k = .ok (bytes, k) ∧
    (bytes.length : ℤ) ≤ max 0 numBytes ∧ (bytes.length : ℤ) ≤ max 0 (f.length - position)
  write : ∃ r k', exec (f.writeAt buf numBytes position) k = .ok (r, k') ∧ 0 ≤ r ∧ r ≤ max 0 numBytes ∧
    r ≤ max 0 (f.length - position)
  accesses : Accesses f.length numBytes position
  partly : ∀ s, span f.length numBytes position = some s →
    Accesses f.length SectorSize (s.firstSector * SectorSize) ∧
    Accesses f.length SectorSize (s.lastSector * SectorSize)

lemma span_eq {fileLength : ℤ} {n p : ℕ} (hn : 0 < n) (hp : (p : ℤ) < fileLength) (hlen : fileLength < 2147483648)
    (hpn : p + n < 2147483648) :
    span fileLength n p = some ⟨transferred fileLength p n, ((p / 128 : ℕ) : ℤ),
      (((p + transferred fileLength p n - 1) / 128 : ℕ) : ℤ)⟩ := by
  rw [span, if_neg (by omega)]
  dsimp only
  rw [clip_eq hn hp hpn hlen, last_eq hn hp hpn, divRoundDown_natCast, divRoundDown_natCast]

lemma accesses_of_nonneg {fileLength : ℤ} (hlen : fileLength < 2147483520) {n p : ℕ} (hpn : p + n < 2147483648) :
    Accesses fileLength n p := by
  intro s hs
  by_cases hz : (n : ℤ) ≤ 0 ∨ (p : ℤ) ≥ fileLength
  · rw [span, if_pos hz] at hs
    cases hs
  · have hn : 0 < n := by omega
    have hp : (p : ℤ) < fileLength := by omega
    have hc : 0 < transferred fileLength p n := by rw [transferred]; omega
    have hcl : (p + transferred fileLength p n : ℤ) ≤ fileLength := by rw [transferred]; omega
    rw [span_eq hn hp (by omega) hpn, Option.some.injEq] at hs
    subst hs
    generalize transferred fileLength p n = c at hc hcl
    constructor
    · refine ⟨?_, ?_, fun i h1 h2 => ?_⟩
      all_goals simp only [Span.numSectors, SectorSize] at *
      all_goals omega
    · have hb : ∀ x : ℤ, 0 ≤ x → x < 2147483648 → int32 x = x := fun x h0 h1 => int32_of_bounds (by omega) h1
      refine ⟨hb _ (by omega) (by omega), fun _ => hb _ (by omega) (by omega), hb _ ?_ ?_, hb _ ?_ ?_, hb _ ?_ ?_,
        fun i h1 h2 => hb _ ?_ ?_⟩
      all_goals dsimp only [Span.numSectors, SectorSize] at *
      all_goals omega

lemma not_accesses {fileLength numBytes position : ℤ} (hn : 0 < numBytes) (hp : position < fileLength)
    (hbad : position < 0 ∨ 2147483648 ≤ position + numBytes) : ¬Accesses fileLength numBytes position := by
  intro h
  obtain ⟨s, hs⟩ : ∃ s, span fileLength numBytes position = some s := by
    rw [span, if_neg (by omega)]
    exact ⟨_, rfl⟩
  obtain ⟨hin, hex⟩ := h s hs
  have hreq := hex.request
  have hrest := hex.rest
  have hlast := hex.last
  have hbefore := hex.before
  have hup := (int32_bounds (position + numBytes)).2
  rw [hreq] at hup
  have hneg : position < 0 := hbad.resolve_right (by omega)
  rw [span, if_neg (by omega), hreq, Option.some.injEq] at hs
  have hpos : 0 < s.numBytes := by
    rw [← hs]
    dsimp only
    split
    case isTrue hgt =>
      rw [hrest hgt]
      omega
    case isFalse => exact hn
  have hnum : s.numBytes = if position + numBytes > fileLength then
    int32 (fileLength - position) else numBytes := by
    rw [← hs]
  have hfirst : s.firstSector = position.tdiv 128 := by rw [← hs]; rfl
  have hl : s.lastSector = (position + s.numBytes - 1).tdiv 128 := by
    rw [← hbefore, ← hlast, hnum, ← hs]
    rfl
  have hle : s.firstSector ≤ s.lastSector := by
    rw [hfirst, hl]
    exact Int.tdiv_le_tdiv (by decide) (by omega)
  have hstart := hin.start
  have hsec := (hin.sectors s.firstSector (le_refl _) hle).1
  simp only [SectorSize] at hstart
  omega

variable {f : OpenFile} {k : Kernel} {bs secs : List ℤ}

lemma bounded_of_nonneg (hf : f.Backed k.disk bs secs) (hnd : (bs ++ secs).Nodup) (buf : List Byte) {n p : ℕ}
    (hpn : p + n < 2147483648) (hbuf : n ≤ buf.length) : Bounded f k buf n p := by
  have hle := hf.length_le
  have hsl := hf.on.secs_le
  have hlen : f.length < 2147483520 := by
    have : f.length = f.hdr.fileLength := rfl
    omega
  have hc : transferred f.hdr.fileLength p n ≤ n := min_le_left _ _
  have hr : ((transferred f.hdr.fileLength p n : ℕ) : ℤ) ≤ max 0 (f.length - p) := by
    have : f.length = f.hdr.fileLength := rfl
    rw [transferred]
    omega
  refine ⟨⟨_, exec_readAt hf n p hpn, ?_, ?_⟩, ?_, accesses_of_nonneg hlen hpn, fun s hs => ?_⟩
  · rw [bytesIn_length]
    omega
  · rw [bytesIn_length]
    exact hr
  · obtain ⟨k', he, -⟩ := exec_writeAt hf hnd buf n p hpn (hc.trans hbuf)
    exact ⟨_, k', he, by omega, by omega, hr⟩
  · by_cases hz : (n : ℤ) ≤ 0 ∨ (p : ℤ) ≥ f.length
    · rw [span, if_pos hz] at hs
      cases hs
    · rw [span_eq (by omega) (by omega) (by omega) hpn, Option.some.injEq] at hs
      subst hs
      have hcl : (p + transferred f.length p n : ℤ) ≤ f.length := by rw [transferred]; omega
      have hsector : ∀ i : ℕ, 128 * (i : ℤ) ≤ f.length → Accesses f.length SectorSize ((i : ℤ) * SectorSize) := by
        intro i hi
        have hcast : (i : ℤ) * SectorSize = ((128 * i : ℕ) : ℤ) := by simp only [SectorSize]; omega
        rw [hcast]
        exact accesses_of_nonneg (n := 128) hlen (by omega)
      exact ⟨hsector _ (by omega), hsector _ (by omega)⟩

lemma bounded_of_refused (f : OpenFile) (k : Kernel) (buf : List Byte) {numBytes position : ℤ}
    (h : numBytes ≤ 0 ∨ position ≥ f.length) : Bounded f k buf numBytes position := by
  have hspan : span f.length numBytes position = none := by rw [span, if_pos h]
  refine ⟨⟨[], ?_, by simp, by simp⟩, ⟨0, k, ?_, le_refl _, by simp, by simp⟩, fun s hs => ?_, fun s hs => ?_⟩
  · rw [readAt_eq_span, hspan]
    rfl
  · rw [writeAt_eq_span, hspan]
    rfl
  · rw [hspan] at hs
    cases hs
  · rw [hspan] at hs
    cases hs

/-- On a header that `Allocate` has built, and a disk that holds its blocks, the accesses are
bounded exactly for the requests that are refused at once and for those that begin within the file
and end within the range of an `int`. -/
theorem bounded_iff (k₀ k₁ k : Kernel) (m m' : FreeMap) (permisstion : ℤ) (f : OpenFile) (sizes : List ℤ)
    (hsizes : ∀ n ∈ sizes, 0 ≤ n)
    (ha : exec (FileHeader.allocateAll (.fresh permisstion) m sizes) k₀ = .ok ((true, f.hdr, m'), k₁))
    (hk : ∀ b ∈ f.hdr.dataSectors, b ≠ EmptyBlock → k.disk b = k₁.disk b) (buf : List Byte)
    (numBytes position : Word) (hbuf : numBytes.toInt ≤ buf.length) :
    Bounded f k buf numBytes.toInt position.toInt ↔
      numBytes.toInt ≤ 0 ∨ position.toInt ≥ f.length ∨
        0 ≤ position.toInt ∧ position.toInt + numBytes.toInt < 2147483648 := by
  obtain ⟨bs, secs, d₁, rfl, hon, -, ht, -, -, hlen⟩ := FileHeader.allocateAll_inv sizes
    (FileHeader.fresh_on permisstion k₀.disk) List.nodup_nil (by simp) ha
  simp only [List.nil_append] at hon hlen
  have hslots : ∀ b ∈ bs, b ∈ f.hdr.dataSectors := fun b hb => by
    rw [hon.stored.slots_eq]
    exact List.mem_append_left _ hb
  have hf : f.Backed k.disk bs secs := by
    refine ⟨hon.congr fun b hb => hk b (hslots b hb) (hon.stored.blocks_inDisk b hb).ne_empty,
        hlen (fun j => ?_) ?_⟩
    · have hsum : 0 ≤ (sizes.take j).sum := List.sum_nonneg fun n hn => hsizes n (List.mem_of_mem_take hn)
      change (-2147483648 : ℤ) ≤ 0 + _
      omega
    · exact le_refl (0 : ℤ)
  constructor
  · intro hb
    by_contra hbad
    rw [not_or, not_or] at hbad
    exact not_accesses (by omega) (by omega) (by omega) hb.accesses
  · rintro (h | h | ⟨h0, hsum⟩)
    · exact bounded_of_refused f k buf (Or.inl h)
    · exact bounded_of_refused f k buf (Or.inr h)
    · by_cases hn : numBytes.toInt ≤ 0
      · exact bounded_of_refused f k buf (Or.inl hn)
      · obtain ⟨n, hn'⟩ := Int.eq_ofNat_of_zero_le (le_of_lt (not_le.mp hn))
        obtain ⟨p, hp⟩ := Int.eq_ofNat_of_zero_le h0
        rw [hn', hp] at hsum ⊢
        exact bounded_of_nonneg hf ht.nodup buf (by omega) (by omega)

theorem bounded_300 : ∃ f m' k', exec (FileHeader.allocateAll (.fresh 0) (Bitmap.empty 1024) [300]) Kernel.blank =
    .ok ((true, OpenFile.hdr f, m'), k') ∧
    Bounded f k' (List.replicate 200 1) (200#32).toInt (120#32).toInt := by
  obtain ⟨h, m', k', ha⟩ := FileHeader.allocateAll_blank 300 (by decide)
  exact ⟨⟨h, 0, 5⟩, m', k', ha,
    (bounded_iff Kernel.blank k' k' (Bitmap.empty 1024) m' 0 ⟨h, 0, 5⟩ [300] (by decide) ha
    (fun _ _ _ => rfl) (List.replicate 200 1) 200#32 120#32
    (by rw [List.length_replicate]; decide)).mpr (Or.inr (Or.inr (by decide)))⟩

/-- The same file, read from a position before its first byte. -/
theorem not_bounded_negative : ∃ f m' k',
    exec (FileHeader.allocateAll (.fresh 0) (Bitmap.empty 1024) [300]) Kernel.blank =
      .ok ((true, OpenFile.hdr f, m'), k') ∧
    ¬Bounded f k' [0] (1#32).toInt (-1 : Word).toInt := by
  obtain ⟨h, m', k', ha⟩ := FileHeader.allocateAll_blank 300 (by decide)
  have hlen := FileHeader.allocateAll_numBytes [300] (by decide) (FileHeader.fresh_on 0 Kernel.blank.disk)
    List.nodup_nil (by simp) (le_refl 0) (le_refl 0) ha
  refine ⟨⟨h, 0, 5⟩, m', k', ha, fun hb => not_accesses (by decide) ?_ (Or.inl (by decide)) hb.accesses⟩
  rw [OpenFile.length, FileHeader.fileLength, hlen]
  decide

end OpenFile

end NachosFileSys
