import NachosFileSys.System

namespace NachosFileSys

open Lib.Programs Lib.Bytes Lib.Runs

lemma IndirectBlock.ofSector_injective {a b : Sector}
    (h : IndirectBlock.ofSector a = IndirectBlock.ofSector b) : a = b := by
  rw [← IndirectBlock.toSector_ofSector a, h, IndirectBlock.toSector_ofSector]

def padded (part : List ℤ) : IndirectBlock := ⟨part ++ List.replicate (32 - part.length) EmptyBlock⟩

lemma padded_injective {part part' : List ℤ} (hp : ∀ s ∈ part, InDisk s) (hp' : ∀ s ∈ part', InDisk s)
    (h : padded part = padded part') : part = part' := by
  have he := congrArg (List.filter (· ≠ EmptyBlock)) (IndirectBlock.mk.inj h)
  simpa only [List.filter_append, FileHeader.filter_replicate_empty, List.append_nil, FileHeader.filter_inDisk hp,
    FileHeader.filter_inDisk hp'] using he

structure Gains (d d' : Disk) (b : ℤ) (part add : List ℤ) : Prop where
  inDisk : ∀ s ∈ part ++ add, InDisk s
  length : (part ++ add).length ≤ 32
  before : IndirectBlock.ofSector (d b) = padded part
  after : IndirectBlock.ofSector (d' b) = padded (part ++ add)

namespace Stored

variable {d d' : Disk} {slots slots' bs secs nbs nsecs : List ℤ} {b : ℤ}

lemma cons_inv (h : Stored d slots (b :: bs) secs) :
    ∃ part slots' secs', slots = b :: slots' ∧ secs = part ++ secs' ∧ (∀ s ∈ part, InDisk s) ∧ 0 < part.length ∧
      part.length ≤ 32 ∧ (bs ≠ [] → part.length = 32) ∧ IndirectBlock.ofSector (d b) = padded part ∧
      Stored d slots' bs secs' := by
  cases h with
  | cons _ hpart hpos hle hfull hd rest => exact ⟨_, _, _, rfl, rfl, hpart, hpos, hle, hfull, hd, rest⟩

lemma gains (h : Stored d slots bs secs) : ∀ {slots' : List ℤ}, Stored d' slots' (bs ++ nbs) (secs ++ nsecs) →
    bs ≠ [] →
    ∃ b part add, b ∈ bs ∧ Gains d d' b part add ∧ add <+: nsecs ∧ ∀ x ∈ bs, x ≠ b → d' x = d x := by
  induction h with
  | nil n => exact fun _ hne => absurd rfl hne
  | @cons b part slots bs secs hb hpart hpos hle hfull hd rest ih =>
    intro slots' h' _
    rw [List.cons_append, List.append_assoc] at h'
    obtain ⟨part', slots₁, secs₁, -, hsecs, hpart', hpos', hle', hfull', hd', rest'⟩ := cons_inv h'
    by_cases hbs : bs = []
    · -- the last block is filled up before another one is begun
      subst hbs
      obtain rfl := rest.blocks_eq_nil.mp rfl
      rw [List.nil_append] at hsecs rest'
      have hlong : part.length ≤ part'.length := by
        by_cases hnbs : nbs = []
        · rw [rest'.blocks_eq_nil.mp hnbs, List.append_nil] at hsecs
          rw [← hsecs, List.length_append]
          exact Nat.le_add_right _ _
        · rw [hfull' hnbs]
          exact hle
      obtain ⟨add, rfl⟩ : part <+: part' := List.prefix_of_prefix_length_le ⟨nsecs, hsecs⟩ ⟨secs₁, rfl⟩ hlong
      rw [List.append_assoc, List.append_cancel_left_eq] at hsecs
      refine ⟨b, part, add, List.mem_cons_self, ⟨hpart', hle', hd, hd'⟩, ⟨secs₁, hsecs.symm⟩, fun x hx hne => ?_⟩
      exact absurd (List.mem_singleton.mp hx) hne
    · obtain ⟨rfl, rfl⟩ := List.append_inj hsecs (by rw [hfull hbs, hfull' (by simp [hbs])])
      obtain ⟨b', part', add, hb', hg, hadd, hsame⟩ := ih rest' hbs
      refine ⟨b', part', add, List.mem_cons_of_mem _ hb', hg, hadd, fun x hx hne => ?_⟩
      obtain rfl | hx := List.mem_cons.mp hx
      · exact IndirectBlock.ofSector_injective (hd'.trans hd.symm)
      · exact hsame x hx hne

lemma gain (h : Stored d slots bs secs) {part add : List ℤ} (hg : Gains d d' b part add) :
    bs.Nodup → (∀ x ∈ bs, x ≠ b → d' x = d x) → Stored d' slots bs secs ∨ Stored d' slots bs (secs ++ add) := by
  induction h with
  | nil n => exact fun _ _ => Or.inl (.nil n)
  | @cons b₀ part₀ slots bs secs hb hpart hpos hle hfull hd rest ih =>
    intro hnd hsame
    obtain ⟨hbs, hnd⟩ := List.nodup_cons.mp hnd
    by_cases hne : b₀ = b
    · subst hne
      have hrest : Stored d' slots bs secs :=
        rest.congr fun x hx => hsame x (List.mem_cons_of_mem _ hx) fun he => hbs (he ▸ hx)
      obtain rfl : part = part₀ := padded_injective (fun s hs => hg.inDisk s (List.mem_append_left _ hs)) hpart
        (hg.before.symm.trans hd)
      by_cases hnil : bs = []
      · right
        obtain rfl := rest.blocks_eq_nil.mp hnil
        rw [List.append_nil]
        have hcons :=
          Stored.cons hb hg.inDisk (by rw [List.length_append]; omega) hg.length (fun h => absurd hnil h)
          hg.after hrest
        rwa [List.append_nil] at hcons
      · -- a full block gains nothing
        left
        have hlen := hg.length
        rw [List.length_append, hfull hnil] at hlen
        obtain rfl : add = [] := List.length_eq_zero_iff.mp (by omega)
        have hafter := hg.after
        rw [List.append_nil] at hafter
        exact .cons hb hpart hpos hle hfull hafter hrest
    · have hblock : d' b₀ = d b₀ := hsame b₀ List.mem_cons_self hne
      rw [← hblock] at hd
      refine (ih hnd fun x hx => hsame x (List.mem_cons_of_mem _ hx)).imp (fun hr => ?_) fun hr => ?_
      · exact .cons hb hpart hpos hle hfull hd hr
      · rw [List.append_assoc]
        exact .cons hb hpart hpos hle hfull hd hr

end Stored

/-- What a sector is for: it holds the header of a file, or it is an indirect block or a data sector of the
file whose header is at sector `s`. -/
inductive Role
  | header
  | block (s : ℤ)
  | data (s : ℤ)
  deriving DecidableEq

/-- The header `h`, one that the file at sector `s` has or had, stands for blocks and data of that file. -/
structure View (role : ℤ → Option Role) (d : Disk) (s : ℤ) (h : FileHeader) (bs secs : List ℤ) : Prop where
  on : h.On d bs secs
  nodup : (bs ++ secs).Nodup
  blocks : ∀ b ∈ bs, role b = some (.block s)
  data : ∀ x ∈ secs, role x = some (.data s)
  permisstion : int32 h.permisstion = h.permisstion

lemma hdrAt_permisstion (d : Disk) (s : ℤ) : int32 (hdrAt d s).permisstion = (hdrAt d s).permisstion :=
  int32_of_bounds (toInt_bounds ((d s).word 0)).1 (toInt_bounds ((d s).word 0)).2

namespace View

variable {role role' : ℤ → Option Role} {d d' : Disk} {s : ℤ} {h : FileHeader} {bs secs : List ℤ}

lemma congr (hv : View role d s h bs secs) (hd : ∀ b ∈ bs, d' b = d b) : View role d' s h bs secs :=
  { hv with on := hv.on.congr hd }

lemma mono (hv : View role d s h bs secs) (hrole : ∀ {x r}, role x = some r → role' x = some r) :
    View role' d s h bs secs :=
  { hv with
    blocks := fun b hb => hrole (hv.blocks b hb)
    data := fun x hx => hrole (hv.data x hx) }

end View

/-- The headers on the disk and those in the handles on plain files agree on the role of every sector, and
a sector that has a role is marked in the free map `m`. -/
structure Roles (role : ℤ → Option Role) (d : Disk) (m : FreeMap)
    (kind : ℤ → Option Kind) (handles : List OpenFile) :
    Prop where
  header : ∀ {s c}, kind s = some c → role s = some .header
  file : ∀ {s c}, kind s = some c → View role d s (hdrAt d s) (blocksAt d s) (dataAt d s)
  handle : ∀ f ∈ handles, kind f.hdrSector = some .plain → ∃ bs secs, View role d f.hdrSector f.hdr bs secs
  marked : ∀ {x r}, role x = some r → Marked m x

namespace Roles

variable {role role' : ℤ → Option Role} {d d' d₁ : Disk} {m m' : FreeMap} {kind : ℤ → Option Kind}
  {handles handles' : List OpenFile} {s : ℤ} {c : Kind} {f : OpenFile} {bs secs nbs nsecs : List ℤ}

lemma fileAt (hr : Roles role d m kind handles) (hk : kind s = some c) : FileAt d s :=
  ⟨(hr.marked (hr.header hk)).1, (hr.file hk).on⟩

lemma role_owned (hr : Roles role d m kind handles) (hk : kind s = some c) {x : ℤ} (hx : x ∈ owned d s) :
    x = s ∧ role x = some .header ∨ role x = some (.block s) ∨ role x = some (.data s) := by
  obtain rfl | hx := List.mem_cons.mp hx
  · exact Or.inl ⟨rfl, hr.header hk⟩
  · obtain hx | hx := List.mem_append.mp hx
    · exact Or.inr (Or.inl ((hr.file hk).blocks x hx))
    · exact Or.inr (Or.inr ((hr.file hk).data x hx))

lemma storage (hr : Roles role d' m' kind handles) (hs : Storage d m kind)
    (h0 : d' FreeMapSector = d FreeMapSector)
    (hb : ∀ b ∈ blocksAt d FreeMapSector, d' b = d b) : Storage d' m' kind where
  file hk := hr.fileAt hk
  nodup {s c} hk := by
    refine List.nodup_cons.mpr ⟨fun hmem => ?_, (hr.file hk).nodup⟩
    have hself := hr.header hk
    obtain hx | hx := List.mem_append.mp hmem
    · rw [(hr.file hk).blocks s hx] at hself
      cases hself
    · rw [(hr.file hk).data s hx] at hself
      cases hself
  apart {s s' c c'} hk hk' hne x hx hx' := by
    rcases hr.role_owned hk hx with ⟨rfl, h⟩ | h | h <;> rcases hr.role_owned hk' hx' with ⟨rfl, h'⟩ | h' | h' <;>
      simp_all
  marked hk x hx := by
    rcases hr.role_owned hk hx with ⟨-, h⟩ | h | h <;> exact hr.marked h
  map := hs.map
  mapLength := by
    rw [hdrAt_congr h0]
    exact hs.mapLength
  mapBacked := by
    rw [dataAt_congr h0 hb]
    exact hs.mapBacked

lemma of_data (hr : Roles role d m kind handles)
    (hd : ∀ {x r}, role x = some r → (∀ s, r ≠ .data s) → d' x = d x) :
    Roles role d' m kind handles := by
  have hblocks : ∀ {s h bs secs}, View role d s h bs secs → View role d' s h bs secs := fun hv =>
    hv.congr fun b hb => hd (hv.blocks b hb) (by simp)
  refine ⟨hr.header, fun {s c} hk => ?_, fun f hf hk => ?_, hr.marked⟩
  · have hself : d' s = d s := hd (hr.header hk) (by simp)
    rw [hdrAt_congr hself, blocksAt_congr hself,
        dataAt_congr hself fun b hb => hd ((hr.file hk).blocks b hb) (by simp)]
    exact hblocks (hr.file hk)
  · obtain ⟨bs, secs, hv⟩ := hr.handle f hf hk
    exact ⟨bs, secs, hblocks hv⟩

def withSectors (role : ℤ → Option Role) (s : ℤ) (nbs nsecs : List ℤ) (x : ℤ) : Option Role :=
  if x ∈ nbs then some (.block s) else if x ∈ nsecs then some (.data s) else role x

lemma no_role_of_free (hr : Roles role d m kind handles) {x : ℤ} (hx : x ∈ sectors m.free) : role x = none := by
  cases h : role x with
  | none => rfl
  | some r => exact absurd hx (marked_iff.mp (hr.marked h)).2

lemma withSectors_of_role (hr : Roles role d m kind handles) (ht : Taken m m' (nbs ++ nsecs)) {x : ℤ} {r : Role}
    (h : role x = some r) : withSectors role s nbs nsecs x = some r := by
  have hnew : x ∉ nbs ++ nsecs := fun hx => by
    rw [hr.no_role_of_free (ht.mem_free hx)] at h
    cases h
  rw [List.mem_append, not_or] at hnew
  rw [withSectors, if_neg hnew.1, if_neg hnew.2]
  exact h

lemma withSectors_data (ht : Taken m m' (nbs ++ nsecs)) {x : ℤ} (hx : x ∈ nsecs) :
    withSectors role s nbs nsecs x = some (.data s) := by
  have hnb : x ∉ nbs := fun hb => (List.nodup_append.mp ht.nodup).2.2 x hb x hx rfl
  rw [withSectors, if_neg hnb, if_pos hx]

lemma view_extended (hr : Roles role d m kind handles) (hv : View role d s f.hdr bs secs)
    (ht : Taken m m' (nbs ++ nsecs)) {hdr : FileHeader} (hon : hdr.On d' (bs ++ nbs) (secs ++ nsecs))
    (hfits : hdr.Fits) :
    View (withSectors role s nbs nsecs) d' s hdr (bs ++ nbs) (secs ++ nsecs) := by
  have hold : ∀ x ∈ bs ++ secs, x ∉ nbs ++ nsecs := by
    intro x hx hn
    have hnone := hr.no_role_of_free (ht.mem_free hn)
    obtain hx | hx := List.mem_append.mp hx
    · rw [hv.blocks x hx] at hnone
      cases hnone
    · rw [hv.data x hx] at hnone
      cases hnone
  have hperm : (bs ++ nbs ++ (secs ++ nsecs)).Perm (bs ++ secs ++ (nbs ++ nsecs)) := by
    simp only [List.append_assoc]
    refine List.Perm.append_left _ ?_
    rw [← List.append_assoc, ← List.append_assoc]
    exact List.perm_append_comm.append_right _
  refine ⟨hon, ?_, fun b hb => ?_, fun x hx => ?_, hfits.permisstion⟩
  · rw [hperm.nodup_iff, List.nodup_append]
    refine ⟨hv.nodup, ht.nodup, ?_⟩
    rintro x hx _ hn rfl
    exact hold x hx hn
  · obtain hb | hb := List.mem_append.mp hb
    · exact hr.withSectors_of_role ht (hv.blocks b hb)
    · rw [withSectors, if_pos hb]
  · obtain hx | hx := List.mem_append.mp hx
    · exact hr.withSectors_of_role ht (hv.data x hx)
    · exact withSectors_data ht hx

lemma view_shared (hr : Roles role d m kind handles) (hv : View role d s f.hdr bs secs)
    (ht : Taken m m' (nbs ++ nsecs))
    {hdr : FileHeader} (hon : hdr.On d' (bs ++ nbs) (secs ++ nsecs))
    (hd : ∀ {x}, role x = some (.block s) → x ∉ bs → d' x = d x) {g : FileHeader} {bs' secs' : List ℤ}
    (hg : View role d s g bs' secs') : ∃ secs'', View (withSectors role s nbs nsecs) d' s g bs' secs'' := by
  have hmono : ∀ {x r}, role x = some r → withSectors role s nbs nsecs x = some r :=
    fun h => hr.withSectors_of_role ht h
  by_cases hbs : bs = []
  · subst hbs
    exact ⟨secs', (hg.congr fun b hb => hd (hg.blocks b hb) List.not_mem_nil).mono hmono⟩
  obtain ⟨b, part, add, hb, hgain, hadd, hsame⟩ := hv.on.stored.gains hon.stored hbs
  have hothers : ∀ x ∈ bs', x ≠ b → d' x = d x := by
    intro x hx hne
    by_cases hxb : x ∈ bs
    · exact hsame x hxb hne
    · exact hd (hg.blocks x hx) hxb
  have hnd := (List.nodup_append.mp hg.nodup).1
  rcases hg.on.stored.gain hgain hnd hothers with hst | hst
  · exact ⟨secs', { hg with on := ⟨hst, hg.on.length⟩ }.mono hmono⟩
  · refine ⟨secs' ++ add, ⟨hst, hg.on.length⟩, ?_, fun b hb => hmono (hg.blocks b hb),
        fun x hx => ?_, hg.permisstion⟩
    · rw [← List.append_assoc, List.nodup_append]
      refine ⟨hg.nodup, (List.nodup_append.mp ht.nodup).2.1.sublist hadd.sublist, ?_⟩
      rintro x hx _ hx' rfl
      have hnone := hr.no_role_of_free (ht.mem_free (List.mem_append_right _ (hadd.subset hx')))
      obtain hx | hx := List.mem_append.mp hx
      · rw [hg.blocks x hx] at hnone
        cases hnone
      · rw [hg.data x hx] at hnone
        cases hnone
    · obtain hx | hx := List.mem_append.mp hx
      · exact hmono (hg.data x hx)
      · exact withSectors_data ht (hadd.subset hx)

lemma extend (hr : Roles role d m kind handles) (hk : kind s = some .plain) (hv : View role d s f.hdr bs secs)
    (ht : Taken m m' (nbs ++ nsecs)) {hdr : FileHeader} (hon : hdr.On d₁ (bs ++ nbs) (secs ++ nsecs))
    (hfits : hdr.Fits)
    (hd₁ : ∀ x, x ∉ bs → x ∉ nbs → d₁ x = d x) : ∀ d', d' = Function.update d₁ s hdr.toSector →
    Roles (withSectors role s nbs nsecs) d' m' kind handles ∧
      View (withSectors role s nbs nsecs) d' s hdr (bs ++ nbs) (secs ++ nsecs) ∧ hdrAt d' s = hdr ∧
      ∀ {x r}, role x = some r → x ≠ s → r ≠ .block s → d' x = d x := by
  rintro d' rfl
  set d' := Function.update d₁ s hdr.toSector with hd'
  have hself : hdrAt d' s = hdr := by rw [hdrAt, hd', Function.update_self, FileHeader.ofSector_toSector _ hfits]
  have hnew : ∀ {x r}, role x = some r → x ∉ nbs := fun {x r} h hx => by
    rw [hr.no_role_of_free (ht.mem_free (List.mem_append_left _ hx))] at h
    cases h
  have hne : ∀ {x r}, role x = some r → r ≠ .header → x ≠ s := by
    rintro x r h hne rfl
    rw [hr.header hk] at h
    exact hne (Option.some.inj h).symm
  have hframe : ∀ {x r}, role x = some r → x ≠ s → r ≠ .block s → d' x = d x := by
    intro x r h hxs hb
    rw [hd', Function.update_of_ne hxs, hd₁ x (fun hx => hb ?_) (hnew h)]
    rw [hv.blocks x hx] at h
    exact (Option.some.inj h).symm
  have hsb : s ∉ bs ++ nbs := by
    intro h
    obtain h | h := List.mem_append.mp h
    · exact hne (hv.blocks s h) (by simp) rfl
    · exact hnew (hr.header hk) h
  have hon' : hdr.On d' (bs ++ nbs) (secs ++ nsecs) := hon.congr fun b hb =>
    Function.update_of_ne (fun he : b = s => hsb (he ▸ hb)) _ _
  have hview := hr.view_extended hv ht hon' hfits
  have hmono : ∀ {x r}, role x = some r → withSectors role s nbs nsecs x = some r :=
    fun h => hr.withSectors_of_role ht h
  have hother : ∀ {s' h' bs' secs'}, s' ≠ s → View role d s' h' bs' secs' →
      View (withSectors role s nbs nsecs) d' s' h' bs' secs' := fun hss hv' =>
    (hv'.congr fun b hb => hframe (hv'.blocks b hb) (hne (hv'.blocks b hb) (by simp)) (by simp [hss])).mono hmono
  refine ⟨⟨fun hk => hmono (hr.header hk), fun {s' c} hk' => ?_, fun g hg hk' => ?_, fun {x r} h => ?_⟩,
      hview, hself, hframe⟩
  · by_cases hss : s' = s
    · subst hss
      obtain ⟨-, hbe, hde⟩ := FileAt.of_on (d := d') (hr.fileAt hk).inDisk (by rw [hself]; exact hon')
      rw [hself, hbe, hde]
      exact hview
    · have hh : d' s' = d s' := hframe (hr.header hk') hss (by simp)
      rw [hdrAt_congr hh, blocksAt_congr hh, dataAt_congr hh fun b hb => hframe ((hr.file hk').blocks b hb)
        (hne ((hr.file hk').blocks b hb) (by simp)) (by simp [hss])]
      exact hother hss (hr.file hk')
  · obtain ⟨bs', secs', hv'⟩ := hr.handle g hg hk'
    by_cases hss : g.hdrSector = s
    · have hblock : ∀ {x}, role x = some (.block s) → x ∉ bs → d' x = d x := fun h hx => by
        rw [hd', Function.update_of_ne (hne h (by simp)), hd₁ _ hx (hnew h)]
      rw [hss] at hv' ⊢
      obtain ⟨secs'', hv''⟩ := hr.view_shared hv ht hon' hblock hv'
      exact ⟨bs', secs'', hv''⟩
    · exact ⟨bs', secs', hother hss hv'⟩
  · rw [withSectors] at h
    split at h
    · exact ht.marked (List.mem_append_left _ ‹_›)
    · split at h
      · exact ht.marked (List.mem_append_right _ ‹_›)
      · exact ht.marked_mono (hr.marked h)

lemma sound {fs : FileSystem} (hr : Roles role d m kind handles)
    (hr' : Roles role' d' (freeMapAt d') kind handles')
    (hs : Sound fs d kind) (hk : kind s = some .plain)
    (hframe : ∀ {x r}, role x = some r → x ≠ s → r ≠ .block s →
    r ≠ .data s → r ≠ .data FreeMapSector → d' x = d x) :
    Sound fs d' kind ∧ SameDirs kind d d' := by
  have hmap : FreeMapSector ≠ s := Ne.symm (hs.plain_ne_map hk)
  have hne : ∀ {x r}, role x = some r → r ≠ .header → x ≠ s := by
    rintro x r h hne rfl
    rw [hr.header hk] at h
    exact hne (Option.some.inj h).symm
  have h0 : d' FreeMapSector = d FreeMapSector :=
    hframe (hr.header hs.storage.map) hmap (by simp) (by simp) (by simp)
  refine hs.of_storage (hr'.storage hs.storage h0 fun b hb => ?_) h0 fun {x} hkx y hy => ?_
  · have hb := (hr.file hs.storage.map).blocks b hb
    exact hframe hb (hne hb (by simp)) (by simpa using hmap) (by simp) (by simp)
  · have hxs : x ≠ s := by
      rintro rfl
      rw [hk] at hkx
      cases hkx
    have hx0 : x ≠ FreeMapSector := hs.dir_ne_map hkx
    rcases hr.role_owned hkx hy with ⟨rfl, h⟩ | h | h
    · exact hframe h hxs (by simp) (by simp) (by simp)
    · exact hframe h (hne h (by simp)) (by simpa using hxs) (by simp) (by simp)
    · exact hframe h (hne h (by simp)) (by simp) (by simpa using hxs) (by simpa using hx0)

section Exec

variable {fs : FileSystem} {k k' : Kernel} {f' : OpenFile} {src : List Byte} {n r : ℤ}
  (hr : Roles role k.disk (freeMapAt k.disk) kind handles) (hs : Sound fs k.disk kind)
  (hk : kind f.hdrSector = some .plain)
  (hv : View role k.disk f.hdrSector f.hdr bs secs)
include hr hs hk hv

lemma extend_inv (he : exec (OpenFile.extend fs.freeMapFile f n) k = .ok (f', k')) :
    ∃ role' hdr nbs nsecs, f' = { f with hdr := hdr } ∧ k'.maps = k.maps ∧ nsecs.length = sectorsNeeded n ∧
      Roles role' k'.disk (freeMapAt k'.disk) kind handles ∧
      View role' k'.disk f.hdrSector hdr (bs ++ nbs) (secs ++ nsecs) ∧ hdrAt k'.disk f.hdrSector = hdr ∧
      Sound fs k'.disk kind ∧ SameDirs kind k.disk k'.disk ∧
      Taken (freeMapAt k.disk) (freeMapAt k'.disk) (nbs ++ nsecs) := by
  rw [OpenFile.exec_extend_start hs.storage hs.mapFile hs.mapSector, OpenFile.extendFrom] at he
  obtain ⟨⟨success, hdr, m'⟩, k₁, ha, he⟩ := exec_bind_ok.mp he
  obtain ⟨u, k₂, hsucc, he⟩ := exec_bind_ok.mp he
  obtain ⟨rfl, rfl⟩ := exec_assert_ok.mp hsucc
  have hbf : ∀ b ∈ bs, b ∉ sectors (freeMapAt k.disk).free := fun b hb hfree => by
    have := hv.blocks b hb
    rw [hr.no_role_of_free hfree] at this
    cases this
  obtain ⟨ds, nbs, nsecs, d₁, rfl, rfl, hon, hlen, ht, hd₁⟩ :=
    FileHeader.allocate_inv hv.on (List.nodup_append.mp hv.nodup).1 hbf ha
  have hfits := FileHeader.grown_fits hv.permisstion hon
  obtain ⟨hr₂, hv₂, hself, hframe⟩ := hr.extend hk hv ht hon hfits hd₁ _ rfl
  set d₂ := Function.update d₁ f.hdrSector (f.hdr.grown n ds).toSector with hd₂
  have hmap : FreeMapSector ≠ f.hdrSector := Ne.symm (hs.plain_ne_map hk)
  have hmaphdr : d₂ FreeMapSector = k.disk FreeMapSector := hframe (hr.header hs.storage.map) hmap (by simp)
  have hmapblocks : ∀ b ∈ blocksAt k.disk FreeMapSector, d₂ b = k.disk b := by
    intro b hb
    have hb := (hr.file hs.storage.map).blocks b hb
    refine hframe hb ?_ (by simpa using hmap)
    rintro rfl
    rw [hr.header hk] at hb
    cases hb
  have hst := hr₂.storage hs.storage hmaphdr hmapblocks
  have hcur : fs.freeMapFile.Current d₂ := by
    have h := hs.mapFile
    rw [OpenFile.Current, hs.mapSector] at h ⊢
    rw [hdrAt_congr hmaphdr, h]
  have hw := exec_write_inDisk (hr.fileAt hk).inDisk (f.hdr.grown n ds).toSector { k with disk := d₁ }
  rw [← FileHeader.writeBack] at hw
  obtain ⟨k₃, hwm, hm₃, hout, hfree⟩ := exec_writeBack_map (k := { k with disk := d₂ }) hst hcur hs.mapSector m'
  dsimp only at hout hm₃
  rw [exec_bind_of_ok hw, exec_bind_of_ok hwm] at he
  obtain ⟨rfl, rfl⟩ : { f with hdr := f.hdr.grown n ds } = f' ∧ k₃ = k' := by simpa using he
  have hdata : ∀ x ∈ dataAt d₂ FreeMapSector, Roles.withSectors role f.hdrSector nbs nsecs x =
      some (.data FreeMapSector) :=
    (hr₂.file hs.storage.map).data
  have hout' : ∀ {x r}, withSectors role f.hdrSector nbs nsecs x = some r → r ≠ .data FreeMapSector →
      k₃.disk x = d₂ x := fun {x r} h hne => hout x fun hx => by
    rw [hdata x hx] at h
    exact hne (Option.some.inj h).symm
  have hr₃ : Roles (withSectors role f.hdrSector nbs nsecs) k₃.disk (freeMapAt k₃.disk) kind handles := by
    rw [hfree]
    exact hr₂.of_data fun h hne => hout' h (hne _)
  obtain ⟨hs₃, htab⟩ := hr.sound hr₃ hs hk fun {x r} h hxs hb hd h0 =>
    (hout' (hr.withSectors_of_role ht h) h0).trans (hframe h hxs hb)
  refine ⟨_, _, nbs, nsecs, rfl, hm₃, hlen, hr₃, hv₂.congr fun b hb => hout' (hv₂.blocks b hb) (by simp),
      ?_, hs₃, htab, ?_⟩
  · rw [hdrAt_congr (hout' (hr₂.header hk) (by simp)), hself]
  · rw [hfree]
    exact ht

lemma writeLocked_inv (hsem : k.maps .semaphoreWrite f.hdrSector = some 1)
    (he : exec (f.writeLocked src n) k = .ok ((r, f'), k')) :
    Roles role k'.disk (freeMapAt k'.disk) kind handles ∧ View role k'.disk f.hdrSector f'.hdr bs secs ∧
      Sound fs k'.disk kind ∧ k'.maps = k.maps ∧ f'.hdr = f.hdr ∧ f'.hdrSector = f.hdrSector ∧
      SameDirs kind k.disk k'.disk ∧ freeMapAt k'.disk = freeMapAt k.disk ∧
      hdrAt k'.disk f.hdrSector = hdrAt k.disk f.hdrSector := by
  obtain ⟨hm, hout, hhdr, hsec⟩ := OpenFile.writeLocked_inv hsem hv.on hv.nodup he
  have hout' : ∀ {x r}, role x = some r → r ≠ .data f.hdrSector → k'.disk x = k.disk x := fun {x r} h hne =>
    hout x fun hx => by
      rw [hv.data x hx] at h
      exact hne (Option.some.inj h).symm
  have hmapFile := hr.file hs.storage.map
  have hmap : FreeMapSector ≠ f.hdrSector := Ne.symm (hs.plain_ne_map hk)
  -- the sectors of the free map are among those that stay
  have hfree : freeMapAt k'.disk = freeMapAt k.disk := by
    rw [freeMapAt, freeMapAt, dataAt_congr (hout' (hr.header hs.storage.map) (by simp)) fun b hb =>
      hout' (hmapFile.blocks b hb) (by simp)]
    congr 1
    apply bytesIn_congr
    intro q _ hq
    have hback := hs.storage.mapBacked
    exact byteIn_congr (by omega) fun x hx => hout' (hmapFile.data x hx) (by simpa using hmap)
  have hr' : Roles role k'.disk (freeMapAt k'.disk) kind handles := by
    rw [hfree]
    exact hr.of_data fun h hne => hout' h (hne _)
  obtain ⟨hs', htab⟩ := hr.sound hr' hs hk fun {x r} h _ _ hd _ => hout' h hd
  refine ⟨hr', ?_, hs', hm, hhdr, hsec, htab, hfree, hdrAt_congr (hout' (hr.header hk) (by simp))⟩
  rw [hhdr]
  exact hv.congr fun b hb => hout' (hv.blocks b hb) (by simp)

/-- A `Write` through any handle on a plain file keeps the roles, the directories and the marks in the free
map; it marks what it adds to the file. -/
lemma write_inv (hsem : k.maps .semaphoreWrite f.hdrSector = some 1)
    (he : exec (OpenFile.write fs.freeMapFile f src n) k = .ok ((r, f'), k')) :
    ∃ role' bs' secs' new, Roles role' k'.disk (freeMapAt k'.disk) kind handles ∧
      View role' k'.disk f.hdrSector f'.hdr bs' secs' ∧ Sound fs k'.disk kind ∧ k'.maps = k.maps ∧
      f'.hdrSector = f.hdrSector ∧ SameDirs kind k.disk k'.disk ∧
      Taken (freeMapAt k.disk) (freeMapAt k'.disk) new ∧ new ⊆ owned k'.disk f.hdrSector ∧
      (int32 (f.seekPosition + n) ≤ f.length → freeMapAt k'.disk = freeMapAt k.disk) ∧
      (f.length < int32 (f.seekPosition + n) → sectorsNeeded n ≤ new.length) := by
  by_cases hn : int32 (f.seekPosition + n) > f.hdr.fileLength
  · rw [OpenFile.exec_write_beyond _ hn] at he
    obtain ⟨g, t, hext, hw⟩ := exec_bind_ok.mp he
    obtain ⟨role', hdr, nbs, nsecs, rfl, hm, hlen, hr₁, hv₁, hself, hs₁, htab₁, ht⟩ := hr.extend_inv hs hk hv hext
    obtain ⟨hr₂, hv₂, hs₂, hm₂, hhdr₂, hsec₂, htab₂, hfree₂, hself₂⟩ :=
      hr₁.writeLocked_inv (f := { f with hdr := hdr }) hs₁ hk hv₁ (by rw [hm]; exact hsem) hw
    refine ⟨role', _, _, nbs ++ nsecs, hr₂, hv₂, hs₂, hm₂.trans hm, hsec₂, htab₁.trans htab₂,
      by rw [hfree₂]; exact ht, ?_, fun hle => absurd hn (not_lt.mpr hle), fun _ => ?_⟩
    case refine_2 =>
      rw [List.length_append, hlen]
      exact Nat.le_add_left _ _
    have hon := hv₂.on
    rw [hhdr₂] at hon
    dsimp only at hself₂ hon
    rw [hself] at hself₂
    rw [owned, blocksAt, dataAt, hself₂, hon.blocks_eq, hon.data_eq]
    intro x hx
    obtain hx | hx := List.mem_append.mp hx
    · exact List.mem_cons_of_mem _ (List.mem_append_left _ (List.mem_append_right _ hx))
    · exact List.mem_cons_of_mem _ (List.mem_append_right _ (List.mem_append_right _ hx))
  · rw [OpenFile.exec_write_within _ hn] at he
    obtain ⟨hr₂, hv₂, hs₂, hm₂, -, hsec₂, htab₂, hfree₂, -⟩ := hr.writeLocked_inv hs hk hv hsem he
    exact ⟨role, bs, secs, [], hr₂, hv₂, hs₂, hm₂, hsec₂, htab₂, by rw [hfree₂]; exact .refl _, List.nil_subset _,
      fun _ => hfree₂, fun h => absurd h hn⟩

end Exec

lemma replace (hr : Roles role d m kind handles)
    (h : ∀ f ∈ handles', kind f.hdrSector = some .plain →
    f ∈ handles ∨ ∃ bs secs, View role d f.hdrSector f.hdr bs secs) :
    Roles role d m kind handles' :=
  { hr with handle := fun f hf hk => (h f hf hk).elim (fun hf => hr.handle f hf hk) id }

lemma install (hr : Roles role d m kind handles) {i : ℤ} (hst : Storage d' m' (Function.update kind i (some c)))
    (ht : Taken m m' (owned d' i)) (hd : ∀ {x r}, role x = some r → (∀ s, r ≠ .data s) → d' x = d x)
    (hhandles : ∀ f ∈ handles, kind f.hdrSector ≠ none) :
    ∃ role', Roles role' d' m' (Function.update kind i (some c)) handles := by
  have hki : Function.update kind i (some c) i = some c := Function.update_self ..
  obtain ⟨hself, hnd⟩ := List.nodup_cons.mp (hst.nodup hki)
  rw [List.mem_append, not_or] at hself
  let role' : ℤ → Option Role :=
    fun x => if x = i then some .header else withSectors role i (blocksAt d' i) (dataAt d' i) x
  have hnew : ∀ {x r}, role x = some r → x ∉ owned d' i := fun {x r} h hx => by
    rw [hr.no_role_of_free (ht.mem_free hx)] at h
    cases h
  have hmono : ∀ {x r}, role x = some r → role' x = some r := by
    intro x r h
    have hout := hnew h
    rw [owned, List.mem_cons, List.mem_append, not_or, not_or] at hout
    simp only [role', withSectors, if_neg hout.1, if_neg hout.2.1, if_neg hout.2.2]
    exact h
  have hold : ∀ {s c'}, s ≠ i → Function.update kind i (some c) s = some c' → kind s = some c' := fun hne hk => by
    rwa [Function.update_of_ne hne] at hk
  have hview : ∀ {s h bs secs}, View role d s h bs secs → View role' d' s h bs secs := fun hv =>
    (hv.congr fun b hb => hd (hv.blocks b hb) (by simp)).mono hmono
  refine ⟨role', fun {s c'} hk => ?_, fun {s c'} hk => ?_, fun f hf hk => ?_, fun {x r} h => ?_⟩
  · by_cases hs : s = i
    · exact if_pos hs
    · exact hmono (hr.header (hold hs hk))
  · by_cases hs : s = i
    · subst hs
      refine ⟨(hst.file hki).on, hnd, fun b hb => ?_, fun x hx => ?_, hdrAt_permisstion d' s⟩
      · have hne : b ≠ s := by
          rintro rfl
          exact hself.1 hb
        simp only [role', withSectors, if_neg hne, if_pos hb]
      · have hne : x ≠ s := by
          rintro rfl
          exact hself.2 hx
        have hxb : x ∉ blocksAt d' s := fun hb => (List.nodup_append.mp hnd).2.2 x hb x hx rfl
        simp only [role', withSectors, if_neg hne, if_neg hxb, if_pos hx]
    · have hk := hold hs hk
      have hh : d' s = d s := hd (hr.header hk) (by simp)
      rw [hdrAt_congr hh, blocksAt_congr hh, dataAt_congr hh fun b hb => hd ((hr.file hk).blocks b hb) (by simp)]
      exact hview (hr.file hk)
  · have hne : f.hdrSector ≠ i := by
      intro he
      obtain ⟨c', hk'⟩ := Option.ne_none_iff_exists'.mp (hhandles f hf)
      exact hnew (hr.header hk') (by rw [he]; exact mem_owned_self _ _)
    obtain ⟨bs, secs, hv⟩ := hr.handle f hf (hold hne hk)
    exact ⟨bs, secs, hview hv⟩
  · by_cases hx : x ∈ owned d' i
    · exact ht.marked hx
    · rw [owned, List.mem_cons, List.mem_append, not_or, not_or] at hx
      simp only [role', withSectors, if_neg hx.1, if_neg hx.2.1, if_neg hx.2.2] at h
      exact ht.marked_mono (hr.marked h)

lemma drop (hr : Roles role d m kind handles) {freed : List ℤ} (hk : kind s = some c) (hc : Cleared m m' freed)
    (hfreed : freed ⊆ owned d s) (hd : ∀ {x r}, role x = some r → (∀ s, r ≠ .data s) → d' x = d x)
    (hhandles : ∀ f ∈ handles, f.hdrSector ≠ s) :
    ∃ role', Roles role' d' m' (Function.update kind s none) handles := by
  let role' : ℤ → Option Role := fun x =>
    if x = s ∨ role x = some (.block s) ∨ role x = some (.data s) then none else role x
  have hkeep : ∀ {x r}, role x = some r → x ≠ s → r ≠ .block s → r ≠ .data s → role' x = some r := by
    intro x r h hx hb hdata
    have hno : ¬(x = s ∨ role x = some (.block s) ∨ role x = some (.data s)) := by
      simp only [h, Option.some.injEq, not_or]
      exact ⟨hx, hb, hdata⟩
    simp only [role', if_neg hno]
    exact h
  have hne : ∀ {x r}, role x = some r → r ≠ .header → x ≠ s := by
    rintro x r h hne rfl
    rw [hr.header hk] at h
    exact hne (Option.some.inj h).symm
  have hold : ∀ {s' c'}, Function.update kind s none s' = some c' → s' ≠ s ∧ kind s' = some c' := by
    intro s' c' h
    by_cases hs : s' = s
    · rw [hs, Function.update_self] at h
      cases h
    · rw [Function.update_of_ne hs] at h
      exact ⟨hs, h⟩
  have hview : ∀ {s' h bs secs}, s' ≠ s → View role d s' h bs secs → View role' d' s' h bs secs := fun hs hv =>
    { hv with
      on := hv.on.congr fun b hb => hd (hv.blocks b hb) (by simp)
      blocks := fun b hb => hkeep (hv.blocks b hb) (hne (hv.blocks b hb) (by simp)) (by simpa using hs) (by simp)
      data := fun x hx => hkeep (hv.data x hx) (hne (hv.data x hx) (by simp)) (by simp) (by simpa using hs) }
  refine ⟨role', fun {s' c'} hk' => ?_, fun {s' c'} hk' => ?_, fun f hf hk' => ?_, fun {x r} h => ?_⟩
  · exact hkeep (hr.header (hold hk').2) (hold hk').1 (by simp) (by simp)
  · obtain ⟨hs, hk'⟩ := hold hk'
    have hh : d' s' = d s' := hd (hr.header hk') (by simp)
    rw [hdrAt_congr hh, blocksAt_congr hh, dataAt_congr hh fun b hb => hd ((hr.file hk').blocks b hb) (by simp)]
    exact hview hs (hr.file hk')
  · obtain ⟨bs, secs, hv⟩ := hr.handle f hf (hold hk').2
    exact ⟨bs, secs, hview (hhandles f hf) hv⟩
  · simp only [role'] at h
    split at h
    · cases h
    · rename_i hno
      rw [not_or, not_or] at hno
      refine hc.marked (hr.marked h) fun hx => ?_
      rcases hr.role_owned hk (hfreed hx) with ⟨he, -⟩ | hb | hb
      · exact hno.1 he
      · exact hno.2.1 hb
      · exact hno.2.2 hb

end Roles

lemma Storage.roles {d : Disk} {m : FreeMap} {kind : ℤ → Option Kind} (hs : Storage d m kind) :
    ∃ role, Roles role d m kind [] := by
  classical
  let role : ℤ → Option Role := fun x =>
    if ∃ c, kind x = some c then some .header
    else if h : ∃ s, (∃ c, kind s = some c) ∧ x ∈ blocksAt d s then some (.block h.choose)
    else if h : ∃ s, (∃ c, kind s = some c) ∧ x ∈ dataAt d s then some (.data h.choose) else none
  -- two files that own a sector are one
  have hsame : ∀ {s s' c c' x}, kind s = some c → kind s' = some c' → x ∈ owned d s → x ∈ owned d s' → s = s' := by
    intro s s' c c' x hk hk' hx hx'
    by_contra hne
    exact hs.apart hk hk' hne x hx hx'
  have hnohdr : ∀ {s c x}, kind s = some c → x ∈ blocksAt d s ++ dataAt d s → ¬∃ c, kind x = some c := by
    rintro s c x hk hx ⟨c', hkx⟩
    have he := hsame hkx hk (mem_owned_self d x) (List.mem_cons_of_mem _ hx)
    rw [he] at hx
    exact (List.nodup_cons.mp (hs.nodup hk)).1 hx
  have hblock : ∀ {s c x}, kind s = some c → x ∈ blocksAt d s → role x = some (.block s) := by
    intro s c x hk hx
    have h : ∃ s, (∃ c, kind s = some c) ∧ x ∈ blocksAt d s := ⟨s, ⟨c, hk⟩, hx⟩
    obtain ⟨⟨c', hk'⟩, hx'⟩ := h.choose_spec
    simp only [role, if_neg (hnohdr hk (List.mem_append_left _ hx)), dif_pos h]
    rw [hsame hk' hk (mem_owned_block hx') (mem_owned_block hx)]
  have hdata : ∀ {s c x}, kind s = some c → x ∈ dataAt d s → role x = some (.data s) := by
    intro s c x hk hx
    have hnb : ¬∃ s, (∃ c, kind s = some c) ∧ x ∈ blocksAt d s := by
      rintro ⟨s', ⟨c', hk'⟩, hx'⟩
      obtain rfl := hsame hk' hk (mem_owned_block hx') (mem_owned_data hx)
      exact hs.block_not_data hk hx' hx
    have h : ∃ s, (∃ c, kind s = some c) ∧ x ∈ dataAt d s := ⟨s, ⟨c, hk⟩, hx⟩
    obtain ⟨⟨c', hk'⟩, hx'⟩ := h.choose_spec
    simp only [role, if_neg (hnohdr hk (List.mem_append_right _ hx)), dif_neg hnb, dif_pos h]
    rw [hsame hk' hk (mem_owned_data hx') (mem_owned_data hx)]
  refine ⟨role, fun {s c} hk => if_pos ⟨c, hk⟩, fun {s c} hk => ?_,
      fun f hf => absurd hf List.not_mem_nil, fun {x r} h => ?_⟩
  · exact ⟨(hs.file hk).on, hs.data_nodup hk, fun b hb => hblock hk hb, fun x hx => hdata hk hx,
      hdrAt_permisstion d s⟩
  · simp only [role] at h
    split at h
    · obtain ⟨c, hk⟩ := ‹∃ c, kind x = some c›
      exact hs.marked hk x (mem_owned_self d x)
    · split at h
      · obtain ⟨s, ⟨c, hk⟩, hx⟩ := ‹∃ s, (∃ c, kind s = some c) ∧ x ∈ blocksAt d s›
        exact hs.marked hk x (mem_owned_block hx)
      · split at h
        · obtain ⟨s, ⟨c, hk⟩, hx⟩ := ‹∃ s, (∃ c, kind s = some c) ∧ x ∈ dataAt d s›
          exact hs.marked hk x (mem_owned_data hx)
        · cases h

end NachosFileSys
