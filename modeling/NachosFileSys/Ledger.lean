import NachosFileSys.Lib.Interference
import NachosFileSys.Lib.Results
import NachosFileSys.Views
import NachosFileSys.Exclusion

namespace NachosFileSys

open Lib.Programs Lib.Bytes
open Prog (Safe Terms)

structure Ledger where
  role : ℤ → Option Role
  map : Sector

def entries (data : Sector) : List ℤ := (IndirectBlock.ofSector data).dataSectors.filter (· ≠ EmptyBlock)

def mapOf (data : Sector) : FreeMap := Bitmap.ofBytes data.toList

def Covers (m : FreeMap) (g : Ledger) : Prop := ∀ x r, g.role x = some r → Marked m x

namespace Ledger

def Grows (g g' : Ledger) : Prop := ∀ x r, g.role x = some r → g'.role x = some r

lemma Grows.refl (g : Ledger) : g.Grows g := fun _ _ h => h

lemma Grows.trans {g g₁ g₂ : Ledger} (h : g.Grows g₁) (h' : g₁.Grows g₂) : g.Grows g₂ :=
  fun x r hr => h' x r (h x r hr)

end Ledger

/-- The handle `fm` is one on the free map, whose first sector is `sector`. -/
structure MapFile (fm : OpenFile) where
  block : ℤ
  sector : ℤ
  contents : Sector
  length : fm.hdr.numBytes = FreeMapFileSize
  blocks : fm.hdr.dataSectors[0]? = some block
  sectors : (IndirectBlock.ofSector contents).dataSectors[0]? = some sector

variable {fm : OpenFile} (F : MapFile fm) (kind : ℤ → Option Kind)

def Answered (g : Ledger) : (e : Request) → e.Reply → Prop
  | .readSector x, data => InDisk x ∧ (x = F.block → data = F.contents) ∧ (x = F.sector → data = g.map) ∧
      ∀ s, g.role x = some (.block s) → ∀ y ∈ entries data, g.role y = some (.data s)
  | _, _ => True

/-- What a thread that extends a file does: it writes blocks of the file and its header, whose
sectors get their roles with that, and the free map. -/
inductive Extending (g : Ledger) : Request → Ledger → Prop
  | block {x s : ℤ} {data : Sector} {g' : Ledger} (hs : kind s = some .plain) (hx : g'.role x = some (.block s))
      (hdata : ∀ y ∈ entries data, g'.role y = some (.data s)) (hgrows : g.Grows g') (hmap : g'.map = g.map)
      (hnew : ∀ y r, g'.role y = some r → g.role y = some r ∨ y = x ∨ r = .data s) :
      Extending g (.writeSector x data) g'
  | header {s : ℤ} {data : Sector} (hs : kind s = some .plain)
      (hblocks : ∀ b ∈ (FileHeader.ofSector data).blocks, g.role b = some (.block s)) :
      Extending g (.writeSector s data) g
  | map (data : Sector) : Extending g (.writeSector F.sector data) { g with map := data }
  | other {e : Request} (he : e.KeepsDisk) : Extending g e g

inductive Writing (g : Ledger) : Request → Ledger → Prop
  | data {x s : ℤ} {data : Sector} (hs : kind s = some .plain) (hx : g.role x = some (.data s)) :
      Writing g (.writeSector x data) g
  | other {e : Request} (he : e.KeepsDisk) : Writing g e g

def extensionTerms : Terms Request Request.Reply Ledger := ⟨fun g g' => g' = g, Extending F kind, Answered F⟩

/-- The terms of a thread in `WriteAt`: another one may extend files, its own among them. -/
def dataTerms : Terms Request Request.Reply Ledger := ⟨Ledger.Grows, Writing kind, Answered F⟩

/-- The disk is as the ledger says, and the directories are as they were on the disk `d₀`. -/
structure Booked (d₀ : Disk) (g : Ledger) (d : Disk) : Prop where
  header : ∀ {s c}, kind s = some c → g.role s = some .header
  blocks : ∀ {s c}, kind s = some c → ∀ b ∈ blocksAt d s, g.role b = some (.block s)
  entries : ∀ {b s}, g.role b = some (.block s) → ∀ x ∈ entries (d b), g.role x = some (.data s)
  mapKind : kind FreeMapSector = some .map
  mapHeader : hdrAt d FreeMapSector = fm.hdr
  mapBlock : g.role F.block = some (.block FreeMapSector) ∧ d F.block = F.contents
  mapSector : g.role F.sector = some (.data FreeMapSector) ∧ d F.sector = g.map
  dirs : ∀ {s}, kind s = some .dir → ∀ y ∈ owned d₀ s,
    d y = d₀ y ∧ (y = s ∨ g.role y = some (.block s) ∨ g.role y = some (.data s))

namespace Booked

variable {F : MapFile fm} {kind : ℤ → Option Kind} {d₀ d d' : Disk}
    {g g' : Ledger} {k k' : Kernel} {e : Request} {r : e.Reply}

lemma answered (h : Booked F kind d₀ g k.disk) (hh : Kernel.handle e k = .ok (r, k')) : Answered F g e r := by
  cases e with
  | readSector x =>
    simp only [Kernel.handle] at hh
    split at hh
    · cases hh
      refine ⟨‹_›, ?_, ?_, fun s hs => h.entries hs⟩
      · rintro rfl
        exact h.mapBlock.2
      · rintro rfl
        exact h.mapSector.2
    · cases hh
  | writeSector | malloc | find | assign | p | v | stop => trivial

lemma handle_write {x : ℤ} {data : Sector} {u : Unit} (hh : Kernel.handle (.writeSector x data) k = .ok (u, k')) :
    k'.disk = Function.update k.disk x data := by
  simp only [Kernel.handle] at hh
  split at hh
  · cases hh
    rfl
  · cases hh

lemma dirs_ne (h : Booked F kind d₀ g d) {x t : ℤ} (ht : kind t = some .dir) (hx : x ≠ t)
    (hblock : g.role x ≠ some (.block t)) (hdata : g.role x ≠ some (.data t)) : ∀ y ∈ owned d₀ t, y ≠ x := by
  rintro y hy rfl
  rcases (h.dirs ht y hy).2 with he | he | he
  · exact hx he
  · exact hblock he
  · exact hdata he

lemma dirs_write (h : Booked F kind d₀ g d) (hgrows : g.Grows g') {x : ℤ} {data : Sector}
    (hne : ∀ {t}, kind t = some .dir → x ≠ t ∧ g.role x ≠ some (.block t) ∧ g.role x ≠ some (.data t)) {t : ℤ}
    (ht : kind t = some .dir) : ∀ y ∈ owned d₀ t,
    Function.update d x data y = d₀ y ∧ (y = t ∨ g'.role y = some (.block t) ∨ g'.role y = some (.data t)) := by
  intro y hy
  obtain ⟨hx, hb, hd⟩ := hne ht
  obtain ⟨hsame, hrole⟩ := h.dirs ht y hy
  rw [Function.update_of_ne (h.dirs_ne ht hx hb hd y hy)]
  exact ⟨hsame, hrole.imp_right (Or.imp (hgrows _ _) (hgrows _ _))⟩

lemma ne_of_role {x y : ℤ} {r r' : Role} (hx : g.role x = some r) (hy : g.role y = some r') (hne : r ≠ r') :
    x ≠ y := by
  rintro rfl
  rw [hx] at hy
  exact hne (Option.some.inj hy)

lemma write_block (h : Booked F kind d₀ g d) {x s : ℤ} {data : Sector} (hs : kind s = some .plain)
    (hx : g'.role x = some (.block s)) (hdata : ∀ y ∈ NachosFileSys.entries data, g'.role y = some (.data s))
    (hgrows : g.Grows g') (hmap : g'.map = g.map)
    (hnew : ∀ y r, g'.role y = some r → g.role y = some r ∨ y = x ∨ r = .data s) :
    Booked F kind d₀ g' (Function.update d x data) := by
  have hs0 : s ≠ FreeMapSector := by
    rintro rfl
    rw [h.mapKind] at hs
    cases hs
  have hheader : ∀ {t c}, kind t = some c → t ≠ x := fun ht =>
    ne_of_role (hgrows _ _ (h.header ht)) hx (by simp)
  have hother : ∀ {y r}, g.role y = some r → r ≠ .block s → y ≠ x := fun hy hr => ne_of_role (hgrows _ _ hy) hx hr
  have hself : ∀ {t c}, kind t = some c → Function.update d x data t = d t := fun ht =>
    Function.update_of_ne (hheader ht) _ _
  refine ⟨fun ht => hgrows _ _ (h.header ht), fun {t c} ht b hb => ?_,
    fun {b t} hb y hy => ?_, h.mapKind, ?_, ⟨?_, ?_⟩,
    ⟨?_, ?_⟩, h.dirs_write hgrows fun {t} ht => ⟨(hheader ht).symm, fun he => ?_, fun he => ?_⟩⟩
  · rw [blocksAt_congr (hself ht)] at hb
    exact hgrows _ _ (h.blocks ht b hb)
  · rcases eq_or_ne b x with rfl | hne
    · rw [Function.update_self] at hy
      rw [hx] at hb
      cases hb
      exact hdata y hy
    · rw [Function.update_of_ne hne] at hy
      rcases hnew b _ hb with hb | hb | hb
      · exact hgrows _ _ (h.entries hb y hy)
      · exact absurd hb hne
      · cases hb
  · rw [hdrAt_congr (hself h.mapKind)]
    exact h.mapHeader
  · exact hgrows _ _ h.mapBlock.1
  · rw [Function.update_of_ne (hother h.mapBlock.1 (by simpa using hs0.symm))]
    exact h.mapBlock.2
  · exact hgrows _ _ h.mapSector.1
  · rw [Function.update_of_ne (hother h.mapSector.1 (by simp)), hmap]
    exact h.mapSector.2
  · have hts := hgrows _ _ he
    rw [hx] at hts
    cases hts
    rw [hs] at ht
    cases ht
  · have hts := hgrows _ _ he
    rw [hx] at hts
    cases hts

lemma write_header (h : Booked F kind d₀ g d) {s : ℤ} {data : Sector} (hs : kind s = some .plain)
    (hblocks : ∀ b ∈ (FileHeader.ofSector data).blocks, g.role b = some (.block s)) :
    Booked F kind d₀ g (Function.update d s data) := by
  have hother : ∀ {y r}, g.role y = some r → r ≠ .header → y ≠ s := fun hy hr => ne_of_role hy (h.header hs) hr
  have h0 : FreeMapSector ≠ s := by
    rintro rfl
    rw [h.mapKind] at hs
    cases hs
  refine ⟨h.header, fun {t c} ht b hb => ?_, fun {b t} hb y hy => ?_, h.mapKind, ?_, ⟨h.mapBlock.1, ?_⟩,
    ⟨h.mapSector.1, ?_⟩, h.dirs_write (.refl g) fun {t} ht => ⟨?_, fun he => ?_, fun he => ?_⟩⟩
  · rcases eq_or_ne t s with rfl | hne
    · rw [blocksAt, hdrAt, Function.update_self] at hb
      exact hblocks b hb
    · rw [blocksAt_congr (Function.update_of_ne hne _ _)] at hb
      exact h.blocks ht b hb
  · rw [Function.update_of_ne (hother hb (by simp))] at hy
    exact h.entries hb y hy
  · rw [hdrAt_congr (Function.update_of_ne h0 _ _)]
    exact h.mapHeader
  · rw [Function.update_of_ne (hother h.mapBlock.1 (by simp))]
    exact h.mapBlock.2
  · rw [Function.update_of_ne (hother h.mapSector.1 (by simp))]
    exact h.mapSector.2
  · rintro rfl
    rw [hs] at ht
    cases ht
  · rw [h.header hs] at he
    cases he
  · rw [h.header hs] at he
    cases he

lemma write_data (h : Booked F kind d₀ g d) {x s : ℤ} {data : Sector} (hx : g.role x = some (.data s))
    (hs : kind s ≠ some .dir) (hmap : g'.role = g.role) (hsector : Function.update d x data F.sector = g'.map) :
    Booked F kind d₀ g' (Function.update d x data) := by
  have hother : ∀ {y r}, g.role y = some r → (∀ s, r ≠ .data s) → y ≠ x := fun hy hr => ne_of_role hy hx (hr s)
  have hself : ∀ {t c}, kind t = some c → Function.update d x data t = d t := fun ht =>
    Function.update_of_ne (hother (h.header ht) (by simp)) _ _
  have hgrows : g.Grows g' := fun y r hy => by rw [hmap]; exact hy
  have hne : ∀ {t}, kind t = some .dir → x ≠ t ∧ g.role x ≠ some (.block t) ∧ g.role x ≠ some (.data t) := by
    intro t ht
    refine ⟨(hother (h.header ht) (by simp)).symm, fun he => ?_, fun he => ?_⟩
    · rw [hx] at he
      cases he
    · rw [hx] at he
      cases he
      exact hs ht
  refine ⟨fun ht => hgrows _ _ (h.header ht), fun {t c} ht b hb => ?_, fun {b t} hb y hy => ?_, h.mapKind, ?_,
    ⟨hgrows _ _ h.mapBlock.1, ?_⟩, ⟨hgrows _ _ h.mapSector.1, hsector⟩, h.dirs_write hgrows hne⟩
  · rw [blocksAt_congr (hself ht)] at hb
    exact hgrows _ _ (h.blocks ht b hb)
  · rw [hmap] at hb
    rw [Function.update_of_ne (hother hb (by simp))] at hy
    exact hgrows _ _ (h.entries hb y hy)
  · rw [hdrAt_congr (hself h.mapKind)]
    exact h.mapHeader
  · rw [Function.update_of_ne (hother h.mapBlock.1 (by simp))]
    exact h.mapBlock.2

lemma extending (h : Booked F kind d₀ g k.disk) (he : Extending F kind g e g')
    (hh : Kernel.handle e k = .ok (r, k')) :
    Booked F kind d₀ g' k'.disk := by
  cases he with
  | block hs hx hdata hgrows hmap hnew =>
    rw [handle_write hh]
    exact h.write_block hs hx hdata hgrows hmap hnew
  | header hs hblocks =>
    rw [handle_write hh]
    exact h.write_header hs hblocks
  | map data =>
    rw [handle_write hh]
    refine h.write_data h.mapSector.1 ?_ rfl (Function.update_self ..)
    rw [h.mapKind]
    simp
  | other he =>
    rw [Kernel.handle_keepsDisk he hh]
    exact h

lemma writing (h : Booked F kind d₀ g k.disk) (he : Writing kind g e g') (hh : Kernel.handle e k = .ok (r, k')) :
    g' = g ∧ Booked F kind d₀ g k'.disk := by
  cases he with
  | @data x s data hs hx =>
    have hne : F.sector ≠ x := by
      refine ne_of_role h.mapSector.1 hx fun he => ?_
      cases he
      rw [h.mapKind] at hs
      cases hs
    rw [handle_write hh]
    refine ⟨rfl, h.write_data hx (by rw [hs]; simp) rfl ?_⟩
    rw [Function.update_of_ne hne]
    exact h.mapSector.2
  | other he =>
    rw [Kernel.handle_keepsDisk he hh]
    exact ⟨rfl, h⟩

end Booked

section Safe

variable {F : MapFile fm} {kind : ℤ → Option Kind} {T : Terms Request Request.Reply Ledger}
  {α : Type} {Q : Ledger → α → Prop}
  {g : Ledger} {s : ℤ} {hdr : FileHeader}

lemma mem_of_index {a : α} {table : List α} {i : ℤ} (h : index table i = .ok a) : a ∈ table :=
  List.mem_of_getElem? (index_eq_ok.mp h).2

lemma safe_stop (hT : ∀ e g, e.KeepsDisk → T.acts g e g) (f : Fault) : Safe T Q (stop f) g :=
  .request fun g₁ _ => ⟨g₁, hT _ _ trivial, fun r => Empty.elim r⟩

lemma safe_lift (hT : ∀ e g, e.KeepsDisk → T.acts g e g) {x : Except Fault α} (h : ∀ a, x = .ok a → Q g a) :
    Safe T Q (lift x) g := by
  cases x with
  | ok a => exact .pure (h a rfl)
  | error f => exact safe_stop hT f

lemma safe_assert (hT : ∀ e g, e.KeepsDisk → T.acts g e g) {Q : Ledger → Unit → Prop}
    {b : Bool} (h : b = true → Q g ()) :
    Safe T Q (assert b) g := by
  cases b with
  | true => exact .pure (h rfl)
  | false => exact safe_stop hT .assertion

lemma safe_readSector (hT : ∀ e g, e.KeepsDisk → T.acts g e g) {Q : Ledger → Sector → Prop} {x : ℤ}
    (h : ∀ g₁, T.others g g₁ → ∀ data, T.answers g₁ (.readSector x) data → Q g₁ data) :
    Safe T Q (readSector x) g :=
  .request fun g₁ hg => ⟨g₁, hT _ _ trivial, fun data hdata => .pure (h g₁ hg data hdata)⟩

lemma Writing.of_keepsDisk (kind : ℤ → Option Kind) (e : Request) (g : Ledger) (he : e.KeepsDisk) :
    Writing kind g e g :=
  .other he

lemma Extending.of_keepsDisk (F : MapFile fm) (kind : ℤ → Option Kind)
    (e : Request) (g : Ledger) (he : e.KeepsDisk) :
    Extending F kind g e g :=
  .other he

def Known (g : Ledger) (s : ℤ) (hdr : FileHeader) : Prop := ∀ b ∈ hdr.blocks, g.role b = some (.block s)

lemma Known.mono {g' : Ledger} (h : Known g s hdr) (hg : g.Grows g') : Known g' s hdr :=
  fun b hb => hg _ _ (h b hb)

lemma Known.answered {b : ℤ} (h : Known g s hdr) (hb : b ∈ hdr.dataSectors) {data : Sector}
    (ha : Answered F g (.readSector b) data) : ∀ y ∈ entries data, g.role y = some (.data s) := by
  obtain ⟨hin, -, -, hentries⟩ := ha
  refine hentries s (h b ?_)
  rw [FileHeader.blocks, List.mem_filter]
  exact ⟨hb, by simpa using hin.ne_empty⟩

lemma safe_byteToSector (h : Known g s hdr) (offset : ℤ) :
    Safe (dataTerms F kind) (fun g' x => g.Grows g' ∧ g'.role x = some (.data s)) (hdr.byteToSector offset) g := by
  have hT := Writing.of_keepsDisk kind
  rw [FileHeader.byteToSector]
  refine (safe_lift hT (Q := fun g' b => g' = g ∧ b ∈ hdr.dataSectors) fun b hb => ⟨rfl, mem_of_index hb⟩).bind ?_
  rintro b g' ⟨hg', hb⟩
  subst g'
  rw [IndirectBlock.fetchFrom, bind_assoc]
  refine (safe_readSector hT (Q := fun g' data => g.Grows g' ∧ ∀ y ∈ entries data, g'.role y = some (.data s))
    fun g₁ hg data ha => ⟨hg, (h.mono hg).answered hb ha⟩).bind ?_
  rintro data g₁ ⟨hg, hentries⟩
  rw [pure_bind]
  refine (safe_lift hT (Q := fun g' y => g' = g₁ ∧ y ∈ (IndirectBlock.ofSector data).dataSectors)
      fun y hy => ?_).bind ?_
  · rw [IndirectBlock.byteToSector] at hy
    obtain ⟨u, -, hy⟩ := Lib.Results.bind_eq_ok.mp hy
    exact ⟨rfl, mem_of_index hy⟩
  rintro y g' ⟨hg', hy⟩
  subst g'
  refine (safe_assert hT (Q := fun g' _ => g' = g₁ ∧ 0 ≤ y) fun hb => ⟨rfl, (of_decide_eq_true hb).1⟩).bind ?_
  rintro u g' ⟨hg', hpos⟩
  subst g'
  refine .pure ⟨hg, hentries y ?_⟩
  rw [entries, List.mem_filter]
  exact ⟨hy, by simp only [EmptyBlock, decide_eq_true_eq]; omega⟩

lemma safe_writeSectors (hs : kind s = some .plain) (count : ℕ) :
    ∀ {g : Ledger} (i : ℤ) (buf : List Byte), Known g s hdr →
    Safe (dataTerms F kind) (fun _ _ => True) (OpenFile.writeSectors hdr i count buf) g := by
  induction count with
  | zero => exact fun _ _ _ => .pure trivial
  | succ count ih =>
    intro g i buf h
    rw [OpenFile.writeSectors]
    refine (safe_byteToSector h _).bind ?_
    rintro x g₁ ⟨hg, hx⟩
    refine .request fun g₂ hg₂ => ?_
    exact ⟨g₂, .data hs (hg₂ _ _ hx), fun _ _ => ih (i + 1) _ ((h.mono hg).mono hg₂)⟩

lemma safe_writeAt (hs : kind s = some .plain) {f : OpenFile} (h : Known g s f.hdr) (src : List Byte) (n p : ℤ) :
    Safe (dataTerms F kind) (fun _ _ => True) (f.writeAt src n p) g := by
  have hT := Writing.of_keepsDisk kind
  have hmono : ∀ g g₁ : Ledger, Known g s f.hdr → (dataTerms F kind).others g g₁ → Known g₁ s f.hdr :=
    fun _ _ hk hg => hk.mono hg
  have hread : ∀ {partly : Bool} {sector off : ℤ} {buf : List Byte} {g : Ledger}, Known g s f.hdr →
      Safe (dataTerms F kind) (fun g _ => Known g s f.hdr) (f.readPartial partly sector off buf) g := by
    intro partly sector off buf g hk
    refine Safe.of_all hT hmono (Reads.keepsDisk ?_).all hk
    rw [OpenFile.readPartial]
    split
    · exact (f.reads_readAt _ _).bind fun _ => reads_lift _
    · exact reads_pure _
  rw [OpenFile.writeAt]
  dsimp only
  split
  · exact .pure trivial
  generalize (if int32 (p + n) > f.hdr.fileLength then int32 (f.hdr.fileLength - p) else n) = n
  split
  · exact safe_stop hT _
  refine Safe.bind (Q := fun g _ => Known g s f.hdr)
    (.request fun g₁ hg => ⟨g₁, hT _ _ trivial, fun _ _ => .pure (h.mono hg)⟩) ?_
  intro buf g₁ h₁
  refine (hread h₁).bind fun buf g₂ h₂ => (hread h₂).bind fun buf g₃ h₃ => ?_
  refine (safe_lift hT (Q := fun g _ => Known g s f.hdr) fun _ _ => h₃).bind fun bytes g₄ h₄ => ?_
  refine (safe_lift hT (Q := fun g _ => Known g s f.hdr) fun _ _ => h₄).bind fun buf g₅ h₅ => ?_
  exact (safe_writeSectors hs _ _ _ h₅).bind fun _ _ _ => .pure trivial

end Safe

end NachosFileSys
