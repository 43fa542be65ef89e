import NachosFileSys.Extensions
import NachosFileSys.Ownership
import NachosFileSys.UserWrites

namespace NachosFileSys

open Lib.Programs Lib.Bytes Lib.Runs Lib.Threads
open Prog (Safe Terms)

def Handle (kind : ℤ → Option Kind) (g : Ledger) (f : OpenFile) : Prop :=
  kind f.hdrSector = some .plain ∧ Known g f.hdrSector f.hdr

def Done (kind : ℤ → Option Kind) (g : Ledger) (f : OpenFile) : Prop := Covers (mapOf g.map) g ∧ Handle kind g f

lemma Handle.mono {kind : ℤ → Option Kind} {g g' : Ledger} {f : OpenFile} (h : Handle kind g f) (hg : g.Grows g') :
    Handle kind g' f :=
  ⟨h.1, h.2.mono hg⟩

namespace Point

def inExtension : Point → Bool
  | .extending _ _ _ (.request _ _) => true
  | _ => false

def Held {fm : OpenFile} (F : MapFile fm) (kind : ℤ → Option Kind) (g : Ledger) : Point → Prop
  | .absent => True
  | .opening _ => False
  | .closing rest => KeepsDisk rest
  | .idle f | .arriving f _ | .enter _ f _ | .leave _ f _ | .beyond f _ _ | .locking f _ _ => Handle kind g f
  | .reading f rest => Handle kind g f ∧ KeepsDisk rest
  | .extending _ _ _ (.pure f) => Handle kind g f
  | .extending _ _ _ (.request e c) => Safe (extensionTerms F kind) (Done kind) (.request e c) g
  | .writing f rest => Handle kind g f ∧ Safe (dataTerms F kind) (fun _ _ => True) rest g

end Point

/-- No file is opened, and a thread begins to extend one only while no thread is extending one. -/
def Apart (a : Machine) (o : ℕ × Command) : Prop :=
  (∀ sector, o.2 ≠ .openFile sector) ∧
    ∀ f src n, a.threads[o.1]? = some (.beyond f src n) → ∀ p ∈ a.threads, p.inExtension = false

/-- The invariant: the disk and the threads are as the ledger says, and at most one thread is extending a file. -/
structure Orderly {fm : OpenFile} (F : MapFile fm) (kind : ℤ → Option Kind) (d₀ : Disk) (g : Ledger) (k : Kernel)
    (ts : List Point) : Prop where
  disk : Booked F kind d₀ g k.disk
  held : ∀ p ∈ ts, p.Held F kind g
  covers : (∀ p ∈ ts, p.inExtension = false) → Covers (mapOf g.map) g
  single : ∀ (i j : ℕ) (p q : Point), ts[i]? = some p → ts[j]? = some q →
      p.inExtension = true → q.inExtension = true → i = j

section Steps

variable {fm f : OpenFile} {F : MapFile fm} {kind : ℤ → Option Kind} {d₀ : Disk} {g g' : Ledger} {k k' : Kernel}
  {ts : List Point} {i : ℕ} {p z : Point} {src : List Byte} {n : ℤ}

lemma Point.Held.mono (h : p.Held F kind g) (hg : g.Grows g') (hp : p.inExtension = false) : p.Held F kind g' := by
  cases p with
  | absent => trivial
  | opening => exact h
  | closing => exact h
  | idle | arriving | enter | leave | beyond | locking => exact Handle.mono h hg
  | reading f rest => exact ⟨h.1.mono hg, h.2⟩
  | extending f src n rest =>
    cases rest with
    | pure f' => exact Handle.mono h hg
    | request => cases hp
  | writing f rest =>
    exact ⟨h.1.mono hg, h.2.others (fun g₁ g₂ h₁ h₂ => Ledger.Grows.trans h₁ h₂) (fun _ ha => ha) hg⟩

namespace Orderly

lemma keep (h : Orderly F kind d₀ g k ts) (hi : ts[i]? = some p)
    (hp : p.inExtension = false) (hz : z.inExtension = false)
    (hheld : z.Held F kind g) (hdisk : Booked F kind d₀ g k'.disk) : Orderly F kind d₀ g k' (ts.set i z) := by
  have hlt : i < ts.length := (List.getElem?_eq_some_iff.mp hi).1
  have hold : ∀ (j : ℕ) (q : Point), (ts.set i z)[j]? = some q → q.inExtension = true → ts[j]? = some q := by
    intro j q hq hin
    by_cases hij : i = j
    · subst hij
      rw [List.getElem?_set_self hlt] at hq
      cases hq
      rw [hz] at hin
      cases hin
    · rwa [List.getElem?_set_ne hij] at hq
  refine ⟨hdisk, fun q hq => ?_, fun hall => h.covers fun q hq => ?_, fun j j' q q' hj hj' hq hq' => ?_⟩
  · rcases List.mem_or_eq_of_mem_set hq with hq | rfl
    · exact h.held q hq
    · exact hheld
  · obtain ⟨j, hj⟩ := List.mem_iff_getElem?.mp hq
    by_cases hij : i = j
    · subst hij
      rw [hi] at hj
      cases hj
      exact hp
    · refine hall q (List.mem_of_getElem? (i := j) ?_)
      rwa [List.getElem?_set_ne hij]
  · exact h.single j j' q q' (hold j q hj hq) (hold j' q' hj' hq') hq hq'

lemma extend (h : Orderly F kind d₀ g k ts) (hi : ts[i]? = some p)
    (hothers : ∀ (j : ℕ) (q : Point), i ≠ j → ts[j]? = some q → q.inExtension = false) (hg : g.Grows g')
    (hheld : z.Held F kind g') (hcovers : z.inExtension = false → Covers (mapOf g'.map) g')
    (hdisk : Booked F kind d₀ g' k'.disk) : Orderly F kind d₀ g' k' (ts.set i z) := by
  have hlt : i < ts.length := (List.getElem?_eq_some_iff.mp hi).1
  have hself : ∀ (j : ℕ) (q : Point), (ts.set i z)[j]? = some q → q.inExtension = true → i = j := by
    intro j q hq hin
    by_contra hij
    rw [List.getElem?_set_ne hij] at hq
    rw [hothers j q hij hq] at hin
    cases hin
  refine ⟨hdisk, fun q hq => ?_, fun hall => hcovers (hall z (List.mem_set hlt z)),
      fun j j' q q' hj hj' hq hq' => ?_⟩
  · obtain ⟨j, hj⟩ := List.mem_iff_getElem?.mp hq
    by_cases hij : i = j
    · subst hij
      rw [List.getElem?_set_self hlt] at hj
      cases hj
      exact hheld
    · rw [List.getElem?_set_ne hij] at hj
      exact (h.held q (List.mem_of_getElem? hj)).mono hg (hothers j q hij hj)
  · rw [← hself j q hj hq, ← hself j' q' hj' hq']

end Orderly

lemma Extending.grows {e : Request} (h : Extending F kind g e g') : g.Grows g' := by
  cases h with
  | block _ _ _ hgrows => exact hgrows
  | header | map | other => exact fun _ _ h => h

lemma gateAsk_keepsDisk {amount last : ℤ} (cross : Request) (hx : cross.KeepsDisk)
    {inside : Gate → Point} {out : Point}
    {gate : Gate} {e : Request} {c : e.Reply → Point}
    (hask : Point.gateAsk f amount last cross inside out gate = ⟨e, c⟩)
    (r : e.Reply) : e.KeepsDisk ∧ ((∃ gate', c r = inside gate') ∨ c r = out) := by
  cases gate with
  | held | changed =>
    cases hask
    refine ⟨trivial, .inl ?_⟩
    cases r with
    | none => exact ⟨_, rfl⟩
    | some count => exact ⟨_, rfl⟩
  | found | missing =>
    cases hask
    exact ⟨trivial, .inl ⟨_, rfl⟩⟩
  | crossing =>
    cases hask
    exact ⟨hx, .inl ⟨_, rfl⟩⟩
  | releasing =>
    cases hask
    exact ⟨trivial, .inr rfl⟩

namespace Orderly

variable {e : Request} {c : e.Reply → Point} {r : e.Reply}

lemma quiet (h : Orderly F kind d₀ g k ts) (hi : ts[i]? = some p) (he : e.KeepsDisk)
    (hh : Kernel.handle e k = .ok (r, k')) (hp : p.inExtension = false) (hz : z.inExtension = false)
    (hheld : z.Held F kind g) : Orderly F kind d₀ g k' (ts.set i z) := by
  refine h.keep hi hp hz hheld ?_
  rw [Kernel.handle_keepsDisk he hh]
  exact h.disk

lemma lock (h : Orderly F kind d₀ g k ts) (hi : ts[i]? = some p)
    (hp : p.inExtension = false) (hf : Handle kind g f)
    (hask : Point.lockAsk f src n = ⟨e, c⟩) (hh : Kernel.handle e k = .ok (r, k')) :
    Orderly F kind d₀ g k' (ts.set i (c r)) := by
  cases hask
  exact h.quiet hi (e := .p .semaphoreWrite f.hdrSector) trivial hh hp rfl ⟨hf, safe_writeAt hf.1 hf.2 src n _⟩

lemma extend_request (h : Orderly F kind d₀ g k ts) (hi : ts[i]? = some p)
    (hothers : ∀ (j : ℕ) (q : Point), i ≠ j → ts[j]? = some q → q.inExtension = false)
    {rest : e.Reply → Nachos OpenFile}
    (hsafe : Safe (extensionTerms F kind) (Done kind) (.request e rest) g) (hh : Kernel.handle e k = .ok (r, k')) :
    ∃ g', Orderly F kind d₀ g' k' (ts.set i (.extending f src n (rest r))) := by
  obtain ⟨g', hacts, hrest⟩ := Safe.request_iff.mp hsafe g rfl
  have hrest := hrest r (h.disk.answered hh)
  have hdisk := h.disk.extending hacts hh
  refine ⟨g', h.extend hi hothers (Extending.grows hacts) ?_ ?_ hdisk⟩
  · cases hr : rest r with
    | pure f' =>
      rw [hr] at hrest
      exact (Safe.pure_iff.mp hrest).2
    | request e' c' =>
      rw [hr] at hrest
      exact hrest
  · intro hz
    cases hr : rest r with
    | pure f' =>
      rw [hr] at hrest
      exact (Safe.pure_iff.mp hrest).1
    | request e' c' =>
      rw [hr] at hz
      cases hz

lemma others (h : Orderly F kind d₀ g k ts) (hi : ts[i]? = some p) (hp : p.inExtension = true) (j : ℕ) (q : Point)
    (hij : i ≠ j) (hj : ts[j]? = some q) : q.inExtension = false := by
  rw [Bool.eq_false_iff]
  intro hq
  exact hij (h.single i j p q hi hj hp hq)

lemma ask_step (h : Orderly F kind d₀ g k ts) (hi : ts[i]? = some p) (hask : p.ask fm = some ⟨e, c⟩)
    (hh : Kernel.handle e k = .ok (r, k'))
    (hbegin : ∀ f src n, p = .beyond f src n → ∀ q ∈ ts, q.inExtension = false) :
    ∃ g', Orderly F kind d₀ g' k' (ts.set i (c r)) := by
  have hheld := h.held p (List.mem_of_getElem? hi)
  cases p with
  | absent | idle => cases hask
  | opening => exact hheld.elim
  | closing rest =>
    cases rest with
    | pure u => cases hask
    | request e c =>
      cases hask
      exact ⟨g, h.quiet hi hheld.all.1 hh rfl rfl ⟨hheld.all.2 r⟩⟩
  | arriving f n =>
    cases hask
    exact ⟨g, h.quiet hi (e := .p .semaphoreRead f.hdrSector) trivial hh rfl rfl hheld⟩
  | enter gate f n =>
    obtain ⟨he, ⟨gate', hc⟩ | hc⟩ := gateAsk_keepsDisk (.p .semaphoreWrite f.hdrSector) trivial
      (Option.some.inj hask) r
    · rw [hc]
      exact ⟨g, h.quiet hi he hh rfl rfl hheld⟩
    · rw [hc]
      exact ⟨g, h.quiet hi he hh rfl rfl ⟨hheld, (f.reads_readAt _ _).keepsDisk⟩⟩
  | reading f rest =>
    cases rest with
    | pure result =>
      cases hask
      exact ⟨g, h.quiet hi (e := .p .semaphoreRead f.hdrSector) trivial hh rfl rfl hheld.1⟩
    | request e c =>
      cases hask
      exact ⟨g, h.quiet hi hheld.2.all.1 hh rfl rfl ⟨hheld.1, ⟨hheld.2.all.2 r⟩⟩⟩
  | leave gate f result =>
    obtain ⟨he, ⟨gate', hc⟩ | hc⟩ := gateAsk_keepsDisk (.v .semaphoreWrite f.hdrSector) trivial
      (Option.some.inj hask) r
    · rw [hc]
      exact ⟨g, h.quiet hi he hh rfl rfl hheld⟩
    · rw [hc]
      exact ⟨g, h.quiet hi he hh rfl rfl hheld⟩
  | beyond f src n =>
    have hquiet := hbegin f src n rfl
    have hsafe : Safe (extensionTerms F kind) (Done kind) (OpenFile.extend fm f n) g := by
      refine (safe_extend F hheld.1 hheld.2 (h.covers hquiet) n).mono fun f' g' hdone => ⟨hdone.2.1, ?_, ?_⟩
      · rw [hdone.2.2.1]
        exact hheld.1
      · rw [hdone.2.2.1]
        exact hdone.2.2.2
    rw [Point.ask, Option.some_inj] at hask
    cases hrest : OpenFile.extend fm f n with
    | pure f' =>
      rw [hrest] at hask hsafe
      exact ⟨g, h.lock hi rfl (Safe.pure_iff.mp hsafe).2 hask hh⟩
    | request e' c' =>
      rw [hrest] at hask hsafe
      cases hask
      exact h.extend_request hi (fun j q _ hj => hquiet q (List.mem_of_getElem? hj)) hsafe hh
  | extending f src n rest =>
    rw [Point.ask, Option.some_inj] at hask
    cases rest with
    | pure f' => exact ⟨g, h.lock hi rfl hheld hask hh⟩
    | request e' c' =>
      cases hask
      exact h.extend_request hi (h.others hi rfl) hheld hh
  | locking f src n =>
    cases hask
    exact ⟨g, h.lock hi rfl hheld rfl hh⟩
  | writing f rest =>
    cases rest with
    | pure result =>
      cases hask
      exact ⟨g, h.quiet hi (e := .v .semaphoreWrite f.hdrSector) trivial hh rfl rfl hheld.1⟩
    | request e c =>
      cases hask
      obtain ⟨g', hacts, hrest⟩ := Safe.request_iff.mp hheld.2 g (.refl g)
      obtain ⟨hsame, hdisk⟩ := h.disk.writing hacts hh
      subst hsame
      exact ⟨g', h.keep hi rfl rfl ⟨hheld.1, hrest r (h.disk.answered hh)⟩ hdisk⟩

lemma turn_step (h : Orderly F kind d₀ g k ts) {cmd : Command} (hi : ts[i]? = some p) (hturn : p.turn cmd = some z)
    (hopen : ∀ sector, cmd ≠ .openFile sector) : Orderly F kind d₀ g k (ts.set i z) := by
  have hheld := h.held p (List.mem_of_getElem? hi)
  rw [Point.turn.eq_def] at hturn
  split at hturn
  case h_1 => exact hheld.elim
  case h_2 => cases hturn; exact h.keep hi rfl rfl trivial h.disk
  case h_3 sector => exact absurd rfl (hopen sector)
  case h_4 f => cases hturn; exact h.keep hi rfl rfl f.keepsDisk_close h.disk
  case h_5 => cases hturn; exact h.keep hi rfl rfl hheld h.disk
  case h_6 => cases hturn; exact h.keep hi rfl rfl hheld h.disk
  case h_7 src n f =>
    cases hturn
    rw [Point.startWrite]
    split
    · exact h.keep hi rfl rfl hheld h.disk
    · exact h.keep hi rfl rfl hheld h.disk
  case h_8 => cases hturn

lemma step (h : Orderly F kind d₀ g k ts) {cmd : Command} (hi : ts[i]? = some p)
    (hm : p.move fm cmd k = some (k', z))
    (hopen : ∀ sector, cmd ≠ .openFile sector)
    (hbegin : ∀ f src n, p = .beyond f src n → ∀ q ∈ ts, q.inExtension = false) :
    ∃ g', Orderly F kind d₀ g' k' (ts.set i z) := by
  rcases Point.move_cases hm with ⟨e, c, r, -, hask, hh, rfl⟩ | ⟨hturn, rfl⟩
  · exact h.ask_step hi hask hh hbegin
  · exact ⟨g, h.turn_step hi hturn hopen⟩

end Orderly

end Steps

section Ends

variable {fm : OpenFile} {F : MapFile fm} {kind : ℤ → Option Kind} {d d' d₀ : Disk} {g : Ledger} {s : ℤ} {c : Kind}

lemma Stored.entries_subset {slots bs secs : List ℤ} (h : Stored d slots bs secs) {b : ℤ} (hb : b ∈ bs) :
    ∀ x ∈ entries (d b), x ∈ secs := by
  induction h with
  | nil => cases hb
  | @cons b₀ part slots bs secs _ _ _ _ _ hd _ ih =>
    intro x hx
    rcases List.mem_cons.mp hb with rfl | hb
    · rw [entries, hd, List.mem_filter] at hx
      rcases List.mem_append.mp hx.1 with hx' | hx'
      · exact List.mem_append_left _ hx'
      · exact absurd (List.eq_of_mem_replicate hx') (by simpa using hx.2)
    · exact List.mem_append_right _ (ih hb x hx)

lemma Booked.role_owned (h : Booked F kind d₀ g d) (hk : kind s = some c) {x : ℤ} (hx : x ∈ owned d s) :
    x = s ∧ g.role x = some .header ∨ g.role x = some (.block s) ∨ g.role x = some (.data s) := by
  rcases List.mem_cons.mp hx with rfl | hx
  · exact .inl ⟨rfl, h.header hk⟩
  · rcases List.mem_append.mp hx with hx | hx
    · exact .inr (.inl (h.blocks hk x hx))
    · obtain ⟨b, hb, hx⟩ := List.mem_flatMap.mp hx
      exact .inr (.inr (h.entries (h.blocks hk b hb) x hx))

lemma Booked.apart (h : Booked F kind d₀ g d) {s' : ℤ} {c' : Kind} (hk : kind s = some c) (hk' : kind s' = some c')
    (hne : s ≠ s') : ∀ x ∈ owned d s, x ∉ owned d s' := by
  intro x hx hx'
  rcases h.role_owned hk hx with ⟨rfl, hr⟩ | hr | hr <;>
    rcases h.role_owned hk' hx' with ⟨rfl, hr'⟩ | hr' | hr' <;>
    simp_all

lemma freeMapAt_eq_mapOf (rest : List ℤ) {y : ℤ} (h : dataAt d FreeMapSector = y :: rest) :
    freeMapAt d = mapOf (d y) := by
  rw [freeMapAt, h, mapOf]
  refine Bitmap.ofBytes_congr fun i hi => ?_
  have hi : i < 128 := hi
  rw [getD_bytesIn _ _ _ _ _ hi, byteIn, Nat.zero_add, Nat.mod_eq_of_lt hi, Nat.div_eq_of_lt hi]
  rfl

lemma Booked.freeMapAt (h : Booked F kind d₀ g d) (hcov : Covers (mapOf g.map) g) :
    NachosFileSys.freeMapAt d = mapOf g.map := by
  have hblock := (hcov _ _ h.mapBlock.1).1.ne_empty
  have hsector := (hcov _ _ h.mapSector.1).1.ne_empty
  obtain ⟨bs, hbs⟩ : ∃ bs, fm.hdr.dataSectors = F.block :: bs := by
    have hb := F.blocks
    cases hl : fm.hdr.dataSectors with
    | nil => simp [hl] at hb
    | cons b bs => exact ⟨bs, by simpa [hl] using hb⟩
  obtain ⟨secs, hsecs⟩ : ∃ secs, (IndirectBlock.ofSector F.contents).dataSectors = F.sector :: secs := by
    have hb := F.sectors
    cases hl : (IndirectBlock.ofSector F.contents).dataSectors with
    | nil => simp [hl] at hb
    | cons b bs => exact ⟨bs, by simpa [hl] using hb⟩
  rw [← h.mapSector.2]
  refine freeMapAt_eq_mapOf (secs.filter (· ≠ EmptyBlock) ++
    (bs.filter (· ≠ EmptyBlock)).flatMap fun b => NachosFileSys.entries (d b)) (y := F.sector) ?_
  have hblocks : blocksAt d FreeMapSector = F.block :: bs.filter (· ≠ EmptyBlock) := by
    rw [blocksAt, h.mapHeader, FileHeader.blocks, hbs, List.filter_cons_of_pos (by simpa using hblock)]
  have hentries : NachosFileSys.entries (d F.block) = F.sector :: secs.filter (· ≠ EmptyBlock) := by
    rw [NachosFileSys.entries, h.mapBlock.2, hsecs, List.filter_cons_of_pos (by simpa using hsector)]
  change (blocksAt d FreeMapSector).flatMap (fun b => NachosFileSys.entries (d b)) = _
  rw [hblocks, List.flatMap_cons, hentries, List.cons_append]

lemma Sound.exists_mapFile {fs : FileSystem} (hs : Sound fs d kind) : ∃ F : MapFile fs.freeMapFile,
    d F.block = F.contents ∧ F.block ∈ blocksAt d FreeMapSector ∧
    ∃ rest, dataAt d FreeMapSector = F.sector :: rest := by
  have hmap := hs.mapFile
  rw [OpenFile.Current, hs.mapSector] at hmap
  have hst := (hs.storage.file hs.storage.map).on.stored
  have hback := hs.storage.mapBacked
  have hlen := hs.storage.mapLength
  rw [← hmap] at hst hlen
  generalize hb : blocksAt d FreeMapSector = bs at hst ⊢
  generalize hd : dataAt d FreeMapSector = secs at hst hback ⊢
  generalize hslots : fs.freeMapFile.hdr.dataSectors = slots at hst
  cases hst with
  | nil => cases hback
  | @cons b part slots bs secs _ _ hpos _ _ hblock _ =>
    obtain ⟨y, part, rfl⟩ := List.exists_cons_of_length_pos hpos
    refine ⟨⟨b, y, d b, hlen, by rw [hslots]; rfl, by rw [hblock]; rfl⟩, rfl, List.mem_cons_self, _, rfl⟩

/-- The sector belongs to a file, or did when a header was read that some handle still has. -/
def Seen (kind : ℤ → Option Kind) (role : ℤ → Option Role) (d : Disk) (x : ℤ) : Prop :=
  (∃ c, kind x = some c) ∨ ∃ s h bs secs, View role d s h bs secs ∧ x ∈ bs ++ secs

open Classical in
noncomputable def Ledger.seen (kind : ℤ → Option Kind) (role : ℤ → Option Role) (d : Disk) (map : Sector) :
    Ledger where
  role x := if Seen kind role d x then role x else none
  map := map

section Seen

variable {role : ℤ → Option Role} {map : Sector} {x : ℤ} {r : Role} {h : FileHeader} {bs secs : List ℤ}

lemma Ledger.seen_role (hx : Seen kind role d x) : (Ledger.seen kind role d map).role x = role x := if_pos hx

lemma Ledger.of_seen (hx : (Ledger.seen kind role d map).role x = some r) :
    Seen kind role d x ∧ role x = some r := by
  rw [Ledger.seen] at hx
  dsimp only at hx
  split at hx
  · exact ⟨‹_›, hx⟩
  · cases hx

lemma View.seen_block (hv : View role d s h bs secs) (hx : x ∈ bs) :
    (Ledger.seen kind role d map).role x = some (.block s) := by
  rw [Ledger.seen_role (.inr ⟨s, h, bs, secs, hv, List.mem_append_left _ hx⟩)]
  exact hv.blocks x hx

lemma View.seen_data (hv : View role d s h bs secs) (hx : x ∈ secs) :
    (Ledger.seen kind role d map).role x = some (.data s) := by
  rw [Ledger.seen_role (.inr ⟨s, h, bs, secs, hv, List.mem_append_right _ hx⟩)]
  exact hv.data x hx

lemma View.known (hv : View role d s h bs secs) : Known (Ledger.seen kind role d map) s h := by
  intro b hb
  rw [hv.on.blocks_eq] at hb
  exact hv.seen_block hb

end Seen

lemma Sound.exists_booked {fs : FileSystem} {role : ℤ → Option Role}
    {handles : List OpenFile} (hs : Sound fs d kind)
    (hr : Roles role d (NachosFileSys.freeMapAt d) kind handles) : ∃ (F : MapFile fs.freeMapFile) (g : Ledger),
    Booked F kind d g d ∧ Covers (mapOf g.map) g ∧
      ∀ f ∈ handles, kind f.hdrSector = some .plain → Handle kind g f := by
  obtain ⟨F, hcontents, hblock, rest, hdata⟩ := hs.exists_mapFile
  have hmap := hr.file hs.storage.map
  have hheader : ∀ {s c}, kind s = some c → (Ledger.seen kind role d (d F.sector)).role s = some .header :=
    fun hk => by
    rw [Ledger.seen_role (.inl ⟨_, hk⟩)]
    exact hr.header hk
  refine ⟨F, .seen kind role d (d F.sector),
    ⟨hheader, fun hk b hb => (hr.file hk).seen_block hb, fun {b s} hb x hx => ?_,
    hs.storage.map, ?_, ⟨hmap.seen_block hblock, hcontents⟩,
    ⟨hmap.seen_data ?_, rfl⟩, fun {s} hk y hy => ⟨rfl, ?_⟩⟩,
    fun x r hx => ?_, fun f hf hk => ⟨hk, ?_⟩⟩
  · -- the block is one of a header, so its sectors are that header's data
    obtain ⟨⟨c, hc⟩ | ⟨t, h, bs, secs, hv, hmem⟩, hrole⟩ := Ledger.of_seen hb
    · rw [hr.header hc] at hrole
      cases hrole
    · rcases List.mem_append.mp hmem with hmem | hmem
      · have ht := hv.blocks b hmem
        rw [hrole] at ht
        cases ht
        exact hv.seen_data (hv.on.stored.entries_subset hmem x hx)
      · rw [hv.data b hmem] at hrole
        cases hrole
  · have hcur := hs.mapFile
    rw [OpenFile.Current, hs.mapSector] at hcur
    exact hcur.symm
  · rw [hdata]
    exact List.mem_cons_self
  · rcases List.mem_cons.mp hy with rfl | hy
    · exact .inl rfl
    · rcases List.mem_append.mp hy with hy | hy
      · exact .inr (.inl ((hr.file hk).seen_block hy))
      · exact .inr (.inr ((hr.file hk).seen_data hy))
  · have hmarked := hr.marked (Ledger.of_seen hx).2
    rwa [freeMapAt_eq_mapOf _ hdata] at hmarked
  · obtain ⟨bs, secs, hv⟩ := hr.handle f hf hk
    exact hv.known

lemma Booked.tableAt_eq {fs : FileSystem} (h : Booked F kind d₀ g d)
    (hs : Sound fs d₀ kind) (hk : kind s = some .dir) :
    tableAt d s = tableAt d₀ s :=
  tableAt_congr (hs.backed hk) fun y hy => (h.dirs hk y hy).1

end Ends

/-- No sector belongs to two files, and the sectors that belong to a file are marked in the free map on disk. -/
def SectorsApart (d : Disk) : Prop :=
  (∀ o o' s s', Owns d o s → Owns d o' s' → o ≠ o' → ∀ x ∈ owned d s, x ∉ owned d s') ∧
    ∀ o s, Owns d o s → ∀ x ∈ owned d s, Marked (freeMapAt d) x

/-- Threads with handles on plain files, in every interleaving in which one thread at a time extends a file. -/
theorem extensions_stay_apart (sys : System) (h : sys.UserReachable) (ts : List Point)
    (hts : ∀ p ∈ ts, ∃ f, p = .idle f ∧ f ∈ sys.handles ∧ ¬Directories sys.kernel.disk f.hdrSector) (a : Machine)
    (hrun : Reaches (Pool.Moves (Point.move sys.fs.freeMapFile)) Apart ⟨sys.kernel, ts⟩ a)
    (hend : ∀ p ∈ a.threads, p.inExtension = false) : SectorsApart a.shared.disk := by
  obtain ⟨kind, role, hg⟩ := h.guarded
  have hs := hg.stable.sound
  obtain ⟨F, g, hbooked, hcovers, hhandles⟩ := hs.exists_booked hg.roles
  have hidle : ∀ p ∈ ts, p.inExtension = false ∧ p.Held F kind g := by
    intro p hp
    obtain ⟨f, rfl, hf, hdir⟩ := hts p hp
    rcases hg.known f hf with hk | hk
    · exact ⟨rfl, hhandles f hf hk⟩
    · exact absurd hk hdir
  have hstart : Orderly F kind sys.kernel.disk g sys.kernel ts := by
    refine ⟨hbooked, fun p hp => (hidle p hp).2, fun _ => hcovers, fun i j p q hi hj hp hq => ?_⟩
    rw [(hidle p (List.mem_of_getElem? hi)).1] at hp
    cases hp
  have hinv : ∃ g, Orderly F kind sys.kernel.disk g a.shared a.threads := by
    refine hrun.invariant (I := fun b => ∃ g, Orderly F kind sys.kernel.disk g b.shared b.threads) ?_ ⟨g, hstart⟩
    rintro ⟨i, cmd⟩ b b' ⟨g, hb⟩ ⟨hopen, hbegin⟩ hmove
    cases hmove with
    | mk hi hm =>
      refine hb.step hi hm hopen fun f src n hp => ?_
      subst hp
      exact hbegin f src n hi
  obtain ⟨g', hinv⟩ := hinv
  have hcov := hinv.covers hend
  have howns := fun {o s} => hs.owns_congr (o := o) (s := s) fun hk => hinv.disk.tableAt_eq hs hk
  refine ⟨fun o o' s s' ho ho' hne => ?_, fun o s ho x hx => ?_⟩
  · rw [howns] at ho ho'
    obtain ⟨c, hk⟩ := hs.kind_of_owns ho
    obtain ⟨c', hk'⟩ := hs.kind_of_owns ho'
    refine hinv.disk.apart hk hk' ?_
    rintro rfl
    exact hne (hs.owns_injective ho ho')
  · obtain ⟨c, hk⟩ := hs.kind_of_owns (howns.mp ho)
    rw [hinv.disk.freeMapAt hcov]
    rcases hinv.disk.role_owned hk hx with ⟨-, hr⟩ | hr | hr
    · exact hcov x _ hr
    · exact hcov x _ hr
    · exact hcov x _ hr

end NachosFileSys
