import NachosFileSys.Lib.Progress
import NachosFileSys.Exclusion

namespace NachosFileSys

open Lib.Programs Lib.Bytes Lib.Runs Lib.Threads

def Request.Plain : Request → Prop
  | .p _ _ | .v _ _ => False
  | _ => True

lemma Request.KeepsMaps.plain {e : Request} (h : e.KeepsMaps) : e.Plain := by
  cases e with
  | assign | p | v => exact h.elim
  | readSector | writeSector | malloc | find | stop => trivial

lemma KeepsMaps.plain {α : Type} {p : Nachos α} (hp : KeepsMaps p) : p.All Request.Plain :=
  Prog.All.mono (fun _ he => he.plain) hp.all

structure Leaves (S : ℤ → Prop) (p : Nachos OpenFile) : Prop where
  yields : p.Yields Request.Plain fun f => S f.hdrSector

def Command.Within (S : ℤ → Prop) : Command → Prop
  | .openFile sector => S sector
  | _ => True

namespace Point

/-- The handle of the thread is on a sector of `S`, and only `Read` and `Write` themselves use its semaphores. -/
def On (S : ℤ → Prop) : Point → Prop
  | .absent => True
  | .opening rest => Leaves S rest
  | .idle f => S f.hdrSector
  | .closing rest => rest.All Request.Plain
  | .arriving f _ => S f.hdrSector
  | .enter _ f _ => S f.hdrSector
  | .reading f rest => S f.hdrSector ∧ rest.All Request.Plain
  | .leave _ f _ => S f.hdrSector
  | .beyond f _ _ => S f.hdrSector
  | .extending _ _ _ rest => Leaves S rest
  | .locking f _ _ => S f.hdrSector
  | .writing f rest => S f.hdrSector ∧ rest.All Request.Plain

def Resting : Point → Prop
  | .absent | .idle _ => True
  | _ => False

def Ready (fm : OpenFile) (k : Kernel) (p : Point) : Prop := ∃ r, p.move fm .step k = some r

/-- The next request of the thread stops the machine: it names a sector that the disk does not have, or it is the
failure of an assertion. -/
def Crashes (fm : OpenFile) (k : Kernel) (p : Point) : Prop :=
  ∃ e c x, p.ask fm = some ⟨e, c⟩ ∧ e.Plain ∧ Kernel.handle e k = .error x

def After (fm : OpenFile) (p' p : Point) : Prop := ∃ k k', p.move fm .step k = some (k', p')

end Point

section Handles

variable {S : ℤ → Prop} {fm : OpenFile} {p p' : Point} {k k' : Kernel} {cmd : Command} {e : Request}
  {c : e.Reply → Point}

lemma leaves_pure {f : OpenFile} (hf : S f.hdrSector) : Leaves S (pure f) := ⟨hf⟩

lemma Leaves.bind {p : Nachos OpenFile} {q : OpenFile → Nachos OpenFile} (hp : Leaves S p)
    (hq : ∀ f, S f.hdrSector → Leaves S (q f)) : Leaves S (p >>= q) :=
  ⟨hp.yields.bind fun f hf => (hq f hf).yields⟩

lemma leaves_after {α : Type} {p : Nachos α} {q : α → Nachos OpenFile} (hp : p.All Request.Plain)
    (hq : ∀ a, Leaves S (q a)) : Leaves S (p >>= q) :=
  ⟨hp.yields.bind fun a _ => (hq a).yields⟩

lemma KeepsMaps.leaves {α : Type} {p : Nachos α} {q : α → Nachos OpenFile} (hp : KeepsMaps p)
    (hq : ∀ a, Leaves S (q a)) : Leaves S (p >>= q) :=
  leaves_after hp.plain hq

lemma plain_register (m : KernelMap) (s value : ℤ) : (register m s value).All Request.Plain := by
  refine ⟨trivial, fun r => ?_⟩
  cases r with
  | none => exact ⟨trivial, fun _ => trivial⟩
  | some v => trivial

lemma plain_countOpen (s first : ℤ) : (OpenFile.countOpen s first).All Request.Plain := by
  refine ⟨trivial, fun r => ?_⟩
  cases r with
  | none => exact ⟨trivial, fun _ => trivial⟩
  | some count => exact ⟨trivial, fun _ => trivial⟩

lemma leaves_openAt {s : ℤ} (hs : S s) : Leaves S (openAt s) := by
  have hnew : Leaves S (OpenFile.new s) := by
    apply (FileHeader.reads_fetchFrom s).keepsMaps.leaves
    intro hdr
    apply leaves_after (plain_countOpen s 0)
    intro _
    apply leaves_after (plain_register .readerCount s 0)
    intro _
    apply leaves_after (plain_register .semaphoreWrite s 1)
    intro _
    apply leaves_after (plain_register .semaphoreRead s 1)
    intro _
    exact leaves_pure hs
  apply hnew.bind
  intro f hf
  apply leaves_after (plain_countOpen s 1)
  intro _
  apply leaves_after (plain_register .semaphoreRead s 1)
  intro _
  exact leaves_pure hf

lemma plain_close (f : OpenFile) : f.close.All Request.Plain := by
  apply Prog.All.bind
  · refine ⟨trivial, fun r => ?_⟩
    cases r with
    | none => exact ⟨trivial, fun _ => trivial⟩
    | some count => trivial
  · exact fun _ => ⟨trivial, fun _ => trivial⟩

lemma leaves_extend {f : OpenFile} (hf : S f.hdrSector) (n : ℤ) : Leaves S (OpenFile.extend fm f n) :=
  (reads_lift _).keepsMaps.leaves fun m => (m.reads_fetchFrom fm).keepsMaps.leaves fun _ =>
    (f.hdr.keepsMaps_allocate _ _).leaves fun _ => (reads_assert _).keepsMaps.leaves fun _ =>
      (keepsMaps_writeSector _ _).leaves fun _ =>
        ((fm.keepsMaps_writeAt _ _ _).bind fun _ => keepsMaps_pure _).leaves fun _ => leaves_pure hf

namespace Point

lemma gateAsk_on {f : OpenFile} {amount last : ℤ} {cross : Request} {inside : Gate → Point} {out : Point}
    {gate : Gate} (hask : gateAsk f amount last cross inside out gate = ⟨e, c⟩) (hin : ∀ g, (inside g).On S)
    (hout : out.On S) (r : e.Reply) : (c r).On S := by
  cases gate with
  | held | changed =>
    cases hask
    cases r with
    | none => exact hin _
    | some count => exact hin _
  | found | missing | crossing =>
    cases hask
    exact hin _
  | releasing =>
    cases hask
    exact hout

lemma lockAsk_on {f : OpenFile} (hf : S f.hdrSector) (src : List Byte) (n : ℤ) (r : Unit) :
    ((lockAsk f src n).2 r).On S :=
  ⟨hf, (f.keepsMaps_writeAt src n f.seekPosition).plain⟩

lemma extendAsk_on {f : OpenFile} {src : List Byte} {n : ℤ} {rest : Nachos OpenFile}
    (hrest : Leaves S rest) (hask : extendAsk f src n rest = ⟨e, c⟩)
    (r : e.Reply) : (c r).On S := by
  cases rest with
  | pure f' =>
    cases hask
    exact lockAsk_on hrest.yields src n r
  | request e c =>
    cases hask
    exact ⟨hrest.yields.2 r⟩

lemma ask_on (hp : p.On S) (hask : p.ask fm = some ⟨e, c⟩) (r : e.Reply) : (c r).On S := by
  cases p with
  | absent | idle => cases hask
  | opening rest =>
    cases rest with
    | pure f => cases hask
    | request e c =>
      cases hask
      exact ⟨hp.yields.2 r⟩
  | closing rest =>
    cases rest with
    | pure f => cases hask
    | request e c =>
      cases hask
      exact hp.2 r
  | arriving f n =>
    cases hask
    exact hp
  | enter gate f n =>
    have hread : (Point.reading f (f.readAt n f.seekPosition)).On S :=
      ⟨hp, (f.reads_readAt _ _).keepsMaps.plain⟩
    exact gateAsk_on (Option.some.inj hask) (fun _ => hp) hread r
  | reading f rest =>
    cases rest with
    | pure result =>
      cases hask
      exact hp.1
    | request e c =>
      cases hask
      exact ⟨hp.1, hp.2.2 r⟩
  | leave gate f result =>
    have hidle : (Point.idle (afterRead f result)).On S := hp
    exact gateAsk_on (Option.some.inj hask) (fun _ => hp) hidle r
  | beyond f src n =>
    rw [Point.ask, Option.some_inj] at hask
    exact extendAsk_on (leaves_extend hp n) hask r
  | extending f src n rest => exact extendAsk_on hp (Option.some.inj hask) r
  | locking f src n =>
    cases hask
    exact lockAsk_on hp src n r
  | writing f rest =>
    cases rest with
    | pure result =>
      cases hask
      exact hp.1
    | request e c =>
      cases hask
      exact ⟨hp.1, hp.2.2 r⟩

lemma turn_on (hp : p.On S) (hc : cmd.Within S) (hturn : p.turn cmd = some p') : p'.On S := by
  rw [turn.eq_def] at hturn
  split at hturn
  case h_1 => cases hturn; exact hp.yields
  case h_2 => cases hturn; trivial
  case h_3 => cases hturn; exact leaves_openAt hc
  case h_4 f => cases hturn; exact plain_close f
  case h_5 => cases hturn; exact hp
  case h_6 => cases hturn; exact hp
  case h_7 =>
    cases hturn
    rw [startWrite]
    split
    · exact hp
    · exact hp
  case h_8 => cases hturn

lemma move_on (hp : p.On S) (hc : cmd.Within S) (hm : p.move fm cmd k = some (k', p')) : p'.On S := by
  rcases move_cases hm with ⟨e, c, r, -, hask, -, rfl⟩ | ⟨hturn, -⟩
  · exact ask_on hp hask r
  · exact turn_on hp hc hturn

inductive Asks (S : ℤ → Prop) (p : Point) : Request → Prop
  | plain {e : Request} (he : e.Plain) : Asks S p e
  | enter {h : ℤ} (hs : S h) : Asks S p (.p .semaphoreRead h)
  | lock {h : ℤ} (hs : S h) : Asks S p (.p .semaphoreWrite h)
  | v {m : KernelMap} {h : ℤ} (hs : S h) (hm : m ≠ .openFileCount) : Asks S p (.v m h)

lemma gateAsk_asks {f : OpenFile} (hf : S f.hdrSector) {amount last : ℤ} {cross : Request} (hx : Asks S p cross)
    {inside : Gate → Point} {out : Point} {gate : Gate}
    (hask : gateAsk f amount last cross inside out gate = ⟨e, c⟩) : Asks S p e := by
  cases gate with
  | held | changed | found | missing =>
    cases hask
    exact .plain trivial
  | crossing =>
    cases hask
    exact hx
  | releasing =>
    cases hask
    exact .v hf (by decide)

lemma extendAsk_asks {f : OpenFile} {src : List Byte} {n : ℤ} {rest : Nachos OpenFile}
    (hrest : Leaves S rest) (hask : extendAsk f src n rest = ⟨e, c⟩) :
    Asks S p e := by
  cases rest with
  | pure f' =>
    cases hask
    exact .lock hrest.yields
  | request e c =>
    cases hask
    exact .plain hrest.yields.1

lemma asks (hp : p.On S) (hask : p.ask fm = some ⟨e, c⟩) : Asks S p e := by
  cases p with
  | absent | idle => cases hask
  | opening rest =>
    cases rest with
    | pure f => cases hask
    | request e c =>
      cases hask
      exact .plain hp.yields.1
  | closing rest =>
    cases rest with
    | pure f => cases hask
    | request e c =>
      cases hask
      exact .plain hp.1
  | arriving f n =>
    cases hask
    exact .enter hp
  | enter gate f n => exact gateAsk_asks hp (.lock hp) (Option.some.inj hask)
  | leave gate f result => exact gateAsk_asks hp (.v hp (by decide)) (Option.some.inj hask)
  | reading f rest =>
    cases rest with
    | pure result =>
      cases hask
      exact .enter hp.1
    | request e c =>
      cases hask
      exact .plain hp.2.1
  | beyond f src n =>
    rw [Point.ask, Option.some_inj] at hask
    exact extendAsk_asks (leaves_extend hp n) hask
  | extending f src n rest => exact extendAsk_asks hp (Option.some.inj hask)
  | locking f src n =>
    cases hask
    exact .lock hp
  | writing f rest =>
    cases rest with
    | pure result =>
      cases hask
      exact .v hp.1 (by decide)
    | request e c =>
      cases hask
      exact .plain hp.2.1

lemma ready_of_handle (hask : p.ask fm = some ⟨e, c⟩) (r : e.Reply)
    {t : Kernel} (hh : Kernel.handle e k = .ok (r, t)) :
    p.Ready fm k := by
  refine ⟨(t, c r), ?_⟩
  rw [move.eq_def, hask]
  simp only [hh]

lemma ready_of_plain (hask : p.ask fm = some ⟨e, c⟩) (he : e.Plain) : p.Ready fm k ∨ p.Crashes fm k := by
  cases hh : Kernel.handle e k with
  | ok r => exact .inl (ready_of_handle hask r.1 hh)
  | error x => exact .inr ⟨e, c, x, hask, he, hh⟩

lemma ask_or_turn (fm : OpenFile) (k : Kernel) (hp : ¬p.Resting) :
    (∃ e c, p.ask fm = some ⟨e, c⟩) ∨ p.Ready fm k := by
  cases p with
  | absent | idle => exact absurd trivial hp
  | opening rest =>
    cases rest with
    | pure f => exact .inr ⟨(k, .idle f), rfl⟩
    | request e c => exact .inl ⟨_, _, rfl⟩
  | closing rest =>
    cases rest with
    | pure f => exact .inr ⟨(k, .absent), rfl⟩
    | request e c => exact .inl ⟨_, _, rfl⟩
  | reading f rest | writing f rest =>
    cases rest with
    | pure result => exact .inl ⟨_, _, rfl⟩
    | request e c => exact .inl ⟨_, _, rfl⟩
  | beyond f src n =>
    obtain ⟨e, c, hask⟩ : ∃ e c, extendAsk f src n (OpenFile.extend fm f n) = ⟨e, c⟩ := ⟨_, _, (Sigma.eta _).symm⟩
    refine .inl ⟨e, c, ?_⟩
    rw [Point.ask, hask]
  | arriving | enter | leave | extending | locking => exact .inl ⟨_, _, rfl⟩

end Point

end Handles

namespace Point

variable {fm : OpenFile}

lemma acc_resting {p : Point} (hp : p.Resting) : Acc (After fm) p := by
  constructor
  rintro q ⟨k, k', hm⟩
  cases p with
  | absent | idle => cases hm
  | opening | closing | arriving | enter | reading | leave | beyond | extending | locking | writing =>
    exact hp.elim

lemma wellFounded_after : WellFounded (After fm) := by
  have hacc : ∀ (q : Nachos (Option OpenFile)) (p : Point), p.program fm = q → Acc (After fm) p := by
    intro q
    induction q using Prog.wellFounded_rest.induction with
    | h q ih =>
      intro p hp
      constructor
      rintro p' ⟨k, k', hm⟩
      rcases move_cases hm with ⟨e, c, r, -, hask, -, rfl⟩ | ⟨hturn, -⟩
      · rw [ask_program hask] at hp
        subst hp
        exact ih _ (.mk e _ r) (c r) rfl
      · apply acc_resting
        rw [turn.eq_def] at hturn
        split at hturn
        case h_1 | h_2 => cases hturn; trivial
        case h_3 heq | h_4 heq | h_5 heq | h_6 heq | h_7 heq => cases heq
        case h_8 => cases hturn
  exact ⟨fun p => hacc _ p rfl⟩

end Point

namespace Tally

variable {fm : OpenFile} {S : ℤ → Prop} {h : ℤ} {k : Kernel} {ts : List Point} {g : Bool} {p q : Point}

def Goes (fm : OpenFile) (k : Kernel) (ts : List Point) : Prop := ∃ p ∈ ts, p.Ready fm k ∨ p.Crashes fm k

lemma v_ready (ht : Tally h k ts g) {m : KernelMap} (hm : m ≠ .openFileCount) {c : Unit → Point}
    (hask : p.ask fm = some ⟨.v m h, c⟩) : p.Ready fm k := by
  obtain ⟨v, hv⟩ := Option.ne_none_iff_exists'.mp (ht.present m hm)
  apply Point.ready_of_handle hask () (t := k.setMap m h (v + 1))
  simp only [Kernel.handle, hv]

lemma p_ready {m : KernelMap} {v : ℤ} (hv : k.maps m h = some v) (hne : v ≠ 0) {c : Unit → Point}
    (hask : p.ask fm = some ⟨.p m h, c⟩) : p.Ready fm k := by
  apply Point.ready_of_handle hask () (t := k.setMap m h (v - 1))
  simp only [Kernel.handle, hv, if_neg hne]

lemma writer_goes (ht : Tally h k ts g) (hon : ∀ p ∈ ts, p.On S) (hW : 0 < ts.countP (Point.inWriteAt h)) :
    Goes fm k ts := by
  obtain ⟨q, hq, hqw⟩ := List.countP_pos_iff.mp hW
  refine ⟨q, hq, ?_⟩
  have hon := hon q hq
  cases q with
  | writing f rest =>
    have hf : f.hdrSector = h := of_decide_eq_true hqw
    subst hf
    cases rest with
    | pure result => exact .inl (ht.v_ready (m := .semaphoreWrite) (by decide) rfl)
    | request e c => exact Point.ready_of_plain rfl hon.2.1
  | absent | opening | idle | closing | arriving | enter | reading | leave | beyond | extending | locking =>
    cases hqw

lemma passage_goes (ht : Tally h k ts g) (hon : ∀ p ∈ ts, p.On S) (hM : 0 < ts.countP (Point.mutex h)) :
    Goes fm k ts := by
  obtain ⟨q, hq, hqm⟩ := List.countP_pos_iff.mp hM
  have hagree := ht.agrees q hq
  cases q with
  | enter gate f n =>
    have hf : f.hdrSector = h := of_decide_eq_true hqm
    have hself := hagree hf
    subst hf
    cases gate with
    | held | changed => exact ⟨_, hq, Point.ready_of_plain rfl trivial⟩
    | found count => exact ⟨_, hq, Point.ready_of_plain rfl trivial⟩
    | missing => exact hself.elim
    | crossing =>
      rcases Nat.eq_zero_or_pos (ts.countP (Point.inWriteAt f.hdrSector)) with hW | hW
      · have hwrite := ht.write
        rw [hself.2, hW] at hwrite
        exact ⟨_, hq, .inl (p_ready hwrite (by decide) rfl)⟩
      · exact ht.writer_goes hon hW
    | releasing => exact ⟨_, hq, .inl (ht.v_ready (m := .semaphoreRead) (by decide) rfl)⟩
  | leave gate f result =>
    have hf : f.hdrSector = h := of_decide_eq_true hqm
    have hself := hagree hf
    subst hf
    cases gate with
    | held | changed => exact ⟨_, hq, Point.ready_of_plain rfl trivial⟩
    | found count => exact ⟨_, hq, Point.ready_of_plain rfl trivial⟩
    | missing => exact hself.elim
    | crossing => exact ⟨_, hq, .inl (ht.v_ready (m := .semaphoreWrite) (by decide) rfl)⟩
    | releasing => exact ⟨_, hq, .inl (ht.v_ready (m := .semaphoreRead) (by decide) rfl)⟩
  | absent | opening | idle | closing | arriving | reading | beyond | extending | locking | writing => cases hqm

lemma readers_go (ht : Tally h k ts g) (hon : ∀ p ∈ ts, p.On S) (hg : g = true) : Goes fm k ts := by
  rcases Nat.eq_zero_or_pos (ts.countP (Point.mutex h)) with hM | hM
  · have hrest := ht.resting hM
    rw [hg] at hrest
    obtain ⟨q, hq, hqc⟩ := List.countP_pos_iff.mp (of_decide_eq_true hrest.symm)
    have hqm : q.mutex h ≠ true := fun hqm => by
      have := List.countP_pos_iff.mpr ⟨q, hq, hqm⟩
      omega
    refine ⟨q, hq, ?_⟩
    have hon := hon q hq
    cases q with
    | reading f rest =>
      have hf : f.hdrSector = h := of_decide_eq_true hqc
      subst hf
      cases rest with
      | pure result =>
        have hread := ht.read
        rw [hM] at hread
        exact .inl (p_ready hread (by decide) rfl)
      | request e c => exact Point.ready_of_plain rfl hon.2.1
    | enter gate f n => exact absurd (Bool.and_eq_true_iff.mp hqc).1 hqm
    | leave gate f result => exact absurd (Bool.and_eq_true_iff.mp hqc).1 hqm
    | absent | opening | idle | closing | arriving | beyond | extending | locking | writing => cases hqc
  · exact ht.passage_goes hon hM

end Tally

structure InOrder (S : ℤ → Prop) (a : Machine) : Prop where
  tally (h : ℤ) (hs : S h) : ∃ g, Tally h a.shared a.threads g
  on : ∀ p ∈ a.threads, p.On S

namespace InOrder

variable {fm : OpenFile} {S : ℤ → Prop} {a b : Machine} {o : ℕ × Command}

lemma step (ha : InOrder S a) (ho : o.2.Within S) (hm : Pool.Moves (Point.move fm) o a b) : InOrder S b := by
  cases hm with
  | mk hi hm =>
    constructor
    · intro h hs
      obtain ⟨g, ht⟩ := ha.tally h hs
      exact ht.move_step hi hm
    · intro q hq
      rcases List.mem_or_eq_of_mem_set hq with hq | rfl
      · exact ha.on q hq
      · exact Point.move_on (ha.on _ (List.mem_of_getElem? hi)) ho hm

lemma goes (ha : InOrder S a) : (∀ p ∈ a.threads, p.Resting) ∨ Tally.Goes fm a.shared a.threads := by
  by_cases hall : ∀ p ∈ a.threads, p.Resting
  · exact .inl hall
  · right
    push Not at hall
    obtain ⟨p, hp, hrest⟩ := hall
    rcases Point.ask_or_turn fm a.shared hrest with ⟨e, c, hask⟩ | hready
    · cases Point.asks (ha.on p hp) hask with
      | plain he => exact ⟨p, hp, Point.ready_of_plain hask he⟩
      | v hs hm =>
        obtain ⟨g, ht⟩ := ha.tally _ hs
        exact ⟨p, hp, .inl (ht.v_ready hm hask)⟩
      | @enter h hs =>
        obtain ⟨g, ht⟩ := ha.tally h hs
        by_cases hM : a.threads.countP (Point.mutex h) = 0
        · have hread := ht.read
          rw [hM] at hread
          exact ⟨p, hp, .inl (Tally.p_ready hread (by decide) hask)⟩
        · exact ht.passage_goes ha.on (Nat.pos_of_ne_zero hM)
      | @lock h hs =>
        obtain ⟨g, ht⟩ := ha.tally h hs
        by_cases hW : a.threads.countP (Point.inWriteAt h) = 0
        · cases hg : g with
          | false =>
            have hwrite := ht.write
            rw [hW, hg] at hwrite
            exact ⟨p, hp, .inl (Tally.p_ready hwrite (by decide) hask)⟩
          | true => exact ht.readers_go ha.on hg
        · exact ht.writer_goes ha.on (Nat.pos_of_ne_zero hW)
    · exact ⟨p, hp, .inl hready⟩

end InOrder

def Concluded (fm : OpenFile) (a : Machine) : Prop :=
  (∃ p ∈ a.threads, p.Crashes fm a.shared) ∨ ∀ p ∈ a.threads, p.Resting

/-- Any number of threads with handles on files that have been opened before, at any moment of a run in which they
open such files, close, seek, read and write. -/
theorem readers_writers_complete (fm : OpenFile) (k : Kernel) (ts : List Point) (a : Machine)
    (hrest : AtRest k.maps)
    (hts : ∀ p ∈ ts, p = .absent ∨ ∃ f, p = .idle f ∧ ∀ m, k.maps m f.hdrSector ≠ none)
    (hrun : Reaches (Pool.Moves (Point.move fm))
    (fun _ o => o.2.Within fun s => ∀ m, k.maps m s ≠ none) ⟨k, ts⟩ a) :
    Eventually (Pool.Moves (Point.move fm)) (fun _ o => o.2 = .step) (Concluded fm) a := by
  have hstart : InOrder (fun s => ∀ m, k.maps m s ≠ none) ⟨k, ts⟩ := by
    constructor
    · intro h hs
      refine ⟨false, Tally.start hrest hs fun p hp => ?_⟩
      rcases hts p hp with rfl | ⟨f, rfl, -⟩
      · exact .inl rfl
      · exact .inr ⟨f, rfl⟩
    · intro p hp
      rcases hts p hp with rfl | ⟨f, rfl, hf⟩
      · trivial
      · exact hf
  have hserved :=
    hrun.invariant (I := InOrder fun s => ∀ m, k.maps m s ≠ none) (fun _ _ _ ha ho hm => ha.step ho hm)
    hstart
  have hwf : WellFounded (InvImage (Pool.Lowers (Point.After fm)) fun b : Machine => b.threads) :=
    InvImage.wf _ (Pool.wellFounded_lowers Point.wellFounded_after)
  apply Eventually.of_wellFounded (I := InOrder fun s => ∀ m, k.maps m s ≠ none) hwf _ _ _ a hserved
  · rintro ⟨i, cmd⟩ b b' hb rfl hm
    exact hb.step (o := (i, .step)) trivial hm
  · rintro ⟨i, cmd⟩ b b' - rfl hm
    cases hm with
    | mk hi hm => exact .mk hi ⟨_, _, hm⟩
  · intro b hb
    rcases hb.goes with hall | ⟨p, hp, hready | hcrash⟩
    · exact .inl (.inr hall)
    · obtain ⟨⟨k', p'⟩, hm⟩ := hready
      obtain ⟨i, hi⟩ := List.mem_iff_getElem?.mp hp
      exact .inr ⟨(i, .step), _, rfl, .mk hi hm⟩
    · exact .inl (.inl ⟨p, hp, hcrash⟩)

theorem readers_writers_complete_contended :
    ∃ (f : OpenFile) (k : Kernel) (a : Machine), exec (OpenFile.new 5) Kernel.blank = .ok (f, k) ∧
      (∃ p q, a.threads = [p, q] ∧ p.inWriteAt 5 = true ∧ ¬q.Resting ∧ q.move f .step a.shared = none) ∧
      Eventually (Pool.Moves (Point.move f)) (fun _ o => o.2 = .step) (Concluded f) a := by
  have hrest : AtRest Kernel.blank.maps := fun _ _ _ hv => by cases hv
  obtain ⟨k, hopen, -, -, hr, hm, -⟩ := OpenFile.exec_new (s := 5) (by decide) Kernel.blank
  set f : OpenFile := ⟨hdrAt Kernel.blank.disk 5, 0, 5⟩ with hf
  have hsem : k.maps .semaphoreWrite 5 = some 1 := (hr hrest).semaphoreWrite (hm _)
  have hcall (k : Kernel) : Point.move f (.write [] 0) k (.idle f) = some (k, .locking f [] 0) := by
    have hlen : ¬int32 (f.seekPosition + 0) > f.hdr.fileLength := by
      change ¬(0 : ℤ) > 0
      omega
    rw [Point.move.eq_def]
    simp only [Point.turn, Point.startWrite, if_neg hlen, Option.map_some]
  have hp : Kernel.handle (.p .semaphoreWrite f.hdrSector) k = .ok ((), k.setMap .semaphoreWrite 5 0) := by
    simp only [Kernel.handle, hf, hsem]
    rfl
  have hfirst : Point.move f .step k (.locking f [] 0) =
      some (k.setMap .semaphoreWrite 5 0, .writing f (f.writeAt [] 0 f.seekPosition)) := by
    rw [Point.move.eq_def]
    simp only [Point.ask, Point.lockAsk, hp]
  have hsecond : Point.move f .step (k.setMap .semaphoreWrite 5 0) (.locking f [] 0) = none := by
    have hblocked : Kernel.handle (.p .semaphoreWrite f.hdrSector) (k.setMap .semaphoreWrite 5 0) =
        .error .blocked := by
      simp only [Kernel.handle, hf, Kernel.setMap_self]
      rfl
    rw [Point.move.eq_def]
    simp only [Point.ask, Point.lockAsk, hblocked]
  have hrun : Reaches (Pool.Moves (Point.move f)) (fun _ o => o.2.Within fun s => ∀ m, k.maps m s ≠ none)
      ⟨k, [.idle f, .idle f]⟩
      ⟨k.setMap .semaphoreWrite 5 0, [.writing f (f.writeAt [] 0 f.seekPosition), .locking f [] 0]⟩ :=
    .step (1, .write [] 0) (.step (0, .step) (.step (0, .write [] 0) .refl trivial (.mk rfl (hcall k))) trivial
      (.mk rfl hfirst)) trivial (.mk rfl (hcall _))
  have hcomplete := readers_writers_complete f k [.idle f, .idle f] _ (hr hrest)
    (fun p hp => by
      rw [List.mem_cons, List.mem_singleton, or_self] at hp
      exact .inr ⟨f, hp, hm⟩) hrun
  exact ⟨f, k, _, hopen, ⟨_, _, rfl, rfl, id, hsecond⟩, hcomplete⟩

end NachosFileSys
