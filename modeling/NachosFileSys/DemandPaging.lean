import NachosFileSys.VirtualMemory

namespace NachosFileSys

open Lib.Bytes

inductive Access
  | load (image : List Page)
  | read (space : ℕ) (addr size : ℤ)
  | write (space : ℕ) (addr size value : ℤ)

inductive Reply
  | data (value : ℤ)
  | done
  | fault
  deriving DecidableEq, Repr

namespace PagedMachine

def read (m : PagedMachine) (space : ℕ) (addr size : ℤ) : Except Fault (Option ℤ × PagedMachine) := do
  let (data, m) ← m.readMem space addr size
  match data with
  | some data => pure (some data, m)
  | none => m.readMem space addr size

def write (m : PagedMachine) (space : ℕ) (addr size value : ℤ) : Except Fault (Bool × PagedMachine) := do
  let (done, m) ← m.writeMem space addr size value
  if done then pure (true, m) else m.writeMem space addr size value

def perform (m : PagedMachine) : Access → Except Fault (Reply × PagedMachine)
  | .load image => pure (.done, m.load image)
  | .read space addr size => do
    let (data, m) ← m.read space addr size
    match data with
    | some data => pure (.data data, m)
    | none => pure (.fault, m)
  | .write space addr size value => do
    let (done, m) ← m.write space addr size value
    pure (if done then .done else .fault, m)

def run : List Access → PagedMachine → Except Fault (List Reply × PagedMachine)
  | [], m => pure ([], m)
  | access :: accesses, m => do
    let (reply, m) ← m.perform access
    let (replies, m) ← run accesses m
    pure (reply :: replies, m)

end PagedMachine

structure FlatMachine where
  numPages : List ℕ
  memory : FlatMemory

namespace FlatMachine

def perform (f : FlatMachine) : Access → Reply × FlatMachine
  | .load image =>
    (.done, ⟨f.numPages ++ [image.length], Function.update f.memory f.numPages.length (imageByte image)⟩)
  | .read space addr size =>
    match fetchData (f.memory space) addr size with
    | .ok data => (.data data, f)
    | .error _ => (.fault, f)
  | .write space addr size value =>
    (.done, { f with memory := Function.update f.memory space (stored (f.memory space) addr size value) })

def run : List Access → FlatMachine → List Reply
  | [], _ => []
  | access :: accesses, f => (f.perform access).1 :: run accesses (f.perform access).2

def start : FlatMachine := ⟨[], fun _ _ => 0⟩

end FlatMachine

namespace Access

def Fits (numPages : List ℕ) : Access → Prop
  | .load _ => True
  | .read space addr size | .write space addr size _ => InRange (numPages.getD space 0) addr size

def concerns (a : ℕ) : Access → Bool
  | .load _ => true
  | .read space _ _ | .write space _ _ _ => space = a

end Access

def AllFit : FlatMachine → List Access → Prop
  | _, [] => True
  | f, access :: accesses => access.Fits f.numPages ∧ AllFit (f.perform access).2 accesses

def repliesOf (a : ℕ) : List Access → List Reply → List Reply
  | access :: accesses, reply :: replies =>
    if access.concerns a then reply :: repliesOf a accesses replies else repliesOf a accesses replies
  | _, _ => []

namespace World

open PagedMachine

variable {w : World} {flat : FlatMemory} {a : ℕ} {addr size : ℤ}

lemma Consistent.read (h : w.Consistent flat) (hn : ∀ b, w.transfer b = none)
    (hr : InRange (w.machine.numPages.getD a 0) addr size) :
    ∃ data m', w.machine.read a addr size = .ok (some data, m') ∧ fetchData (flat a) addr size = .ok data ∧
      Consistent ⟨m', w.transfer⟩ flat ∧ m'.numPages = w.machine.numPages := by
  rw [PagedMachine.read]
  cases hv : (w.machine.pageTable (a, pageOf addr)).valid with
  | true =>
    obtain ⟨data, m', hread, hd, hc, hp⟩ := h.readMem_resident hr hv (not_fetching (hn a))
    exact ⟨data, m', by rw [hread]; rfl, hd, hc, hp⟩
  | false =>
    obtain ⟨m₁, hfault, hc₁, hr₁, hp₁⟩ := h.pageFault hn (mapped_of_inRange hr) hv
    rw [← hp₁] at hr
    obtain ⟨data, m', hread, hd, hc, hp⟩ := hc₁.readMem_resident hr hr₁.2 (not_fetching (hn a))
    refine ⟨data, m', ?_, hd, hc, hp.trans hp₁⟩
    rw [hp₁] at hr
    rw [readMem_fault hr hv, hfault]
    exact hread

lemma Consistent.write (h : w.Consistent flat) (hn : ∀ b, w.transfer b = none)
    (hr : InRange (w.machine.numPages.getD a 0) addr size) (value : ℤ) :
    ∃ m', w.machine.write a addr size value = .ok (true, m') ∧
      Consistent ⟨m', w.transfer⟩ (Function.update flat a (stored (flat a) addr size value)) ∧
      m'.numPages = w.machine.numPages := by
  have hidle : ∀ {m'}, ¬Evicting ⟨m', w.transfer⟩ (a, pageOf addr) := by
    rintro m' ⟨b, ppn, copy, q, hb⟩
    rw [show (World.mk m' w.transfer).transfer b = none from hn b] at hb
    exact absurd hb (by simp)
  rw [PagedMachine.write]
  cases hv : (w.machine.pageTable (a, pageOf addr)).valid with
  | true =>
    obtain ⟨m', hwrite, hc, hp⟩ := h.writeMem_resident hr hv (not_fetching (hn a)) hidle value
    exact ⟨m', by rw [hwrite]; rfl, hc, hp⟩
  | false =>
    obtain ⟨m₁, hfault, hc₁, hr₁, hp₁⟩ := h.pageFault hn (mapped_of_inRange hr) hv
    rw [← hp₁] at hr
    obtain ⟨m', hwrite, hc, hp⟩ := hc₁.writeMem_resident hr hr₁.2 (not_fetching (hn a)) hidle value
    refine ⟨m', ?_, hc, hp.trans hp₁⟩
    rw [hp₁] at hr
    rw [writeMem_fault hr hv value, hfault]
    exact hwrite

lemma Consistent.perform {f : FlatMachine} (h : w.Consistent f.memory) (hn : ∀ b, w.transfer b = none)
    (hp : w.machine.numPages = f.numPages) (access : Access) (hf : access.Fits f.numPages) :
    ∃ m', w.machine.perform access = .ok ((f.perform access).1, m') ∧
      Consistent ⟨m', w.transfer⟩ (f.perform access).2.memory ∧ m'.numPages = (f.perform access).2.numPages := by
  cases access with
  | load image =>
    refine ⟨_, rfl, ?_, ?_⟩
    · have hc := h.load image
      rw [hp] at hc
      exact hc
    · have hl := loadPages_loaded w.machine.numPages.length image 0 w.machine
      change (loadPages w.machine.numPages.length image 0 w.machine).numPages ++ [image.length] =
          f.numPages ++ [image.length]
      rw [hl.numPages, hp]
  | read space addr size =>
    rw [Access.Fits, ← hp] at hf
    obtain ⟨data, m', hread, hd, hc, hp'⟩ := h.read hn hf
    rw [PagedMachine.perform, hread, FlatMachine.perform, hd]
    exact ⟨m', rfl, hc, hp'.trans hp⟩
  | write space addr size value =>
    rw [Access.Fits, ← hp] at hf
    obtain ⟨m', hwrite, hc, hp'⟩ := h.write hn hf value
    rw [PagedMachine.perform, hwrite]
    exact ⟨m', rfl, hc, hp'.trans hp⟩

lemma Consistent.run {f : FlatMachine} (h : w.Consistent f.memory) (hn : ∀ b, w.transfer b = none)
    (hp : w.machine.numPages = f.numPages) (accesses : List Access) (hf : AllFit f accesses) :
    ∃ m', PagedMachine.run accesses w.machine = .ok (FlatMachine.run accesses f, m') := by
  induction accesses generalizing w f with
  | nil => exact ⟨w.machine, rfl⟩
  | cons access accesses ih =>
    obtain ⟨m₁, hfirst, hc, hp₁⟩ := h.perform hn hp access hf.1
    obtain ⟨m', hrest⟩ := ih hc hn hp₁ hf.2
    dsimp only at hrest
    refine ⟨m', ?_⟩
    rw [PagedMachine.run, hfirst, FlatMachine.run]
    simp only [bind, Except.bind]
    rw [hrest]
    rfl

end World

namespace FlatMachine

variable {f g : FlatMachine} {a : ℕ}

def Agree (a : ℕ) (f g : FlatMachine) : Prop := f.numPages = g.numPages ∧ f.memory a = g.memory a

lemma Agree.perform (h : Agree a f g) (access : Access) (hc : access.concerns a = true) :
    (f.perform access).1 = (g.perform access).1 ∧ Agree a (f.perform access).2 (g.perform access).2 := by
  cases access with
  | load image =>
    refine ⟨rfl, congrArg (· ++ [image.length]) h.1, ?_⟩
    change Function.update f.memory f.numPages.length (imageByte image) a =
      Function.update g.memory g.numPages.length (imageByte image) a
    rw [h.1, Function.update_apply, Function.update_apply, h.2]
  | read space addr size =>
    obtain rfl : space = a := of_decide_eq_true hc
    simp only [FlatMachine.perform]
    rw [h.2]
    split
    · exact ⟨rfl, h⟩
    · exact ⟨rfl, h⟩
  | write space addr size value =>
    obtain rfl : space = a := of_decide_eq_true hc
    refine ⟨rfl, h.1, ?_⟩
    change Function.update f.memory space _ space = Function.update g.memory space _ space
    rw [Function.update_self, Function.update_self, h.2]

lemma agree_perform_other (f : FlatMachine) (access : Access) (hc : access.concerns a = false) :
    Agree a (f.perform access).2 f := by
  cases access with
  | load image => exact absurd hc (by simp [Access.concerns])
  | read space addr size =>
    simp only [FlatMachine.perform]
    split
    · exact ⟨rfl, rfl⟩
    · exact ⟨rfl, rfl⟩
  | write space addr size value => exact ⟨rfl, Function.update_of_ne (Ne.symm (of_decide_eq_false hc)) ..⟩

lemma repliesOf_run (accesses : List Access) (h : Agree a f g) :
    repliesOf a accesses (run accesses f) = run (accesses.filter (·.concerns a)) g := by
  induction accesses generalizing f g with
  | nil => rfl
  | cons access accesses ih =>
    rw [run, repliesOf]
    cases hc : access.concerns a with
    | true =>
      obtain ⟨hreply, hagree⟩ := h.perform access hc
      rw [if_pos rfl, List.filter_cons_of_pos hc, run, hreply, ih hagree]
    | false =>
      have hagree := f.agree_perform_other access hc
      rw [if_neg Bool.false_ne_true, List.filter_cons_of_neg (by rw [hc]; exact Bool.false_ne_true)]
      exact ih ⟨hagree.1.trans h.1, hagree.2.trans h.2⟩

lemma allFit_filter (accesses : List Access) (hp : f.numPages = g.numPages) (h : AllFit f accesses) :
    AllFit g (accesses.filter (·.concerns a)) := by
  induction accesses generalizing f g with
  | nil => trivial
  | cons access accesses ih =>
    cases hc : access.concerns a with
    | true =>
      rw [List.filter_cons_of_pos hc]
      refine ⟨hp ▸ h.1, ih ?_ h.2⟩
      cases access with
      | load image => exact congrArg (· ++ [image.length]) hp
      | read space addr size =>
        simp only [FlatMachine.perform]
        split <;> split <;> exact hp
      | write space addr size value => exact hp
    | false =>
      rw [List.filter_cons_of_neg (by rw [hc]; exact Bool.false_ne_true)]
      exact ih ((f.agree_perform_other access hc).1.trans hp) h.2

end FlatMachine

/-- Every reply is the one of flat memories, and the replies to an address space are those that it gets when
the others make no access. -/
theorem demand_paging_transparent (swapSpace : ℤ → Page) (accesses : List Access) (h : AllFit .start accesses) :
    (∃ m, (PagedMachine.start swapSpace).run accesses = .ok (FlatMachine.run accesses .start, m)) ∧
    ∀ a, ∃ m, (PagedMachine.start swapSpace).run (accesses.filter (·.concerns a)) =
      .ok (repliesOf a accesses (FlatMachine.run accesses .start), m) := by
  have hs := World.start_consistent swapSpace FlatMachine.start.memory
  refine ⟨hs.run (fun _ => rfl) rfl accesses h, fun a => ?_⟩
  rw [FlatMachine.repliesOf_run accesses ⟨rfl, rfl⟩]
  exact hs.run (fun _ => rfl) rfl _ (FlatMachine.allFit_filter accesses rfl h)

instance (numPages : ℕ) (addr size : ℤ) : Decidable (InRange numPages addr size) :=
  decidable_of_iff (0 ≤ addr ∧ addr < 2 ^ 31 ∧ addr + size ≤ 128 * (numPages : ℤ) ∧
    (size = 1 ∨ (size = 2 ∧ addr % 2 = 0) ∨ (size = 4 ∧ addr % 4 = 0)))
    ⟨fun h => ⟨h.1, h.2.1, h.2.2.1, h.2.2.2⟩, fun h => ⟨h.nonneg, h.int, h.inside, h.aligned⟩⟩

instance Access.decidableFits (numPages : List ℕ) : (access : Access) → Decidable (access.Fits numPages)
  | .load _ => isTrue trivial
  | .read space addr size => inferInstanceAs (Decidable (InRange (numPages.getD space 0) addr size))
  | .write space addr size _ => inferInstanceAs (Decidable (InRange (numPages.getD space 0) addr size))

instance decidableAllFit : (f : FlatMachine) → (accesses : List Access) → Decidable (AllFit f accesses)
  | _, [] => isTrue trivial
  | f, access :: accesses =>
    have := decidableAllFit (f.perform access).2 accesses
    inferInstanceAs (Decidable (_ ∧ _))

/-- Two address spaces of twenty pages write to each of their pages, in turn and at the same virtual addresses, and
read what they wrote first, which has left the 32 frames by then. -/
def twoWriters : List Access :=
  [.load (List.replicate 20 fun _ => 0), .load (List.replicate 20 fun _ => 0)] ++
    (List.range 20).flatMap
    (fun page => [.write 0 (128 * page) 4 (page + 5), .write 1 (128 * page) 4 (page + 7)]) ++
    [.read 0 0 4, .read 1 0 4]

theorem demand_paging_transparent_two : AllFit .start twoWriters ∧
    ∃ m, (PagedMachine.start fun _ _ => 0).run twoWriters =
    .ok (List.replicate 42 .done ++ [.data 5, .data 7], m) := by
  have hfit : AllFit .start twoWriters := by decide +kernel
  obtain ⟨⟨m, hm⟩, -⟩ := demand_paging_transparent (fun _ _ => 0) twoWriters hfit
  refine ⟨hfit, m, hm.trans ?_⟩
  have hreplies : FlatMachine.run twoWriters .start = List.replicate 42 .done ++ [.data 5, .data 7] :=
    by decide +kernel
  rw [hreplies]

end NachosFileSys
