import NachosFileSys.DemandPaging
import NachosFileSys.Lib.Runs

namespace NachosFileSys

open Lib.Bytes Lib.Runs

inductive ThreadStep
  | access (access : Access)
  | resume (space : ℕ)

namespace World

open PagedMachine

def fault (w : World) (space : ℕ) (addr : ℤ) : Except Fault (Reply × World) := do
  let (m, transfer) ← w.machine.startFault space (addr.tdiv 128).toNat
  pure (.fault, ⟨m, Function.update w.transfer space (some transfer)⟩)

def perform (w : World) : Access → Except Fault (Reply × World)
  | .load image => pure (.done, ⟨w.machine.load image, w.transfer⟩)
  | .read space addr size =>
    match w.machine.translate space addr size false with
    | .error .pageFaultException => w.fault space addr
    | _ => do
      let (data, m) ← w.machine.readMem space addr size
      match data with
      | some data => pure (.data data, ⟨m, w.transfer⟩)
      | none => pure (.fault, ⟨m, w.transfer⟩)
  | .write space addr size value =>
    match w.machine.translate space addr size true with
    | .error .pageFaultException => w.fault space addr
    | _ => do
      let (done, m) ← w.machine.writeMem space addr size value
      pure (if done then .done else .fault, ⟨m, w.transfer⟩)

def resume (w : World) (space : ℕ) : Except Fault World :=
  match w.transfer space with
  | some (.evicting victim ppn copy page) =>
    pure ⟨w.machine.finishEviction space victim ppn copy page,
        Function.update w.transfer space (some (.fetching ppn page))⟩
  | some (.fetching ppn page) => do
    let m ← w.machine.finishFetch space ppn page
    pure ⟨m, Function.update w.transfer space none⟩
  | none => pure w

/-- The thread that makes an access does not wait, and the access stays inside its address space: any other
access ends in an assertion. -/
def Ready (w : World) : Access → Prop
  | .load _ => True
  | .read space addr size | .write space addr size _ =>
    w.transfer space = none ∧ InRange (w.machine.numPages.getD space 0) addr size

inductive Next : ThreadStep → World × FlatMachine → World × FlatMachine → Prop
  | completed {w w' : World} {f : FlatMachine} {access : Access} {reply : Reply} :
      w.Ready access → w.perform access = .ok (reply, w') → reply ≠ .fault →
      Next (.access access) (w, f) (w', (f.perform access).2)
  | faulted {w w' : World} {f : FlatMachine} {access : Access} :
      w.Ready access → w.perform access = .ok (.fault, w') → Next (.access access) (w, f) (w', f)
  | resumed {w w' : World} {f : FlatMachine} {space : ℕ} :
      w.resume space = .ok w' → Next (.resume space) (w, f) (w', f)

def Spares (s : World × FlatMachine) : ThreadStep → Prop
  | .access (.write space addr _ _) => ¬s.1.Evicting (space, pageOf addr)
  | _ => True

def ObservesStores (s : World × FlatMachine) : Prop :=
  ∀ a addr size data w', s.1.Ready (.read a addr size) → s.1.perform (.read a addr size) = .ok (.data data, w') →
    fetchData (s.2.memory a) addr size = .ok data

def start (swapSpace : ℤ → Page) : World × FlatMachine := (⟨.start swapSpace, fun _ => none⟩, .start)

variable {w w' : World} {f : FlatMachine} {a : ℕ} {addr size : ℤ}

/-- The invariant of the runs in which no page is written while it is evicted. -/
def Sees (s : World × FlatMachine) : Prop := s.1.Consistent s.2.memory ∧ s.1.machine.numPages = s.2.numPages

lemma Consistent.fault_ok {flat : FlatMemory} {reply : Reply} (h : w.Consistent flat)
    (hready : w.transfer a = none ∧ InRange (w.machine.numPages.getD a 0) addr size)
    (hv : (w.machine.pageTable (a, pageOf addr)).valid = false) (he : w.fault a addr = .ok (reply, w')) :
    reply = .fault ∧ w'.Consistent flat ∧ w'.machine.numPages = w.machine.numPages := by
  rw [fault, hready.2.tdiv_eq] at he
  rcases h.startFault hready.1 (mapped_of_inRange hready.2) hv with ⟨m, t, hs, hc, hp, -⟩ | ⟨hs, -⟩
  · rw [hs] at he
    obtain ⟨rfl, rfl⟩ := Prod.mk.inj (Except.ok.inj he)
    exact ⟨rfl, hc, hp⟩
  · rw [hs] at he
    exact absurd he (by simp [bind, Except.bind])

lemma Sees.perform {reply : Reply} {access : Access} (h : Sees (w, f)) (hready : w.Ready access)
    (hspare : Spares (w, f) (.access access)) (he : w.perform access = .ok (reply, w')) :
    (reply = .fault ∧ Sees (w', f)) ∨
    (reply = (f.perform access).1 ∧ reply ≠ .fault ∧ Sees (w', (f.perform access).2)) := by
  obtain ⟨hc, hp⟩ := h
  dsimp only at hc hp
  cases access with
  | load image =>
    obtain ⟨rfl, rfl⟩ := Prod.mk.inj (Except.ok.inj he)
    refine .inr ⟨rfl, by simp, ?_, ?_⟩
    · have hload := hc.load image
      rw [hp] at hload
      exact hload
    · have hl := loadPages_loaded w.machine.numPages.length image 0 w.machine
      change (loadPages w.machine.numPages.length image 0 w.machine).numPages ++ [image.length] =
          f.numPages ++ [image.length]
      rw [hl.numPages, hp]
  | read space addr size =>
    rw [World.perform] at he
    cases hv : (w.machine.pageTable (space, pageOf addr)).valid with
    | false =>
      rw [Consistent.translate_fault hready.2 false hv] at he
      obtain ⟨rfl, hc', hp'⟩ := hc.fault_ok hready hv he
      exact .inl ⟨rfl, hc', hp'.trans hp⟩
    | true =>
      obtain ⟨data, m', hread, hd, hc', hp'⟩ := hc.readMem_resident hready.2 hv (not_fetching hready.1)
      rw [hc.translate_ok hready.2 false hv] at he
      dsimp only at he
      rw [hread] at he
      obtain ⟨rfl, rfl⟩ := Prod.mk.inj (Except.ok.inj he)
      rw [FlatMachine.perform, hd]
      exact .inr ⟨rfl, by simp, hc', hp'.trans hp⟩
  | write space addr size value =>
    rw [World.perform] at he
    cases hv : (w.machine.pageTable (space, pageOf addr)).valid with
    | false =>
      rw [Consistent.translate_fault hready.2 true hv] at he
      obtain ⟨rfl, hc', hp'⟩ := hc.fault_ok hready hv he
      exact .inl ⟨rfl, hc', hp'.trans hp⟩
    | true =>
      obtain ⟨m', hwrite, hc', hp'⟩ := hc.writeMem_resident hready.2 hv (not_fetching hready.1) hspare value
      rw [hc.translate_ok hready.2 true hv] at he
      dsimp only at he
      rw [hwrite] at he
      obtain ⟨rfl, rfl⟩ := Prod.mk.inj (Except.ok.inj he)
      exact .inr ⟨rfl, by simp, hc', hp'.trans hp⟩

lemma Sees.resume (h : Sees (w, f)) (he : w.resume a = .ok w') : Sees (w', f) := by
  obtain ⟨hc, hp⟩ := h
  dsimp only at hc hp
  rw [World.resume] at he
  split at he
  · rename_i victim ppn copy page ht
    obtain rfl := Except.ok.inj he
    exact ⟨hc.finishEviction ht, hp⟩
  · rename_i ppn page ht
    obtain ⟨m', hf, hc', -, hp'⟩ := hc.arrive ht
    rw [hf] at he
    obtain rfl := Except.ok.inj he
    exact ⟨hc', hp'.trans hp⟩
  · obtain rfl := Except.ok.inj he
    exact ⟨hc, hp⟩

lemma Sees.next {o : ThreadStep} {s t : World × FlatMachine}
    (h : Sees s) (hspare : Spares s o) (hn : Next o s t) : Sees t := by
  cases hn with
  | completed hready he hne =>
    rcases h.perform hready hspare he with ⟨hr, -⟩ | ⟨-, -, hs⟩
    · exact absurd hr hne
    · exact hs
  | faulted hready he =>
    rcases h.perform hready hspare he with ⟨-, hs⟩ | ⟨-, hne, -⟩
    · exact hs
    · exact absurd rfl hne
  | resumed he => exact h.resume he

lemma Sees.observes {s : World × FlatMachine} (h : Sees s) : ObservesStores s := by
  intro a addr size data w' hready he
  rcases h.perform hready trivial he with ⟨hr, -⟩ | ⟨hr, -, -⟩
  · exact absurd hr (by simp)
  · rw [FlatMachine.perform] at hr
    split at hr
    · rename_i d hd
      rw [hd, Reply.data.inj hr]
    · exact absurd hr (by simp)

lemma start_sees (swapSpace : ℤ → Page) : Sees (start swapSpace) := ⟨start_consistent swapSpace _, rfl⟩

/-- In every run in which no page is written while it is evicted, every read observes the last store. -/
theorem stores_observed (swapSpace : ℤ → Page) (s : World × FlatMachine)
    (h : Reaches Next Spares (start swapSpace) s) :
    ObservesStores s :=
  (h.invariant (I := Sees) (fun _ _ _ hs ho hn => hs.next ho hn) (start_sees swapSpace)).observes

instance (w : World) : DecidablePred w.Ready
  | .load _ => .isTrue trivial
  | .read _ _ _ => inferInstanceAs (Decidable (_ ∧ _))
  | .write _ _ _ _ => inferInstanceAs (Decidable (_ ∧ _))

def step (s : World × FlatMachine) : ThreadStep → Option (World × FlatMachine)
  | .access access =>
    if s.1.Ready access then
      match s.1.perform access with
      | .ok (.fault, w) => some (w, s.2)
      | .ok (_, w) => some (w, (s.2.perform access).2)
      | .error _ => none
    else none
  | .resume space => (s.1.resume space).toOption.map fun w => (w, s.2)

lemma step_next {s t : World × FlatMachine} {o : ThreadStep} (h : step s o = some t) : Next o s t := by
  obtain ⟨w, f⟩ := s
  cases o with
  | access access =>
    rw [step] at h
    split at h
    · rename_i hready
      split at h
      · rename_i w' he
        obtain rfl := Option.some.inj h
        exact .faulted hready he
      · rename_i reply w' hne he
        obtain rfl := Option.some.inj h
        exact .completed hready he hne
      · exact absurd h (by simp)
    · exact absurd h (by simp)
  | resume space =>
    rw [step, Option.map_eq_some_iff] at h
    obtain ⟨w', he, rfl⟩ := h
    refine .resumed ?_
    cases hr : w.resume space with
    | error e =>
      rw [hr] at he
      exact absurd he (by simp [Except.toOption])
    | ok w'' =>
      rw [hr] at he
      rw [Option.some.inj he]

def execute (steps : List ThreadStep) (s : World × FlatMachine) : Option (World × FlatMachine) :=
  steps.foldlM step s

lemma reaches_of_execute {ok : World × FlatMachine → ThreadStep → Prop}
    {steps : List ThreadStep} {s t : World × FlatMachine}
    (hok : ∀ o ∈ steps, ∀ u, ok u o) (h : execute steps s = some t) : Reaches Next ok s t := by
  induction steps generalizing s with
  | nil =>
    obtain rfl := Option.some.inj h
    exact .refl
  | cons o steps ih =>
    rw [execute, List.foldlM_cons] at h
    obtain ⟨u, hu, hrest⟩ := Option.bind_eq_some_iff.mp h
    have hfirst : Reaches Next ok s u := .step o .refl (hok o List.mem_cons_self s) (step_next hu)
    exact hfirst.trans (ih (fun o' ho' => hok o' (List.mem_cons_of_mem _ ho')) hrest)

lemma spares_of_idle {s : World × FlatMachine} (h : ∀ b, s.1.transfer b = none) (o : ThreadStep) : Spares s o := by
  have hidle : ∀ x, ¬s.1.Evicting x := by
    rintro x ⟨b, ppn, copy, page, hb⟩
    rw [h b] at hb
    exact absurd hb (by simp)
  cases o with
  | access access =>
    cases access with
    | load image => trivial
    | read space addr size => trivial
    | write space addr size value => exact hidle _
  | resume space => trivial

theorem stores_observed_own : ∃ s, Reaches Next Spares (start fun _ _ => 0) s ∧
    s.2.memory 0 8 = 5 ∧ ObservesStores s := by
  have hload : ∃ s₁, step (start fun _ _ => 0) (.access (.load [fun _ => 0])) = some s₁ ∧
      ∃ s₂, step s₁ (.access (.write 0 8 4 5)) = some s₂ ∧ ∃ s₃, step s₂ (.resume 0) = some s₃ ∧
      ∃ s₄, step s₃ (.access (.write 0 8 4 5)) = some s₄ ∧ (∀ b, s₁.1.transfer b = none) ∧
      (∀ b, s₃.1.transfer b = none) ∧
      s₄.2.memory 0 8 = 5 := by
    refine ⟨_, rfl, _, rfl, _, rfl, _, rfl, fun _ => rfl, fun b => ?_, rfl⟩
    by_cases hb : b = 0
    · rw [hb]
      rfl
    · exact (Function.update_of_ne hb ..).trans (Function.update_of_ne hb ..)
  obtain ⟨s₁, h₁, s₂, h₂, s₃, h₃, s₄, h₄, hidle₁, hidle₃, hbyte⟩ := hload
  have hr : Reaches Next Spares (start fun _ _ => 0) s₄ :=
    .step (.access (.write 0 8 4 5)) (.step (.resume 0) (.step (.access (.write 0 8 4 5))
      (.step (.access (.load [fun _ => 0])) .refl trivial (step_next h₁)) (spares_of_idle hidle₁ _) (step_next h₂))
      trivial (step_next h₃)) (spares_of_idle hidle₃ _) (step_next h₄)
  exact ⟨s₄, hr, hbyte, stores_observed _ s₄ hr⟩

/-- Address space 0 has every frame. Its first page is evicted for address space 1, is written meanwhile, and
is fetched again. -/
def lostStore : List ThreadStep :=
  [.access (.load (List.replicate 32 fun _ => 0)), .access (.load [fun _ => 0])] ++
    ((List.range 32).flatMap fun page => [.access (.read 0 (page * 128) 1), .resume 0]) ++
    [.access (.read 1 0 1), .access (.write 0 0 1 1), .resume 1,
    .resume 1, .access (.read 0 0 1), .resume 0, .resume 0]

def losesStore (s : World × FlatMachine) : Bool :=
  decide (s.1.Ready (.read 0 0 1)) &&
    (match s.1.perform (.read 0 0 1) with
    | .ok (.data 0, _) => true
    | _ => false) &&
    match fetchData (s.2.memory 0) 0 1 with
    | .ok 1 => true
    | _ => false

theorem store_lost_in_eviction :
    ∃ s, Reaches Next (fun _ _ => True) (start fun _ _ => 0) s ∧ ¬ObservesStores s := by
  have hrun : (execute lostStore (start fun _ _ => 0)).any losesStore = true := by decide +kernel
  obtain ⟨s, hs, hl⟩ := (Option.any_eq_true _ _).mp hrun
  refine ⟨s, reaches_of_execute (fun _ _ _ => trivial) hs, fun hobs => ?_⟩
  simp only [losesStore, Bool.and_eq_true, decide_eq_true_eq] at hl
  obtain ⟨⟨hready, hread⟩, hflat⟩ := hl
  split at hread
  · rename_i w' he
    have hd := hobs 0 0 1 0 w' hready he
    rw [hd] at hflat
    exact absurd hflat (by decide)
  · exact absurd hread Bool.false_ne_true

end World

end NachosFileSys
