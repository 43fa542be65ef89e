import NachosFileSys.Lib.Threads
import NachosFileSys.Lib.Runs
import NachosFileSys.Handles

/-! The threads of the machine, each with at most one handle. A thread stands at a point of
`OpenFile::Read`, `OpenFile::Write`, the constructor or the destructor, and its next move is the next
request of the program from there on; between any two requests another thread may move. -/

namespace NachosFileSys

open Lib.Programs Lib.Bytes Lib.Runs Lib.Threads

/-- The points between the `P` and the `V` of `semaphoreRead`, which `Read` passes twice: before the
`find`, before the assignment of the new count, before the test of the count, where `operator[]` inserts a
missing count, before the call on `semaphoreWrite` and before the `V`. -/
inductive Gate
  | held
  | found (count : ℤ)
  | changed
  | missing
  | crossing
  | releasing

namespace Gate

variable (f : OpenFile) (amount last : ℤ) (cross : Nachos Unit)

def test : Nachos Unit := do
  let count ← lookup .readerCount f.hdrSector
  onlyIf (count = last) cross
  semV .semaphoreRead f.hdrSector

def program : Gate → Nachos Unit
  | .held => do
    adjust .readerCount f.hdrSector amount
    test f last cross
  | .found count => do
    assign .readerCount f.hdrSector (count + amount)
    test f last cross
  | .changed => test f last cross
  | .missing => do
    assign .readerCount f.hdrSector 0
    onlyIf ((0 : ℤ) = last) cross
    semV .semaphoreRead f.hdrSector
  | .crossing => do
    cross
    semV .semaphoreRead f.hdrSector
  | .releasing => semV .semaphoreRead f.hdrSector

def tested (count : ℤ) : Gate := if count = last then .crossing else .releasing

end Gate

inductive Point
  | absent
  | opening (rest : Nachos OpenFile)
  | idle (f : OpenFile)
  | closing (rest : Nachos Unit)
  | arriving (f : OpenFile) (numBytes : ℤ)
  | enter (gate : Gate) (f : OpenFile) (numBytes : ℤ)
  | reading (f : OpenFile) (rest : Nachos (List Byte))
  | leave (gate : Gate) (f : OpenFile) (result : List Byte)
  | beyond (f : OpenFile) (src : List Byte) (numBytes : ℤ)
  | extending (f : OpenFile) (src : List Byte) (numBytes : ℤ) (rest : Nachos OpenFile)
  | locking (f : OpenFile) (src : List Byte) (numBytes : ℤ)
  | writing (f : OpenFile) (rest : Nachos ℤ)

abbrev Ask := (e : Request) × (e.Reply → Point)

namespace Point

def afterRead (f : OpenFile) (result : List Byte) : OpenFile :=
  { f with seekPosition := int32 (f.seekPosition + result.length) }

def afterWrite (f : OpenFile) (result : ℤ) : OpenFile := { f with seekPosition := int32 (f.seekPosition + result) }

def program (fm : OpenFile) : Point → Nachos (Option OpenFile)
  | .absent => pure none
  | .opening rest => some <$> rest
  | .idle f => pure (some f)
  | .closing rest => do
    rest
    pure none
  | .arriving f numBytes => do
    let (_, f) ← f.read numBytes
    pure (some f)
  | .enter gate f numBytes => do
    gate.program f 1 1 (semP .semaphoreWrite f.hdrSector)
    let result ← f.readAt numBytes f.seekPosition
    f.leaveRead
    pure (some (afterRead f result))
  | .reading f rest => do
    let result ← rest
    f.leaveRead
    pure (some (afterRead f result))
  | .leave gate f result => do
    gate.program f (-1) 0 (semV .semaphoreWrite f.hdrSector)
    pure (some (afterRead f result))
  | .beyond f src numBytes => do
    let f ← OpenFile.extend fm f numBytes
    let (_, f) ← f.writeLocked src numBytes
    pure (some f)
  | .extending _ src numBytes rest => do
    let f ← rest
    let (_, f) ← f.writeLocked src numBytes
    pure (some f)
  | .locking f src numBytes => do
    let (_, f) ← f.writeLocked src numBytes
    pure (some f)
  | .writing f rest => do
    let result ← rest
    semV .semaphoreWrite f.hdrSector
    pure (some (afterWrite f result))

/-- The next request inside a passage of `Read`, and where it leads: to the next point of the passage, or
out of it. -/
def gateAsk (f : OpenFile) (amount last : ℤ) (cross : Request) (inside : Gate → Point) (out : Point) : Gate → Ask
  | .held => ⟨.find .readerCount f.hdrSector, fun
    | some count => inside (.found count)
    | none => inside .changed⟩
  | .found count => ⟨.assign .readerCount f.hdrSector (count + amount), fun _ => inside .changed⟩
  | .changed => ⟨.find .readerCount f.hdrSector, fun
    | some count => inside (Gate.tested last count)
    | none => inside .missing⟩
  | .missing => ⟨.assign .readerCount f.hdrSector 0, fun _ => inside (Gate.tested last 0)⟩
  | .crossing => ⟨cross, fun _ => inside .releasing⟩
  | .releasing => ⟨.v .semaphoreRead f.hdrSector, fun _ => out⟩

def lockAsk (f : OpenFile) (src : List Byte) (numBytes : ℤ) : Ask :=
  ⟨.p .semaphoreWrite f.hdrSector, fun _ => .writing f (f.writeAt src numBytes f.seekPosition)⟩

def extendAsk (f : OpenFile) (src : List Byte) (numBytes : ℤ) : Nachos OpenFile → Ask
  | .pure f' => lockAsk f' src numBytes
  | .request e c => ⟨e, fun r => .extending f src numBytes (c r)⟩

def ask (fm : OpenFile) : Point → Option Ask
  | .absent => none
  | .opening (.pure _) => none
  | .opening (.request e c) => some ⟨e, fun r => .opening (c r)⟩
  | .idle _ => none
  | .closing (.pure _) => none
  | .closing (.request e c) => some ⟨e, fun r => .closing (c r)⟩
  | .arriving f numBytes => some ⟨.p .semaphoreRead f.hdrSector, fun _ => .enter .held f numBytes⟩
  | .enter gate f numBytes => some <| gateAsk f 1 1 (.p .semaphoreWrite f.hdrSector) (.enter · f numBytes)
    (.reading f (f.readAt numBytes f.seekPosition)) gate
  | .reading f (.pure result) => some ⟨.p .semaphoreRead f.hdrSector, fun _ => .leave .held f result⟩
  | .reading f (.request e c) => some ⟨e, fun r => .reading f (c r)⟩
  | .leave gate f result => some <| gateAsk f (-1) 0 (.v .semaphoreWrite f.hdrSector) (.leave · f result)
    (.idle (afterRead f result)) gate
  | .beyond f src numBytes => some <| extendAsk f src numBytes (OpenFile.extend fm f numBytes)
  | .extending f src numBytes rest => some <| extendAsk f src numBytes rest
  | .locking f src numBytes => some <| lockAsk f src numBytes
  | .writing f (.pure result) => some ⟨.v .semaphoreWrite f.hdrSector, fun _ => .idle (afterWrite f result)⟩
  | .writing f (.request e c) => some ⟨e, fun r => .writing f (c r)⟩

end Point

lemma Gate.tested_program (f : OpenFile) (amount last : ℤ) (cross : Nachos Unit) (count : ℤ) :
    (tested last count).program f amount last cross = (do
      onlyIf (count = last) cross
      semV .semaphoreRead f.hdrSector) := by
  rw [tested, onlyIf]
  by_cases hc : count = last
  · rw [if_pos hc, if_pos (decide_eq_true hc)]
    rfl
  · rw [if_neg hc, if_neg (by simpa using hc)]
    rfl

namespace Point

variable {fm : OpenFile} {p : Point} {e : Request} {c : e.Reply → Point}

lemma gateAsk_program (f : OpenFile) (amount last : ℤ) {x : Request}
    {cross : Nachos Unit} {tail : Nachos (Option OpenFile)}
    (hx : ∀ q : Nachos (Option OpenFile), (cross >>= fun _ => q) = .request x fun _ => q) {inside : Gate → Point}
    {out : Point} (hin : ∀ g, (inside g).program fm = g.program f amount last cross >>= fun _ => tail)
    (hout : out.program fm = tail) {g : Gate} (h : gateAsk f amount last x inside out g = ⟨e, c⟩) :
    (inside g).program fm = .request e fun r => (c r).program fm := by
  rw [hin]
  cases g with
  | held =>
    cases h
    refine congrArg (Prog.request _) (funext fun r => ?_)
    cases r with
    | none => exact (hin .changed).symm
    | some count => exact (hin (.found count)).symm
  | found count =>
    cases h
    exact congrArg (Prog.request _) (funext fun _ => (hin .changed).symm)
  | changed =>
    cases h
    refine congrArg (Prog.request _) (funext fun r => ?_)
    cases r with
    | none => exact (hin .missing).symm
    | some count =>
      change _ = (inside (Gate.tested last count)).program fm
      rw [hin, Gate.tested_program]
      rfl
  | missing =>
    cases h
    refine congrArg (Prog.request _) (funext fun _ => ?_)
    change _ = (inside (Gate.tested last 0)).program fm
    rw [hin, Gate.tested_program]
    rfl
  | crossing =>
    cases h
    rw [Gate.program, bind_assoc, hx]
    exact congrArg (Prog.request _) (funext fun _ => (hin .releasing).symm)
  | releasing =>
    cases h
    exact congrArg (Prog.request _) (funext fun _ => hout.symm)

lemma extendAsk_program (f : OpenFile) (src : List Byte) (n : ℤ) {rest : Nachos OpenFile}
    (h : extendAsk f src n rest = ⟨e, c⟩) :
    (extending f src n rest).program fm = .request e fun r => (c r).program fm := by
  cases rest with
  | pure f' =>
    cases h
    simp only [program, OpenFile.writeLocked, Prog.pure_eq, pure_bind, bind_assoc]
    rfl
  | request e c =>
    cases h
    rfl

lemma ask_program (h : p.ask fm = some ⟨e, c⟩) : p.program fm = .request e fun r => (c r).program fm := by
  cases p with
  | absent | idle => cases h
  | opening rest =>
    cases rest with
    | pure f => cases h
    | request e c =>
      cases h
      rfl
  | closing rest =>
    cases rest with
    | pure f => cases h
    | request e c =>
      cases h
      rfl
  | arriving f n =>
    cases h
    simp only [program, OpenFile.read, OpenFile.enterRead, Gate.program, Gate.test, bind_assoc, pure_bind]
    rfl
  | enter gate f n =>
    exact gateAsk_program f 1 1 (fun _ => rfl) (fun _ => rfl) rfl (Option.some.inj h)
  | reading f rest =>
    cases rest with
    | pure result =>
      cases h
      simp only [program, OpenFile.leaveRead, Gate.program, Gate.test, Prog.pure_eq, pure_bind, bind_assoc]
      rfl
    | request e c =>
      cases h
      rfl
  | leave gate f result =>
    exact gateAsk_program f (-1) 0 (fun _ => rfl) (fun _ => rfl) rfl (Option.some.inj h)
  | beyond f src n => exact extendAsk_program f src n (Option.some.inj h)
  | extending f src n rest => exact extendAsk_program f src n (Option.some.inj h)
  | locking f src n =>
    cases h
    simp only [program, OpenFile.writeLocked, bind_assoc]
    rfl
  | writing f rest =>
    cases rest with
    | pure f =>
      cases h
      rfl
    | request e c =>
      cases h
      rfl

end Point

def openAt (sector : ℤ) : Nachos OpenFile := do
  let file ← OpenFile.new sector
  OpenFile.countOpen sector 1
  register .semaphoreRead sector 1
  pure file

inductive Command
  | step
  | openFile (sector : ℤ)
  | close
  | seek (position : ℤ)
  | read (numBytes : ℤ)
  | write (src : List Byte) (numBytes : ℤ)

namespace Point

def startWrite (f : OpenFile) (src : List Byte) (numBytes : ℤ) : Point :=
  if int32 (f.seekPosition + numBytes) > f.hdr.fileLength then .beyond f src numBytes else .locking f src numBytes

def turn : Command → Point → Option Point
  | .step, .opening (.pure f) => some (.idle f)
  | .step, .closing (.pure _) => some .absent
  | .openFile sector, .absent => some (.opening (openAt sector))
  | .close, .idle f => some (.closing f.close)
  | .seek position, .idle f => some (.idle (f.seek position))
  | .read numBytes, .idle f => some (.arriving f numBytes)
  | .write src numBytes, .idle f => some (startWrite f src numBytes)
  | _, _ => none

/-- One move of a thread. A thread whose `P` finds the semaphore at `0` cannot move. -/
def move (fm : OpenFile) (c : Command) (k : Kernel) (p : Point) : Option (Kernel × Point) :=
  match c, p.ask fm with
  | .step, some ⟨e, next⟩ =>
    match Kernel.handle e k with
    | .ok (r, k') => some (k', next r)
    | .error _ => none
  | c, _ => (p.turn c).map fun p' => (k, p')

end Point

variable {fm : OpenFile} {p p' : Point} {k k' : Kernel} {cmd : Command}

lemma Point.move_cases (h : p.move fm cmd k = some (k', p')) :
    (∃ e c r, cmd = .step ∧ p.ask fm = some ⟨e, c⟩ ∧ Kernel.handle e k = .ok (r, k') ∧ p' = c r) ∨
      p.turn cmd = some p' ∧ k = k' := by
  rw [move.eq_def] at h
  split at h
  case h_1 e next hask =>
    split at h
    case h_1 r t hh =>
      cases h
      exact .inl ⟨e, next, r, rfl, hask, hh, rfl⟩
    case h_2 => cases h
  case h_2 =>
    obtain ⟨q, hq, he⟩ := Option.map_eq_some_iff.mp h
    cases he
    exact .inr ⟨hq, rfl⟩

lemma Point.startWrite_program (f : OpenFile) (src : List Byte) (n : ℤ) :
    (startWrite f src n).program fm = (do
      let (_, f) ← OpenFile.write fm f src n
      pure (some f)) := by
  rw [startWrite, OpenFile.write]
  split
  · rw [bind_assoc]
    rfl
  · rfl

lemma Point.move_program (h : p.move fm .step k = some (k', p')) :
    exec (p.program fm) k = exec (p'.program fm) k' := by
  rcases move_cases h with ⟨e, c, r, -, hask, hh, rfl⟩ | ⟨hturn, rfl⟩
  · rw [ask_program hask, exec, Prog.run_request, hh]
    rfl
  · cases p with
    | opening rest =>
      cases rest with
      | pure f =>
        cases hturn
        rfl
      | request => cases hturn
    | closing rest =>
      cases rest with
      | pure =>
        cases hturn
        rfl
      | request => cases hturn
    | absent | idle | arriving | enter | reading | leave | beyond | extending | locking | writing => cases hturn

abbrev Machine := Pool Kernel Point

end NachosFileSys
