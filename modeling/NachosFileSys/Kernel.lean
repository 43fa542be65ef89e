import NachosFileSys.Lib.Programs
import NachosFileSys.Lib.Bytes

/-! The machine under the file system: the disk behind `SynchDisk`, the kernel's maps from header
sectors to counters and semaphores, and the unspecified contents of fresh heap memory. -/

namespace NachosFileSys

open Lib.Programs Lib.Bytes

abbrev SectorSize : ℤ := 128
abbrev NumSectors : ℤ := 1024

abbrev Sector := Vector Byte 128

/-- Only the sectors from `0` to `NumSectors - 1` can be requested. -/
abbrev Disk := ℤ → Sector

namespace Sector

def word (s : Sector) (j : Fin 32) : Word :=
  wordOf fun c => s[(4 * j.val + c) % 128]

def ofWords (f : Fin 32 → Word) : Sector :=
  Vector.ofFn fun i : Fin 128 => byteOf (f ⟨i.val / 4, by omega⟩) (i.val % 4)

lemma word_ofWords (f : Fin 32 → Word) (j : Fin 32) : word (ofWords f) j = f j := by
  rw [← wordOf_byteOf (f j), word, wordOf, wordOf]
  have hc : ∀ c : ℕ, c < 4 → (ofWords f)[(4 * j.val + c) % 128] = byteOf (f j) c := by
    intro c hc
    simp only [ofWords, Vector.getElem_ofFn]
    congr 2
    · apply Fin.ext
      change (4 * j.val + c) % 128 / 4 = j.val
      omega
    · omega
  rw [hc 0 (by omega), hc 1 (by omega), hc 2 (by omega), hc 3 (by omega)]

lemma ofWords_word (s : Sector) : ofWords (word s) = s := by
  apply Vector.ext
  intro i hi
  simp only [ofWords, Vector.getElem_ofFn, word]
  rw [byteOf_wordOf _ _ (by omega)]
  congr 1
  omega

end Sector

def divRoundDown (n s : ℤ) : ℤ := n.tdiv s

def divRoundUp (n s : ℤ) : ℤ := n.tdiv s + if n.tmod s > 0 then 1 else 0

/-- The ways in which the program stops: a failed `ASSERT`, an index outside a table or buffer, an
allocation of a negative size, a null semaphore, a `P` that no one will answer, and a recursion that is too
deep for the stack. -/
inductive Fault
  | assertion | index | allocation | null | blocked | depth
  deriving DecidableEq, Repr

inductive KernelMap
  | semaphoreRead | semaphoreWrite | readerCount | openFileCount
  deriving DecidableEq, Repr

structure Kernel where
  disk : Disk
  maps : KernelMap → ℤ → Option ℤ
  heap : ℕ → Byte

inductive Request
  | readSector (sector : ℤ)
  | writeSector (sector : ℤ) (data : Sector)
  | malloc (bytes : ℕ)
  | find (m : KernelMap) (key : ℤ)
  | assign (m : KernelMap) (key value : ℤ)
  | p (m : KernelMap) (key : ℤ)
  | v (m : KernelMap) (key : ℤ)
  | stop (f : Fault)

def Request.Reply : Request → Type
  | .readSector _ => Sector
  | .writeSector _ _ => Unit
  | .malloc _ => List Byte
  | .find _ _ => Option ℤ
  | .assign _ _ _ => Unit
  | .p _ _ => Unit
  | .v _ _ => Unit
  | .stop _ => Empty

namespace Kernel

def setMap (k : Kernel) (m : KernelMap) (key value : ℤ) : Kernel :=
  { k with maps := Function.update k.maps m (Function.update (k.maps m) key (some value)) }

/-- The kernel's answer to one request. `Disk::ReadRequest` and `Disk::WriteRequest` assert the sector
number; `P` is answered only while the semaphore is positive. -/
def handle : Handler Request Request.Reply Kernel Fault
  | .readSector s, k =>
    if 0 ≤ s ∧ s < NumSectors then .ok (k.disk s, k) else .error .assertion
  | .writeSector s data, k =>
    if 0 ≤ s ∧ s < NumSectors then .ok ((), { k with disk := Function.update k.disk s data })
    else .error .assertion
  | .malloc n, k => .ok ((List.range n).map k.heap, { k with heap := fun i => k.heap (i + n) })
  | .find m key, k => .ok (k.maps m key, k)
  | .assign m key value, k => .ok ((), k.setMap m key value)
  | .p m key, k =>
    match k.maps m key with
    | none => .error .null
    | some value => if value = 0 then .error .blocked else .ok ((), k.setMap m key (value - 1))
  | .v m key, k =>
    match k.maps m key with
    | none => .error .null
    | some value => .ok ((), k.setMap m key (value + 1))
  | .stop f, _ => .error f

def blank : Kernel := ⟨fun _ => Vector.replicate 128 0, fun _ _ => none, fun _ => 0⟩

end Kernel

abbrev Nachos (α : Type) := Prog Request Request.Reply α

def exec {α : Type} (p : Nachos α) (k : Kernel) : Except Fault (α × Kernel) := p.run Kernel.handle k

def readSector (sector : ℤ) : Nachos Sector := Prog.send (Request.readSector sector)
def writeSector (sector : ℤ) (data : Sector) : Nachos Unit := Prog.send (Request.writeSector sector data)
def malloc (bytes : ℕ) : Nachos (List Byte) := Prog.send (Request.malloc bytes)
def find (m : KernelMap) (key : ℤ) : Nachos (Option ℤ) := Prog.send (Request.find m key)
def assign (m : KernelMap) (key value : ℤ) : Nachos Unit := Prog.send (Request.assign m key value)
def semP (m : KernelMap) (key : ℤ) : Nachos Unit := Prog.send (Request.p m key)
def semV (m : KernelMap) (key : ℤ) : Nachos Unit := Prog.send (Request.v m key)

def stop {α : Type} (f : Fault) : Nachos α := .request (.stop f) (fun e => nomatch e)

def lift {α : Type} : Except Fault α → Nachos α
  | .ok a => pure a
  | .error f => stop f

def check (condition : Bool) : Except Fault Unit :=
  if condition then .ok () else .error .assertion

def assert (condition : Bool) : Nachos Unit := lift (check condition)

def lookup (m : KernelMap) (key : ℤ) : Nachos ℤ := do
  match ← find m key with
  | some value => pure value
  | none =>
    assign m key 0
    pure 0

def onlyIf (condition : Bool) (p : Nachos Unit) : Nachos Unit := if condition then p else pure ()

def register (m : KernelMap) (key value : ℤ) : Nachos Unit := do
  match ← find m key with
  | some _ => pure ()
  | none => assign m key value

/-- `if (map->find(key) != map->end()) map->operator[](key) = map->operator[](key) + amount;` The counts
that it changes are numbers of threads, which an `int` holds. -/
def adjust (m : KernelMap) (key amount : ℤ) : Nachos Unit := do
  match ← find m key with
  | some value => assign m key (value + amount)
  | none => pure ()

def index {α : Type} (table : List α) (i : ℤ) : Except Fault α :=
  if 0 ≤ i then
    match table[i.toNat]? with
    | some a => .ok a
    | none => .error .index
  else .error .index

variable {α β : Type}

@[simp] lemma exec_pure (a : α) (k : Kernel) : exec (pure a) k = .ok (a, k) := rfl

lemma exec_bind (p : Nachos α) (f : α → Nachos β) (k : Kernel) :
    exec (p >>= f) k =
      match exec p k with
      | .ok (a, k') => exec (f a) k'
      | .error x => .error x := by
  rw [exec, Prog.run_bind, exec]
  cases p.run Kernel.handle k <;> rfl

lemma exec_bind_ok {p : Nachos α} {f : α → Nachos β} {k k' : Kernel} {b : β} :
    exec (p >>= f) k = .ok (b, k') ↔
      ∃ a t, exec p k = .ok (a, t) ∧ exec (f a) t = .ok (b, k') :=
  Prog.run_bind_ok _

lemma exec_bind_of_ok {p : Nachos α} {k k' : Kernel} {a : α} (h : exec p k = .ok (a, k')) (f : α → Nachos β) :
    exec (p >>= f) k = exec (f a) k' := by
  rw [exec_bind, h]

lemma exec_bind_of_error {p : Nachos α} {k : Kernel} {x : Fault} (h : exec p k = .error x) (f : α → Nachos β) :
    exec (p >>= f) k = .error x := by
  rw [exec_bind, h]

@[simp] lemma exec_stop (f : Fault) (k : Kernel) : exec (stop f : Nachos α) k = .error f := rfl

@[simp] lemma exec_lift_ok (a : α) (k : Kernel) : exec (lift (.ok a)) k = .ok (a, k) := rfl

@[simp] lemma exec_lift_error (f : Fault) (k : Kernel) :
    exec (lift (.error f) : Nachos α) k = .error f := rfl

lemma exec_lift_eq_ok {x : Except Fault α} {k k' : Kernel} {a : α} :
    exec (lift x) k = .ok (a, k') ↔ x = .ok a ∧ k = k' := by
  cases x with
  | ok b => simp only [exec_lift_ok, Except.ok.injEq, Prod.mk.injEq]
  | error f => simp

lemma exec_assert (b : Bool) (k : Kernel) :
    exec (assert b) k = if b then .ok ((), k) else .error .assertion := by
  cases b <;> rfl

lemma exec_readSector (s : ℤ) (k : Kernel) :
    exec (readSector s) k = if 0 ≤ s ∧ s < NumSectors then .ok (k.disk s, k) else .error .assertion :=
  Prog.run_send _ _ _

lemma exec_writeSector (s : ℤ) (data : Sector) (k : Kernel) :
    exec (writeSector s data) k =
      if 0 ≤ s ∧ s < NumSectors then .ok ((), { k with disk := Function.update k.disk s data })
      else .error .assertion :=
  Prog.run_send _ _ _

lemma exec_malloc (n : ℕ) (k : Kernel) :
    exec (malloc n) k =
      .ok ((List.range n).map k.heap, { k with heap := fun i => k.heap (i + n) }) :=
  Prog.run_send _ _ _

lemma exec_find (m : KernelMap) (key : ℤ) (k : Kernel) :
    exec (find m key) k = .ok (k.maps m key, k) :=
  Prog.run_send _ _ _

lemma exec_assign (m : KernelMap) (key value : ℤ) (k : Kernel) :
    exec (assign m key value) k = .ok ((), k.setMap m key value) :=
  Prog.run_send _ _ _

end NachosFileSys
