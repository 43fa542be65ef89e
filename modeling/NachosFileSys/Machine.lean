import NachosFileSys.Bitmap

/-! The simulated memory: `machine/translate.cc`, and the page faults of `userprog/exception.cc`. The swap
file is a store of pages, one for each slot. -/

namespace NachosFileSys

open Lib.Bytes

abbrev NumPhysPages : ℕ := 32

abbrev Page := Fin 128 → Byte

structure TranslationEntry where
  virtualPage : ℤ
  physicalPage : ℤ
  valid : Bool
  readOnly : Bool
  use : Bool
  dirty : Bool
  deriving DecidableEq, Repr

abbrev EntryPtr := ℕ × ℕ

structure PagedMachine where
  mainMemory : ℤ → Byte
  pageTable : EntryPtr → TranslationEntry
  numPages : List ℕ
  freeMap : Bitmap NumPhysPages
  fifoEntryList : List EntryPtr
  swapSpace : ℤ → Page
  swapSpaceCounter : ℤ

inductive ExceptionType
  | noException | syscallException | pageFaultException | readOnlyException | busErrorException
  | addressErrorException | overflowException | illegalInstrException
  deriving DecidableEq, Repr

/-- The data of `ReadMem` at an address of a little-endian memory; `char` is signed. -/
def fetchData (memory : ℤ → Byte) (address size : ℤ) : Except Fault ℤ :=
  if size = 1 then .ok (memory address).toInt
  else if size = 2 then .ok ((memory address).toNat + 256 * (memory (address + 1)).toNat)
  else if size = 4 then .ok (wordOf fun c => memory (address + c)).toInt
  else .error .assertion

def storeData (memory : ℤ → Byte) (address size value : ℤ) : Except Fault (ℤ → Byte) :=
  if size = 1 ∨ size = 2 ∨ size = 4 then
    .ok fun a => if address ≤ a ∧ a < address + size then
      byteOf (BitVec.ofInt 32 value) (a - address).toNat else memory a
  else .error .assertion

namespace PagedMachine

def setEntry (m : PagedMachine) (x : EntryPtr) (e : TranslationEntry) : PagedMachine :=
  { m with pageTable := Function.update m.pageTable x e }

def frame (m : PagedMachine) (ppn : ℤ) : Page := fun j => m.mainMemory (ppn * 128 + j.val)

def setFrame (m : PagedMachine) (ppn : ℤ) (page : Page) : PagedMachine :=
  { m with mainMemory := fun a =>
      if h : ppn * 128 ≤ a ∧ a < ppn * 128 + 128 then page ⟨(a - ppn * 128).toNat, by omega⟩ else m.mainMemory a }

/-- `Machine::Translate` with the page table of an address space. A physical page that is negative is a large
`unsigned`. -/
def translate (m : PagedMachine) (space : ℕ) (virtAddr size : ℤ) (writing : Bool) :
    Except ExceptionType (ℤ × PagedMachine) :=
  if (size = 4 ∧ virtAddr % 4 ≠ 0) ∨ (size = 2 ∧ virtAddr % 2 ≠ 0) then .error .addressErrorException
  else
    let vpn := (virtAddr % 2 ^ 32 / 128).toNat
    let offset := virtAddr % 2 ^ 32 % 128
    let x := (space, vpn)
    let entry := m.pageTable x
    if m.numPages.getD space 0 ≤ vpn then .error .addressErrorException
    else if !entry.valid then .error .pageFaultException
    else if entry.readOnly && writing then .error .readOnlyException
    else if entry.physicalPage < 0 ∨ (NumPhysPages : ℤ) ≤ entry.physicalPage then .error .busErrorException
    else .ok (entry.physicalPage * 128 + offset,
      m.setEntry x { entry with use := true, dirty := entry.dirty || writing })

inductive Transfer
  /-- The page of the victim is written from a copy. -/
  | evicting (victim : EntryPtr) (ppn : ℤ) (copy : Page) (page : ℕ)
  /-- The page of the faulting entry is read. -/
  | fetching (ppn : ℤ) (page : ℕ)

def startFault (m : PagedMachine) (space page : ℕ) : Except Fault (PagedMachine × Transfer) := do
  let (ppn, freeMap) ← m.freeMap.findAndSet
  let m := { m with freeMap := freeMap }
  let x := (space, page)
  if ppn ≠ -1 then
    pure (m.setEntry x { m.pageTable x with physicalPage := ppn, valid := true }, .fetching ppn page)
  else
    match m.fifoEntryList with
    | [] => .error .assertion
    | victim :: rest =>
      let ppn := (m.pageTable victim).physicalPage
      pure ({ m with fifoEntryList := rest }, .evicting victim ppn (m.frame ppn) page)

/-- The end of `swapSpace->WriteAt`, and the page fault up to `swapSpace->ReadAt`. -/
def finishEviction (m : PagedMachine) (space : ℕ) (victim : EntryPtr) (ppn : ℤ) (copy : Page) (page : ℕ) :
    PagedMachine :=
  let m := { m with swapSpace := Function.update m.swapSpace (m.pageTable victim).virtualPage copy }
  let m := m.setEntry victim { m.pageTable victim with physicalPage := -1, valid := false }
  m.setEntry (space, page) { m.pageTable (space, page) with physicalPage := ppn, valid := true }

/-- The end of `swapSpace->ReadAt`, and the rest of the page fault. `Append` asserts that the entry is not yet
in the list. -/
def finishFetch (m : PagedMachine) (space : ℕ) (ppn : ℤ) (page : ℕ) : Except Fault PagedMachine :=
  let x := (space, page)
  let m := m.setFrame ppn (m.swapSpace (m.pageTable x).virtualPage)
  if x ∈ m.fifoEntryList then .error .assertion
  else .ok { m with fifoEntryList := m.fifoEntryList ++ [x] }

def pageFault (m : PagedMachine) (space page : ℕ) : Except Fault PagedMachine := do
  let (m, transfer) ← m.startFault space page
  match transfer with
  | .fetching ppn page => m.finishFetch space ppn page
  | .evicting victim ppn copy page => (m.finishEviction space victim ppn copy page).finishFetch space ppn page

/-- `ExceptionHandler` after `RaiseException` has set `BadVAddrReg`. -/
def exceptionHandler (m : PagedMachine) (space : ℕ) (which : ExceptionType) (badVAddr : ℤ) :
    Except Fault PagedMachine :=
  match which with
  | .pageFaultException => m.pageFault space (badVAddr.tdiv 128).toNat
  | _ => .error .assertion

def readMem (m : PagedMachine) (space : ℕ) (addr size : ℤ) : Except Fault (Option ℤ × PagedMachine) :=
  match m.translate space addr size false with
  | .error which => do
    let m ← m.exceptionHandler space which addr
    pure (none, m)
  | .ok (physicalAddress, m) => do
    let data ← fetchData m.mainMemory physicalAddress size
    pure (some data, m)

def writeMem (m : PagedMachine) (space : ℕ) (addr size value : ℤ) : Except Fault (Bool × PagedMachine) :=
  match m.translate space addr size true with
  | .error which => do
    let m ← m.exceptionHandler space which addr
    pure (false, m)
  | .ok (physicalAddress, m) => do
    let memory ← storeData m.mainMemory physicalAddress size value
    pure (true, { m with mainMemory := memory })

def loadPage (m : PagedMachine) (space i : ℕ) (page : Page) : PagedMachine :=
  let slot := m.swapSpaceCounter
  let m := { m with swapSpaceCounter := slot + 1 }
  let m := m.setEntry (space, i) ⟨slot, -1, false, false, false, false⟩
  { m with swapSpace := Function.update m.swapSpace slot page }

/-- The loop of `AddrSpace::Load` over the pages of the image, from page `i` on. -/
def loadPages (space : ℕ) : List Page → ℕ → PagedMachine → PagedMachine
  | [], _, m => m
  | page :: pages, i, m => loadPages space pages (i + 1) (m.loadPage space i page)

/-- The page table that `AddrSpace::Load` builds for the pages of an executable, as the next address space. -/
def load (m : PagedMachine) (image : List Page) : PagedMachine :=
  let m := loadPages m.numPages.length image 0 m
  { m with numPages := m.numPages ++ [image.length] }

def start (swapSpace : ℤ → Page) : PagedMachine where
  mainMemory := fun _ => 0
  pageTable := fun _ => ⟨0, -1, false, false, false, false⟩
  numPages := []
  freeMap := .empty NumPhysPages
  fifoEntryList := []
  swapSpace := swapSpace
  swapSpaceCounter := 0

end PagedMachine

end NachosFileSys
