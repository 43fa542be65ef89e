import NachosFileSys.Bitmap

/-! `filesys/fileblock.cc` and `filesys/filehdr.cc`: a file header is a table of indirect blocks, each
a table of data sectors. -/

namespace NachosFileSys

open Lib.Programs Lib.Bytes

abbrev NumDirect : ℕ := 29

abbrev MaxSector : ℕ := 32

abbrev EmptyBlock : ℤ := -1

abbrev FreeMap := Bitmap 1024

structure IndirectBlock where
  dataSectors : List ℤ
  deriving DecidableEq

namespace IndirectBlock

def new : IndirectBlock := ⟨List.replicate MaxSector EmptyBlock⟩

def ofSector (s : Sector) : IndirectBlock := ⟨List.ofFn fun j : Fin MaxSector => (s.word j).toInt⟩

def toSector (b : IndirectBlock) : Sector :=
  Sector.ofWords fun j => BitVec.ofInt 32 (b.dataSectors.getD j EmptyBlock)

/-- The slots from the current one on, while fewer than `numSectors` are `allocated`. -/
def allocateLoop (numSectors : ℤ) : List ℤ → ℤ → FreeMap → Except Fault (ℤ × List ℤ × FreeMap)
  | [], allocated, freeMap => .ok (allocated, [], freeMap)
  | d :: ds, allocated, freeMap =>
    if allocated < numSectors then
      if d ≠ EmptyBlock then do
        let (a, ds', freeMap') ← allocateLoop numSectors ds allocated freeMap
        pure (a, d :: ds', freeMap')
      else do
        let (s, freeMap') ← freeMap.findAndSet
        check (s ≠ EmptyBlock)
        let (a, ds', freeMap'') ← allocateLoop numSectors ds (allocated + 1) freeMap'
        pure (a, s :: ds', freeMap'')
    else .ok (allocated, d :: ds, freeMap)

def allocate (b : IndirectBlock) (freeMap : FreeMap) (numSectors : ℤ) :
    Except Fault (ℤ × IndirectBlock × FreeMap) := do
  if numSectors < 0 ∨ (← freeMap.numClear) < numSectors then pure (-1, b, freeMap)
  else
    let (allocated, ds, freeMap') ← allocateLoop numSectors b.dataSectors 0 freeMap
    pure (allocated, ⟨ds⟩, freeMap')

def deallocateLoop : List ℤ → FreeMap → Except Fault FreeMap
  | [], freeMap => .ok freeMap
  | sector :: ds, freeMap =>
    if sector = EmptyBlock then deallocateLoop ds freeMap
    else do
      check (← freeMap.test sector)
      deallocateLoop ds (← freeMap.clear sector)

def deallocate (b : IndirectBlock) (freeMap : FreeMap) : Except Fault FreeMap :=
  deallocateLoop b.dataSectors freeMap

def writeBack (b : IndirectBlock) (sector : ℤ) : Nachos Unit := writeSector sector b.toSector

def fetchFrom (sector : ℤ) : Nachos IndirectBlock := do
  let s ← readSector sector
  pure (ofSector s)

def byteToSector (b : IndirectBlock) (offset : ℤ) : Except Fault ℤ := do
  let vBlock := offset.tdiv SectorSize
  check (vBlock < MaxSector)
  index b.dataSectors vBlock

end IndirectBlock

structure FileHeader where
  permisstion : ℤ
  numBytes : ℤ
  numSectors : ℤ
  dataSectors : List ℤ
  deriving DecidableEq

namespace FileHeader

/-- `new FileHeader`, whose constructor leaves `permisstion` as it finds it. -/
def new : Nachos FileHeader := do
  let junk ← malloc 4
  pure ⟨(wordOf fun c => junk.getD c 0).toInt, 0, 0, List.replicate NumDirect EmptyBlock⟩

def ofSector (s : Sector) : FileHeader where
  permisstion := (s.word 0).toInt
  numBytes := (s.word 1).toInt
  numSectors := (s.word 2).toInt
  dataSectors := List.ofFn fun i : Fin NumDirect => (s.word ⟨i + 3, Nat.add_lt_add_right i.isLt 3⟩).toInt

def toSector (h : FileHeader) : Sector :=
  Sector.ofWords fun j => BitVec.ofInt 32 <|
    match j.val with
    | 0 => h.permisstion
    | 1 => h.numBytes
    | 2 => h.numSectors
    | i + 3 => h.dataSectors.getD i EmptyBlock

def blockAt (d : ℤ) (freeMap : FreeMap) : Nachos (ℤ × IndirectBlock × FreeMap) :=
  if d = EmptyBlock then do
    let (s, freeMap') ← lift freeMap.findAndSet
    pure (s, IndirectBlock.new, freeMap')
  else do
    let block ← IndirectBlock.fetchFrom d
    pure (d, block, freeMap)

/-- The table entries from the current one on, while fewer than `needSectors` are `allocated`. Each
block is on disk before the loop goes on. -/
def allocateLoop (needSectors : ℤ) : List ℤ → ℤ → FreeMap → Nachos (ℤ × List ℤ × FreeMap)
  | [], allocated, freeMap => pure (allocated, [], freeMap)
  | d :: ds, allocated, freeMap =>
    if allocated < needSectors then do
      let (d', block, freeMap') ← blockAt d freeMap
      assert (d' ≠ EmptyBlock)
      let (sectorsInBlock, block', freeMap'') ← lift (block.allocate freeMap' (needSectors - allocated))
      assert (sectorsInBlock ≠ -1)
      block'.writeBack d'
      let (a, ds', freeMap''') ← allocateLoop needSectors ds (allocated + sectorsInBlock) freeMap''
      pure (a, d' :: ds', freeMap''')
    else pure (allocated, d :: ds, freeMap)

def allocate (h : FileHeader) (freeMap : FreeMap) (fileSize : ℤ) : Nachos (Bool × FileHeader × FreeMap) := do
  let needSectors := divRoundUp fileSize SectorSize
  if (← lift freeMap.numClear) < needSectors then pure (false, h, freeMap)
  else
    let (allocated, ds, freeMap') ← allocateLoop needSectors h.dataSectors 0 freeMap
    assert (needSectors ≤ allocated)
    pure (true,
      { h with
        numBytes := int32 (h.numBytes + fileSize)
        numSectors := int32 (h.numSectors + needSectors)
        dataSectors := ds },
      freeMap')

/-- `count` further iterations of the loop over `numSectors`, at the table entries from the current one
on: an iteration past the last entry indexes outside the table. -/
def deallocateLoop : List ℤ → ℕ → FreeMap → Nachos (List ℤ × FreeMap)
  | ds, 0, freeMap => pure (ds, freeMap)
  | [], _ + 1, _ => stop .index
  | blockSector :: ds, count + 1, freeMap =>
    if blockSector = EmptyBlock then do
      let (ds', freeMap') ← deallocateLoop ds count freeMap
      pure (blockSector :: ds', freeMap')
    else do
      assert (← lift (freeMap.test blockSector))
      let block ← IndirectBlock.fetchFrom blockSector
      let freeMap' ← lift (block.deallocate freeMap)
      assert (← lift (freeMap'.test blockSector))
      let freeMap'' ← lift (freeMap'.clear blockSector)
      let (ds', freeMap''') ← deallocateLoop ds count freeMap''
      pure (EmptyBlock :: ds', freeMap''')

def deallocate (h : FileHeader) (freeMap : FreeMap) : Nachos (FileHeader × FreeMap) := do
  let (ds, freeMap') ← deallocateLoop h.dataSectors h.numSectors.toNat freeMap
  pure ({ h with dataSectors := ds }, freeMap')

def fetchFrom (sector : ℤ) : Nachos FileHeader := do
  let s ← readSector sector
  pure (ofSector s)

def writeBack (h : FileHeader) (sector : ℤ) : Nachos Unit := writeSector sector h.toSector

def byteToSector (h : FileHeader) (offset : ℤ) : Nachos ℤ := do
  let vBlock := offset.tdiv SectorSize
  let blockSector ← lift (index h.dataSectors (vBlock.tdiv MaxSector))
  let block ← IndirectBlock.fetchFrom blockSector
  let pBlock ← lift (block.byteToSector (vBlock.tmod MaxSector * SectorSize))
  assert (0 ≤ pBlock ∧ pBlock < NumSectors)
  pure pBlock

def fileLength (h : FileHeader) : ℤ := h.numBytes

def printBlocks : List ℤ → ℕ → Nachos Unit
  | _, 0 => pure ()
  | [], _ + 1 => stop .index
  | _ :: ds, count + 1 => printBlocks ds count

def printContents : List ℤ → ℕ → Nachos Unit
  | _, 0 => pure ()
  | [], _ + 1 => stop .index
  | d :: ds, count + 1 =>
    if d < 0 ∨ d > NumSectors then printContents ds count
    else do
      let _ ← readSector d
      printContents ds count

def print (h : FileHeader) : Nachos Unit := do
  printBlocks h.dataSectors h.numSectors.toNat
  printContents h.dataSectors h.numSectors.toNat

end FileHeader

end NachosFileSys
