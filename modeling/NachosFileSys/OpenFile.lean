import NachosFileSys.FileHeader

/-! `filesys/openfile.cc` and `filesys/pbitmap.cc`. -/

namespace NachosFileSys

open Lib.Programs Lib.Bytes

def Sector.ofList (buf : List Byte) : Sector := Vector.ofFn fun j : Fin 128 => buf.getD j 0

def slice (buf : List Byte) (off len : ℤ) : Except Fault (List Byte) :=
  if 0 ≤ off ∧ off + len ≤ buf.length then .ok ((buf.drop off.toNat).take len.toNat) else .error .index

def copyInto (buf : List Byte) (off : ℤ) (src : List Byte) : Except Fault (List Byte) :=
  if 0 ≤ off ∧ off + src.length ≤ buf.length then .ok (overlay buf off.toNat src) else .error .index

structure OpenFile where
  hdr : FileHeader
  seekPosition : ℤ
  hdrSector : ℤ
  deriving DecidableEq

namespace OpenFile

/-- The update of the open count, which starts at `first` on a sector that has none. -/
def countOpen (sector first : ℤ) : Nachos Unit := do
  match ← find .openFileCount sector with
  | none => assign .openFileCount sector first
  | some count => assign .openFileCount sector (int32 (count + 1))

/-- `OpenFile::OpenFile`. The first handle on a sector leaves its count at `0`. -/
def new (sector : ℤ) : Nachos OpenFile := do
  let hdr ← FileHeader.fetchFrom sector
  countOpen sector 0
  register .readerCount sector 0
  register .semaphoreWrite sector 1
  register .semaphoreRead sector 1
  pure ⟨hdr, 0, sector⟩

def close (f : OpenFile) : Nachos Unit := do
  let count ← lookup .openFileCount f.hdrSector
  assign .openFileCount f.hdrSector (int32 (count - 1))

def seek (f : OpenFile) (position : ℤ) : OpenFile := { f with seekPosition := position }

def length (f : OpenFile) : ℤ := f.hdr.fileLength

def readSectors (hdr : FileHeader) (i : ℤ) : ℕ → Nachos (List Byte)
  | 0 => pure []
  | count + 1 => do
    let s ← readSector (← hdr.byteToSector (i * SectorSize))
    let rest ← readSectors hdr (i + 1) count
    pure (s.toList ++ rest)

/-- The bytes that `ReadAt` leaves in `into`; their number is its result. -/
def readAt (f : OpenFile) (numBytes position : ℤ) : Nachos (List Byte) :=
  let fileLength := f.hdr.fileLength
  if numBytes ≤ 0 ∨ position ≥ fileLength then pure []
  else
    let numBytes := if int32 (position + numBytes) > fileLength then int32 (fileLength - position)
      else numBytes
    let firstSector := divRoundDown position SectorSize
    let lastSector := divRoundDown (int32 (int32 (position + numBytes) - 1)) SectorSize
    let numSectors := 1 + lastSector - firstSector
    if int32 (numSectors * SectorSize) < 0 then stop .allocation
    else do
      let buf ← readSectors f.hdr firstSector numSectors.toNat
      lift (slice buf (position - firstSector * SectorSize) numBytes)

/-- The loop of `WriteAt` that writes `count` sectors of the buffer to the logical sectors from the
`i`-th on. -/
def writeSectors (hdr : FileHeader) (i : ℤ) : ℕ → List Byte → Nachos Unit
  | 0, _ => pure ()
  | count + 1, buf => do
    writeSector (← hdr.byteToSector (i * SectorSize)) (Sector.ofList buf)
    writeSectors hdr (i + 1) count (buf.drop 128)

def readPartial (f : OpenFile) (partly : Bool) (sector off : ℤ) (buf : List Byte) : Nachos (List Byte) :=
  if partly then do
    let bytes ← f.readAt SectorSize (sector * SectorSize)
    lift (copyInto buf off bytes)
  else pure buf

def writeAt (f : OpenFile) (src : List Byte) (numBytes position : ℤ) : Nachos ℤ :=
  let fileLength := f.hdr.fileLength
  if numBytes ≤ 0 ∨ position ≥ fileLength then pure 0
  else
    let numBytes := if int32 (position + numBytes) > fileLength then int32 (fileLength - position)
      else numBytes
    let firstSector := divRoundDown position SectorSize
    let lastSector := divRoundDown (int32 (int32 (position + numBytes) - 1)) SectorSize
    let numSectors := 1 + lastSector - firstSector
    let firstAligned := decide (position = firstSector * SectorSize)
    let lastAligned := decide (int32 (position + numBytes) = int32 ((lastSector + 1) * SectorSize))
    if int32 (numSectors * SectorSize) < 0 then stop .allocation
    else do
      let buf ← malloc (numSectors * SectorSize).toNat
      let buf ← f.readPartial (!firstAligned) firstSector 0 buf
      let buf ← f.readPartial (!lastAligned && (firstSector ≠ lastSector || firstAligned)) lastSector
        ((lastSector - firstSector) * SectorSize) buf
      let bytes ← lift (slice src 0 numBytes)
      let buf ← lift (copyInto buf (position - firstSector * SectorSize) bytes)
      writeSectors f.hdr firstSector numSectors.toNat buf
      pure numBytes

def enterRead (f : OpenFile) : Nachos Unit := do
  semP .semaphoreRead f.hdrSector
  adjust .readerCount f.hdrSector 1
  let count ← lookup .readerCount f.hdrSector
  onlyIf (count = 1) (semP .semaphoreWrite f.hdrSector)
  semV .semaphoreRead f.hdrSector

def leaveRead (f : OpenFile) : Nachos Unit := do
  semP .semaphoreRead f.hdrSector
  adjust .readerCount f.hdrSector (-1)
  let count ← lookup .readerCount f.hdrSector
  onlyIf (count = 0) (semV .semaphoreWrite f.hdrSector)
  semV .semaphoreRead f.hdrSector

def read (f : OpenFile) (numBytes : ℤ) : Nachos (List Byte × OpenFile) := do
  f.enterRead
  let result ← f.readAt numBytes f.seekPosition
  f.leaveRead
  pure (result, { f with seekPosition := int32 (f.seekPosition + result.length) })

end OpenFile

namespace Bitmap

variable {n : ℕ}

def toBytes (b : Bitmap n) : List Byte :=
  List.ofFn fun i : Fin (4 * numWords n) => byteOf (b.map.get ⟨i / 4, by omega⟩) (i % 4)

def ofBytes (bytes : List Byte) : Bitmap n :=
  ⟨Vector.ofFn fun j => wordOf fun c => bytes.getD (4 * j + c) 0⟩

def fetchFrom (b : Bitmap n) (file : OpenFile) : Nachos (Bitmap n) := do
  let bytes ← file.readAt (numWords n * 4) 0
  lift (do
    let map ← copyInto b.toBytes 0 bytes
    pure (ofBytes map))

def writeBack (b : Bitmap n) (file : OpenFile) : Nachos Unit := do
  let _ ← file.writeAt b.toBytes (numWords n * 4) 0

end Bitmap

namespace OpenFile

/-- The part of `OpenFile::Write` that extends the file: it happens before the write semaphore is
taken. -/
def extend (freeMapFile f : OpenFile) (numBytes : ℤ) : Nachos OpenFile := do
  let freeMap ← lift (Bitmap.new 1024)
  let freeMap ← freeMap.fetchFrom freeMapFile
  let (success, hdr, freeMap) ← f.hdr.allocate freeMap numBytes
  assert success
  hdr.writeBack f.hdrSector
  freeMap.writeBack freeMapFile
  pure { f with hdr := hdr }

def writeLocked (f : OpenFile) (src : List Byte) (numBytes : ℤ) : Nachos (ℤ × OpenFile) := do
  semP .semaphoreWrite f.hdrSector
  let result ← f.writeAt src numBytes f.seekPosition
  semV .semaphoreWrite f.hdrSector
  pure (result, { f with seekPosition := int32 (f.seekPosition + result) })

def write (freeMapFile f : OpenFile) (src : List Byte) (numBytes : ℤ) : Nachos (ℤ × OpenFile) := do
  let f ← (if int32 (f.seekPosition + numBytes) > f.hdr.fileLength then extend freeMapFile f numBytes
    else pure f)
  f.writeLocked src numBytes

end OpenFile

end NachosFileSys
