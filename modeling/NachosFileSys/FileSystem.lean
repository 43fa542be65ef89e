import NachosFileSys.Directory

/-! `filesys/filesys.cc`: from path names to files. -/

namespace NachosFileSys

open Lib.Programs Lib.Bytes

abbrev FreeMapSector : ℤ := 0
abbrev DirectorySector : ℤ := 1

abbrev FreeMapFileSize : ℤ := 128

abbrev DirectoryFileSize : ℤ := 200

def fetchDirectory (file : OpenFile) : Nachos Directory := do
  let d ← Directory.new NumDirEntries
  d.fetchFrom file

/-- The loop of `parse_path` over the components of the path; the last one is the file name. A
component that is no directory leaves its handle open. -/
def walk : List CString → ℤ → Nachos (ℤ × CString)
  | [], wdSector => pure (wdSector, [])
  | [filename], wdSector => pure (wdSector, filename)
  | dirname :: rest, wdSector => do
    let dir ← Directory.new NumDirEntries
    let dirFile ← OpenFile.new wdSector
    let dir ← dir.fetchFrom dirFile
    if dir.isDirectory dirname then
      dirFile.close
      walk rest (dir.find dirname)
    else pure (-1, [])

def components (path : CString) : List CString := (chars path).splitOn 0x2f#8

def parsePath (path : CString) (wdSector : ℤ) : Nachos (ℤ × CString) := walk (components path) wdSector

structure FileSystem where
  freeMapFile : OpenFile
  directoryFile : OpenFile
  deriving DecidableEq

namespace FileSystem

def format : Nachos FileSystem := do
  let freeMap ← lift (Bitmap.new 1024)
  let directory ← Directory.new NumDirEntries
  let mapHdr ← FileHeader.new
  let dirHdr ← FileHeader.new
  let freeMap ← lift (freeMap.mark FreeMapSector)
  let freeMap ← lift (freeMap.mark DirectorySector)
  let (success, mapHdr, freeMap) ← mapHdr.allocate freeMap FreeMapFileSize
  assert success
  let (success, dirHdr, freeMap) ← dirHdr.allocate freeMap DirectoryFileSize
  assert success
  mapHdr.writeBack FreeMapSector
  dirHdr.writeBack DirectorySector
  let freeMapFile ← OpenFile.new FreeMapSector
  let directoryFile ← OpenFile.new DirectorySector
  freeMap.writeBack freeMapFile
  directory.writeBack directoryFile
  pure ⟨freeMapFile, directoryFile⟩

def mount : Nachos FileSystem := do
  let freeMapFile ← OpenFile.new FreeMapSector
  let directoryFile ← OpenFile.new DirectorySector
  pure ⟨freeMapFile, directoryFile⟩

/-- `new PersistentBitmap(freeMapFile, NumSectors)`, and the same in two steps in `MakeDir`. -/
def fetchFreeMap (fs : FileSystem) : Nachos FreeMap := do
  let freeMap ← lift (Bitmap.new 1024)
  freeMap.fetchFrom fs.freeMapFile

def create (fs : FileSystem) (path : CString) (initialSize wdSector : ℤ) : Nachos Bool := do
  let (wdSector, name) ← parsePath path wdSector
  if wdSector < 0 then pure false
  else
    let directory ← Directory.new NumDirEntries
    let dirFile ← OpenFile.new wdSector
    let directory ← directory.fetchFrom dirFile
    if directory.find name ≠ -1 then pure false
    else
      let freeMap ← fs.fetchFreeMap
      let (sector, freeMap) ← lift freeMap.findAndSet
      if sector = -1 then pure false
      else
        let (added, directory) ← directory.add name sector
        if !added then pure false
        else
          let hdr ← FileHeader.new
          let (allocated, hdr, freeMap) ← hdr.allocate freeMap initialSize
          if !allocated then pure false
          else
            hdr.writeBack sector
            directory.writeBack dirFile
            freeMap.writeBack fs.freeMapFile
            pure true

/-- `FileSystem::Open`; `none` is the null handle. The comparison of an iterator of `semaphoreWrite`
with the end of `semaphoreRead` is false. -/
def openFile (path : CString) (wdSector : ℤ) : Nachos (Option OpenFile) := do
  let directory ← Directory.new NumDirEntries
  let (wdSector, name) ← parsePath path wdSector
  if wdSector < 0 then pure none
  else
    let dirFile ← OpenFile.new wdSector
    let directory ← directory.fetchFrom dirFile
    directory.print
    let sector := directory.find name
    if sector ≥ 0 then
      let file ← OpenFile.new sector
      OpenFile.countOpen sector 1
      register .semaphoreRead sector 1
      dirFile.close
      pure (some file)
    else
      dirFile.close
      pure none

/-- `FileSystem::Remove`. The open count that it consults is the one of the containing directory. -/
def remove (fs : FileSystem) (path : CString) (wdSector : ℤ) : Nachos Bool := do
  let (wdSector, name) ← parsePath path wdSector
  if wdSector < 0 then pure false
  else
    let count ← NachosFileSys.find .openFileCount wdSector
    if count.any (0 < ·) then pure false
    else
      let dirFile ← OpenFile.new wdSector
      let directory ← fetchDirectory dirFile
      let sector := directory.find name
      if sector = -1 then
        dirFile.close
        pure false
      else if directory.isDirectory name then
        dirFile.close
        pure false
      else
        let fileHdr ← FileHeader.fetchFrom sector
        let freeMap ← fs.fetchFreeMap
        let (_, freeMap) ← fileHdr.deallocate freeMap
        let freeMap ← lift (freeMap.clear sector)
        let directory := (directory.remove name).2
        freeMap.writeBack fs.freeMapFile
        directory.writeBack dirFile
        dirFile.close
        pure true

def makeDir (fs : FileSystem) (path : CString) (initialSize wdSector : ℤ) : Nachos Bool := do
  let (wdSector, name) ← parsePath path wdSector
  if wdSector < 0 then pure false
  else
    let directory ← Directory.new NumDirEntries
    let dirFile ← OpenFile.new wdSector
    let directory ← directory.fetchFrom dirFile
    if directory.find name ≠ -1 then
      dirFile.close
      pure false
    else
      let freeMap ← fs.fetchFreeMap
      let (sector, freeMap) ← lift freeMap.findAndSet
      if sector = -1 then
        dirFile.close
        pure false
      else
        let (added, directory) ← directory.addDirectory name sector
        if !added then
          dirFile.close
          pure false
        else
          assert (directory.find name ≠ -1)
          let hdr ← FileHeader.new
          let (allocated, hdr, freeMap) ← hdr.allocate freeMap initialSize
          if !allocated then
            dirFile.close
            pure false
          else
            hdr.writeBack sector
            directory.writeBack dirFile
            freeMap.writeBack fs.freeMapFile
            let newDir ← Directory.new NumDirEntries
            let newFile ← OpenFile.new sector
            let (added, newDir) ← newDir.addDirectory [0x2e] sector
            assert added
            let (added, newDir) ← newDir.addDirectory [0x2e, 0x2e] wdSector
            assert added
            newDir.writeBack newFile
            newFile.close
            dirFile.close
            pure true

def changeDir (path : CString) (wdSector : ℤ) : Nachos ℤ := do
  let (wdSector, name) ← parsePath path wdSector
  if wdSector < 0 then pure (-1)
  else
    let dirFile ← OpenFile.new wdSector
    let dir ← fetchDirectory dirFile
    dirFile.close
    pure (if dir.isDirectory name then dir.find name else -1)

def list (depth : ℕ) (dirSector : ℤ) : Nachos Unit := do
  let directory ← Directory.new NumDirEntries
  let dirFile ← OpenFile.new dirSector
  let directory ← directory.fetchFrom dirFile
  directory.list depth
  dirFile.close

end FileSystem

end NachosFileSys
