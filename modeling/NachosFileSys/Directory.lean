import NachosFileSys.OpenFile

/-! `filesys/directory.cc`: a table of fixed-length entries, kept in a file. -/

namespace NachosFileSys

open Lib.Programs Lib.Bytes

abbrev FileNameMaxLen : ℕ := 9
abbrev NumDirEntries : ℕ := 10

abbrev EntrySize : ℕ := 20

/-- A `char *` argument: the characters before the first zero are the string. -/
abbrev CString := List Byte

def chars (s : CString) : List Byte := s.takeWhile (· ≠ 0)

def strncmpEq : List Byte → List Byte → ℕ → Bool
  | _, _, 0 => true
  | s, t, n + 1 =>
    if s.headD 0 ≠ t.headD 0 then false
    else if s.headD 0 = 0 then true
    else strncmpEq s.tail t.tail n

structure DirectoryEntry where
  isDir : Byte
  inUse : Byte
  pad : Vector Byte 2
  sector : Word
  name : Vector Byte 10
  trail : Vector Byte 2
  deriving DecidableEq

namespace DirectoryEntry

def ofBytes (b : List Byte) : DirectoryEntry where
  isDir := b.getD 0 0
  inUse := b.getD 1 0
  pad := Vector.ofFn fun i => b.getD (2 + i) 0
  sector := wordOf fun c => b.getD (4 + c) 0
  name := Vector.ofFn fun i => b.getD (8 + i) 0
  trail := Vector.ofFn fun i => b.getD (18 + i) 0

def toBytes (e : DirectoryEntry) : List Byte :=
  [e.isDir, e.inUse] ++ e.pad.toList ++ (List.range 4).map (byteOf e.sector) ++ e.name.toList ++
    e.trail.toList

/-- `strncpy(name, s, FileNameMaxLen)`: pads with zeros and leaves the last byte alone. -/
def strncpy (name : Vector Byte 10) (s : CString) : Vector Byte 10 :=
  Vector.ofFn fun i => if i.val < FileNameMaxLen then (chars s).getD i 0 else name.get i

end DirectoryEntry

structure Directory where
  table : List DirectoryEntry
  deriving DecidableEq

namespace Directory

def tableSize (d : Directory) : ℕ := d.table.length

def toBytes (d : Directory) : List Byte := d.table.flatMap DirectoryEntry.toBytes

def ofBytes (size : ℕ) (bytes : List Byte) : Directory :=
  ⟨(List.range size).map fun i => DirectoryEntry.ofBytes (bytes.drop (EntrySize * i))⟩

def new (size : ℕ) : Nachos Directory := do
  let junk ← malloc (EntrySize * size)
  pure ⟨(ofBytes size junk).table.map fun e => { e with inUse := 0 }⟩

def fetchFrom (d : Directory) (file : OpenFile) : Nachos Directory := do
  let bytes ← file.readAt (d.tableSize * EntrySize) 0
  lift (do
    let table ← copyInto d.toBytes 0 bytes
    pure (ofBytes d.tableSize table))

def writeBack (d : Directory) (file : OpenFile) : Nachos Unit := do
  let _ ← file.writeAt d.toBytes (d.tableSize * EntrySize) 0

def named (name : CString) (e : DirectoryEntry) : Bool :=
  e.inUse ≠ 0 && strncmpEq e.name.toList (chars name) FileNameMaxLen

def findIndex (d : Directory) (name : CString) : ℤ :=
  match d.table.findIdx? (named name) with
  | some i => i
  | none => -1

def entryNamed (d : Directory) (name : CString) : Option DirectoryEntry := d.table.find? (named name)

def find (d : Directory) (name : CString) : ℤ :=
  match d.entryNamed name with
  | some e => e.sector.toInt
  | none => -1

def isDirectory (d : Directory) (name : CString) : Bool :=
  match d.entryNamed name with
  | some e => e.isDir ≠ 0
  | none => false

def place (d : Directory) (name : CString) (newSector : ℤ) (isDir : Byte) : Option Directory :=
  match d.table.findIdx? (fun e => e.inUse = 0) with
  | some i => some ⟨d.table.modify i fun e =>
      { e with
        inUse := 1
        name := DirectoryEntry.strncpy e.name name
        sector := BitVec.ofInt 32 newSector
        isDir := isDir }⟩
  | none => none

def expand (d : Directory) (size : ℕ) : Nachos Directory := do
  let junk ← malloc (EntrySize * size)
  let fresh := (ofBytes size junk).table.map fun e => { e with inUse := 0 }
  pure ⟨d.table.take size ++ fresh.drop d.tableSize⟩

/-- The two search loops of `Add` and `AddDirectory`, with `Expand` between them. -/
def insert (d : Directory) (name : CString) (newSector : ℤ) (isDir : Byte) : Nachos (Bool × Directory) :=
  match d.place name newSector isDir with
  | some d' => pure (true, d')
  | none => do
    let d' ← d.expand (d.tableSize * 2)
    match d'.place name newSector isDir with
    | some d'' => pure (true, d'')
    | none => pure (false, d')

def add (d : Directory) (name : CString) (newSector : ℤ) : Nachos (Bool × Directory) :=
  if d.findIndex name ≠ -1 then pure (false, d)
  else do
    let (success, d') ← d.insert name newSector 0
    assert success
    pure (true, d')

def addDirectory (d : Directory) (name : CString) (newSector : ℤ) : Nachos (Bool × Directory) :=
  if d.findIndex name ≠ -1 then pure (false, d) else d.insert name newSector 1

def remove (d : Directory) (name : CString) : Bool × Directory :=
  match d.table.findIdx? (named name) with
  | some i => (true, ⟨d.table.modify i fun e => { e with inUse := 0 }⟩)
  | none => (false, d)

def printLoop : List DirectoryEntry → Nachos Unit
  | [] => pure ()
  | e :: es => do
    onlyIf (e.inUse ≠ 0) (do
      let hdr ← FileHeader.fetchFrom e.sector.toInt
      hdr.print)
    printLoop es

def print (d : Directory) : Nachos Unit := printLoop d.table

def listLoop (enter : ℤ → Nachos Unit) : List DirectoryEntry → Nachos Unit
  | [] => pure ()
  | e :: es => do
    onlyIf (e.inUse ≠ 0 && e.isDir ≠ 0 && chars e.name.toList ≠ [0x2e] && chars e.name.toList ≠ [0x2e, 0x2e])
      (enter e.sector.toInt)
    listLoop enter es

/-- `Directory::List`, with room on the stack for `depth` nested calls. -/
def list : ℕ → Directory → Nachos Unit
  | 0, d => listLoop (fun _ => stop .depth) d.table
  | depth + 1, d => listLoop (fun sector => do
      let dir ← new NumDirEntries
      let dirFile ← OpenFile.new sector
      let dir ← dir.fetchFrom dirFile
      list depth dir
      dirFile.close) d.table

end Directory

end NachosFileSys
