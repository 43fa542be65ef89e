import NachosFileSys.Lib.Runs
import Mathlib.Data.List.Basic
import Mathlib.Algebra.BigOperators.Group.List.Basic
import Mathlib.Tactic.Common

/-! `userprog/filetable.cc`: the global table of open files with their reference counts, and the vectors of
local descriptors that refer to it. -/

namespace NachosFileSys

open Lib.Runs

abbrev MAX_OPEN_FILE_ID : ℕ := 100

abbrev Pointer := ℕ

structure FileTableEntry where
  file : Pointer
  refCount : ℤ
  deriving DecidableEq, Repr

/-- `NULL` is `none`. The files that `~FileTableEntry` has deleted are kept in `deleted`. -/
structure FileTable where
  table : List (Option FileTableEntry)
  deleted : List Pointer
  deriving DecidableEq, Repr

namespace FileTable

def new : FileTable := ⟨List.replicate MAX_OPEN_FILE_ID none, []⟩

/-- The bounds that `ReadEntry` asserts are checked by its callers. -/
def readEntry (t : FileTable) (id : ℤ) : Option FileTableEntry := t.table.getD id.toNat none

def writeEntry (t : FileTable) (id : ℤ) (f : Pointer) : FileTable :=
  { t with table := t.table.set id.toNat (some ⟨f, 1⟩) }

def clearEntry (t : FileTable) (id : ℤ) : FileTable :=
  ⟨t.table.set id.toNat none, ((t.readEntry id).map (·.file)).toList ++ t.deleted⟩

def insert (t : FileTable) (file : Pointer) : ℤ × FileTable :=
  match t.table.findIdx? Option.isNone with
  | some i => (i, t.writeEntry i file)
  | none => (-1, t)

def resolve (t : FileTable) (id : ℤ) : Option Pointer :=
  if id < 0 ∨ (MAX_OPEN_FILE_ID : ℤ) ≤ id then none else (t.readEntry id).map (·.file)

def remove (t : FileTable) (id : ℤ) : ℤ × FileTable :=
  if id < 0 ∨ (MAX_OPEN_FILE_ID : ℤ) ≤ id then (-1, t)
  else
    match t.readEntry id with
    | none => (-1, t)
    | some e =>
      if e.refCount - 1 ≤ 0 then (0, t.clearEntry id)
      else (0, { t with table := t.table.set id.toNat (some { e with refCount := e.refCount - 1 }) })

def addReference (t : FileTable) (id : ℤ) : ℤ × FileTable :=
  if id < 0 ∨ (MAX_OPEN_FILE_ID : ℤ) ≤ id then (-1, t)
  else
    match t.readEntry id with
    | none => (-1, t)
    | some e => (0, { t with table := t.table.set id.toNat (some { e with refCount := e.refCount + 1 }) })

end FileTable

structure FileVector where
  idVector : List ℤ
  deriving DecidableEq, Repr

namespace FileVector

/-- The constructor refers to the console slots `0` and `1`, also where they are `NULL`. -/
def new (t : FileTable) : FileVector × FileTable :=
  (⟨0 :: 1 :: List.replicate (MAX_OPEN_FILE_ID - 2) (-1)⟩, ((t.addReference 0).2.addReference 1).2)

def freeId (v : FileVector) : Option ℕ := ((v.idVector.drop 2).findIdx? (· = -1)).map (· + 2)

def insert (v : FileVector) (t : FileTable) (f : Pointer) : ℤ × FileVector × FileTable :=
  let (globalId, t) := t.insert f
  match v.freeId with
  | some i => (i, ⟨v.idVector.set i globalId⟩, t)
  | none => (-1, v, t)

def resolve (v : FileVector) (t : FileTable) (id : ℤ) : Option Pointer :=
  if id < 0 ∨ (MAX_OPEN_FILE_ID : ℤ) ≤ id then none else t.resolve (v.idVector.getD id.toNat (-1))

def remove (v : FileVector) (t : FileTable) (id : ℤ) : ℤ × FileVector × FileTable :=
  if id < 0 ∨ (MAX_OPEN_FILE_ID : ℤ) ≤ id then (-1, v, t)
  else (0, ⟨v.idVector.set id.toNat (-1)⟩, (t.remove (v.idVector.getD id.toNat (-1))).2)

def removeAll : List ℤ → FileTable → FileTable
  | [], t => t
  | id :: ids, t => removeAll ids (t.remove id).2

def destruct (v : FileVector) (t : FileTable) : FileTable := removeAll v.idVector t

end FileVector

structure Descriptors where
  table : FileTable
  vectors : List FileVector
  deriving DecidableEq, Repr

namespace Descriptors

inductive Op
  | construct
  | insert (vector : ℕ) (file : Pointer)
  | remove (vector : ℕ) (id : ℤ)
  | destruct (vector : ℕ)

def start : Descriptors := ⟨.new, []⟩

def step : Op → Descriptors → Descriptors
  | .construct, s =>
    let (v, t) := FileVector.new s.table
    ⟨t, s.vectors ++ [v]⟩
  | .insert i f, s =>
    match s.vectors[i]? with
    | none => s
    | some v =>
      let (_, v, t) := v.insert s.table f
      ⟨t, s.vectors.set i v⟩
  | .remove i id, s =>
    match s.vectors[i]? with
    | none => s
    | some v =>
      let (_, v, t) := v.remove s.table id
      ⟨t, s.vectors.set i v⟩
  | .destruct i, s =>
    match s.vectors[i]? with
    | none => s
    | some v => ⟨v.destruct s.table, s.vectors.eraseIdx i⟩

def refs (s : Descriptors) (g : ℤ) : ℕ := (s.vectors.map fun v => v.idVector.count g).sum

def Counted (s : Descriptors) : Prop :=
  ∀ (g : ℕ) (e : FileTableEntry), s.table.table[g]? = some (some e) → e.refCount = s.refs g

/-- An `Insert` takes a slot to which no vector refers and has a local id for it, unless the table is full. -/
def Fresh (s : Descriptors) : Op → Prop
  | .insert i _ => ∀ g v, s.table.table.findIdx? Option.isNone = some g → s.vectors[i]? = some v →
      s.refs g = 0 ∧ v.freeId ≠ none
  | _ => True

end Descriptors

end NachosFileSys
