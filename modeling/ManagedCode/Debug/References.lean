import ManagedCode.Ident

/-!
# Recorded references

    The metadata and the handles that a unit refers to. Each is recorded once, in order of first
    use, and known by its index. Index 0 stands for null.

* **`IndexTable`** — the values in order, and a second table from each value to its index, so that
  a value is found without a search.
* **`ReferenceRecorder`** — the two tables of a unit in the making, and **`References`** what is
  left of them when it is done.
-/

namespace ManagedCode

/-- The metadata and handles a unit refers to, in order of first use. -/
structure References where
  metadata : List Metadata := []
  handles : List Handle := []
deriving DecidableEq, Repr, Inhabited

/-- Indices handed out by identity. Indices count from 1, and in `indices` the latest entry of a
    value comes first. -/
structure IndexTable (α : Type) where
  values : List α := []
  indices : List (α × Nat) := []
deriving DecidableEq, Repr, Inhabited

/-- The index of a value, and the table with the value in it. -/
def IndexTable.find {α : Type} [DecidableEq α] (t : IndexTable α) (value : α) :
    Nat × IndexTable α :=
  match t.indices.lookup value with
  | some index => (index, t)
  | none =>
      let values := t.values ++ [value]
      let index := values.length
      (index, ⟨values, (value, index) :: t.indices⟩)

/-- The references of a unit in the making. -/
structure ReferenceRecorder where
  metadataTable : IndexTable Metadata := {}
  handleTable : IndexTable Handle := {}
deriving DecidableEq, Repr, Inhabited

namespace ReferenceRecorder

/-- The metadata recorded so far. -/
def metadata (r : ReferenceRecorder) : List Metadata := r.metadataTable.values

/-- The handles recorded so far. -/
def handles (r : ReferenceRecorder) : List Handle := r.handleTable.values

/-- What is recorded, without the indices. -/
def recorded (r : ReferenceRecorder) : References := ⟨r.metadata, r.handles⟩

/-- Records metadata, and gives its index. -/
def addMetadata (r : ReferenceRecorder) (m : Metadata) : Nat × ReferenceRecorder :=
  let (index, metadataTable) := r.metadataTable.find m
  (index, { r with metadataTable })

/-- Records a handle, and gives its index. -/
def addHandle (r : ReferenceRecorder) (h : Handle) : Nat × ReferenceRecorder :=
  let (index, handleTable) := r.handleTable.find h
  (index, { r with handleTable })

end ReferenceRecorder

end ManagedCode
