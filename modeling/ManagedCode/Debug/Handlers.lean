import ManagedCode.Size

/-!
# Exception tables

    The handler table is flat: each subtable is a header row, which holds the offset of the
    throwing instruction and the number of handler rows, followed by these rows. The implicit table
    maps an instruction that may fault on null to where execution goes on.
-/

namespace ManagedCode

/-- A row of the handler table. In a header, `bci` is the number of rows that follow. -/
structure HandlerRow where
  bci : Int
  pc : Int
  scopeDepth : Int
deriving DecidableEq, Repr, Inhabited

/-- The handler table, headers and rows in one list. -/
structure HandlerTable where
  rows : List HandlerRow := []
deriving DecidableEq, Repr, Inhabited

namespace HandlerTable

/-- The header of a subtable. The number of its rows is a 32 bit number. -/
def header (pc : Int) (handlers : List HandlerRow) : HandlerRow :=
  ⟨Word.signed32 handlers.length, pc, 0⟩

/-- Adds the handlers of the instruction at `pc`. -/
def add (t : HandlerTable) (pc : Int) (handlers : List HandlerRow) : Checked HandlerTable := do
  require (handlers ≠ []) (.table (.emptyHandlers pc))
  return ⟨t.rows ++ header pc handlers :: handlers⟩

/-- How many rows follow a header, as a word. -/
def rowCount (header : HandlerRow) : Nat := (Word.ofInt header.bci).toNat

/-- Walks from header to header, the next one at `position`, to the subtable of `pc`. A count that
    stays within the list needs no check; one that leads out of it may leave the range of words. -/
def findRows (pc : Int) (position : Nat) : List HandlerRow → Checked (Option (List HandlerRow))
  | [] => .ok none
  | header :: rest =>
      let count := rowCount header
      if count ≤ rest.length then
        if header.pc = pc then .ok (some (rest.take count))
        else findRows pc (position + 1 + count) (rest.drop count)
      else do
        let _ ← Size.add (position + 1) count
        if header.pc = pc then .error .outOfBounds else return none
termination_by rows => rows.length
decreasing_by simp only [List.length_drop, List.length_cons]; omega

/-- The handlers of the instruction at `pc`. -/
def find (t : HandlerTable) (pc : Int) : Checked (Option (List HandlerRow)) :=
  findRows pc 0 t.rows

end HandlerTable

/-- Where execution goes on after a fault on null, by the offset of the instruction. -/
structure ImplicitTable where
  entries : List (Nat × Nat) := []
deriving DecidableEq, Repr, Inhabited

namespace ImplicitTable

/-- Where execution goes on after the instruction at `pc`. -/
def find? (t : ImplicitTable) (pc : Nat) : Option Nat := t.entries.lookup pc

/-- Adds an instruction that has no entry yet. -/
def add (t : ImplicitTable) (pc target : Nat) : Checked ImplicitTable := do
  require (t.find? pc = none) (.table (.secondImplicitEntry pc))
  return ⟨t.entries ++ [(pc, target)]⟩

end ImplicitTable

end ManagedCode
