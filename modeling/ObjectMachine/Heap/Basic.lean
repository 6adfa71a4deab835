/-
The heap: objects with their cells, and the table that tracks them. Storing into a cell checks no
types here; that is the business of the code that stores.
-/
import ObjectMachine.Class

namespace ObjectMachine

/-- An object: the class it is an instance of and one cell for each field of its layout. -/
structure HeapObject where
  cls : ClassId
  cells : List Value
  deriving DecidableEq, Repr

/-- Below this many entries an allocation never sweeps. -/
def sweepFloor : Nat := 1024

/-- Objects by allocation, and the tracking of those that are still referred to. -/
structure Heap where
  objects : Array HeapObject := #[]
  /-- The tracked objects, oldest first. -/
  table : Array Handle := #[]
  /-- The table length at which the next allocation sweeps. -/
  threshold : Nat := sweepFloor
  /-- The number of tracked objects as it was made known last. -/
  published : Nat := 0
  /-- The collections asked for; sweeps by allocation do not count. -/
  collections : Nat := 0
  deriving DecidableEq, Repr

namespace Heap

/-- The number of objects allocated so far. -/
def allocated (h : Heap) : Nat := h.objects.size

/-- The number of tracked objects, as allocations and collections make it known. -/
def tracked (h : Heap) : Nat := h.published

def get? (h : Heap) (ref : Handle) : Option HeapObject := h.objects[ref.index]?

/-- The value in a cell of an object. -/
def cell? (h : Heap) (ref : Handle) (slot : Nat) : Option Value :=
  (h.get? ref).bind (·.cells[slot]?)

/-- The cells of an object. -/
def cells (h : Heap) (ref : Handle) : List Value :=
  match h.get? ref with
  | some o => o.cells
  | none => []

/-- Stores a value into a cell that exists. -/
def setCell (h : Heap) (ref : Handle) (slot : Nat) (v : Value) : Heap :=
  { h with objects := h.objects.modify ref.index fun o => { o with cells := o.cells.set slot v } }

/-- The handles in the cells of an object. -/
def references (h : Heap) (ref : Handle) : List Handle := (h.cells ref).flatMap Value.handles

/-- The handle that the next allocation answers. -/
def next (h : Heap) : Handle := ⟨h.objects.size⟩

end Heap

end ObjectMachine
