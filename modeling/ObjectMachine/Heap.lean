/-
Allocation and collection. The table keeps an entry for every allocation until a sweep finds its
object gone; an allocation sweeps first when the table has reached its threshold, which each sweep
sets anew to twice the entries it left, and at least to a floor. Allocations and collections make
the length of the table known when they are done with it.
-/
import ObjectMachine.Heap.Held

namespace ObjectMachine.Heap

/-- Removes the entries of objects that are gone; answers how many. -/
def sweep (h : Heap) (roots : List Handle) : Nat × Heap :=
  let kept := (h.held roots h.table.toList).toArray
  (h.table.size - kept.size, { h with table := kept, threshold := max (kept.size * 2) sweepFloor })

/-- A collection on request. -/
def collect (h : Heap) (roots : List Handle) : Nat × Heap :=
  let (swept, h) := h.sweep roots
  (swept, { h with published := h.table.size, collections := h.collections + 1 })

/-- The next allocation sweeps first. -/
def isFull (h : Heap) : Bool := h.threshold ≤ h.table.size

/-- Adds an instance of a class with every cell at its zero value, and tracks it. -/
def add (h : Heap) (c : Class) : Heap :=
  let table := h.table.push h.next
  { h with
    objects := h.objects.push ⟨c.id, c.fields.map (·.type.default)⟩
    table, published := table.size }

/-- An allocation: a sweep if the table is full, then a new object. -/
def allocate (h : Heap) (c : Class) (roots : List Handle) : Handle × Heap :=
  (h.next, (if h.isFull then (h.sweep roots).2 else h).add c)

/-- The text of storing outside an object's cells. -/
def slotOutOfBounds (slot count : Nat) : String :=
  "Field index " ++ toString slot ++ " out of bounds (object has " ++ toString count ++ " fields)"

/-- Stores a value into a cell whatever its type, if the object has that cell. -/
def setCell? (h : Heap) (ref : Handle) (slot : Nat) (v : Value) : Except String Heap :=
  let count := (h.cells ref).length
  if slot < count then .ok (h.setCell ref slot v) else .error (slotOutOfBounds slot count)

end ObjectMachine.Heap
