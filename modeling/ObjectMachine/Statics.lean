/-
Static cells and the progress of static initialization, class by class. A class whose
initialization has not begun has no entry: it is pending, and its cells are at their zero values.
-/
import ObjectMachine.Class
import ObjectMachine.Failure

namespace ObjectMachine

/-- How far the static initialization of a class has come. -/
inductive InitState where
  | pending
  | running
  | done
  /-- Failed for good; the cause is reported again at every later access. -/
  | failed (cause : Failure)
  deriving DecidableEq, Repr

/-- The static cells of a class with the state of its initialization. -/
structure StaticArea where
  state : InitState
  cells : List Value
  deriving DecidableEq, Repr

/-- The area of a class before anything has happened to it. -/
def StaticArea.fresh (c : Class) : StaticArea :=
  ⟨.pending, c.statics.map (·.type.default)⟩

/-- The areas of the classes whose initialization has begun, in the order of beginning. -/
structure Statics where
  areas : List (ClassId × StaticArea) := []
  deriving DecidableEq, Repr

namespace Statics

/-- The area of a class. -/
def area (s : Statics) (c : Class) : StaticArea :=
  match s.areas.find? (·.1 = c.id) with
  | some entry => entry.2
  | none => .fresh c

/-- The state of a class by position. -/
def stateOf (s : Statics) (id : ClassId) : InitState :=
  match s.areas.find? (·.1 = id) with
  | some entry => entry.2.state
  | none => .pending

def state (s : Statics) (c : Class) : InitState := s.stateOf c.id

/-- The value in a static cell. -/
def cell? (s : Statics) (c : Class) (slot : Nat) : Option Value := (s.area c).cells[slot]?

/-- Replaces the area of a class, or enters it at the end. -/
def put : List (ClassId × StaticArea) → ClassId → StaticArea → List (ClassId × StaticArea)
  | [], id, a => [(id, a)]
  | entry :: rest, id, a =>
    if entry.1 = id then (id, a) :: rest else entry :: put rest id a

def setArea (s : Statics) (c : Class) (a : StaticArea) : Statics := ⟨put s.areas c.id a⟩

def setState (s : Statics) (c : Class) (st : InitState) : Statics :=
  s.setArea c { s.area c with state := st }

def setCell (s : Statics) (c : Class) (slot : Nat) (v : Value) : Statics :=
  s.setArea c { s.area c with cells := (s.area c).cells.set slot v }

/-- The handles held by static cells. -/
def handles (s : Statics) : List Handle :=
  s.areas.flatMap fun entry => entry.2.cells.flatMap Value.handles

end Statics

end ObjectMachine
