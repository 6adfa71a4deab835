/-
What a run changes: the heap, the static cells with their initialization states, the lines written
and the clock. The program, which is the registry, stays as it is; a store refers to it by
positions only.
-/
import ObjectMachine.Heap
import ObjectMachine.Sink
import ObjectMachine.Registry
import ObjectMachine.Statics

namespace ObjectMachine

/-- The clock of a host. What it will read is data of the clock, so that any time may pass between two
readings. -/
structure Clock where
  /-- What it reads, in milliseconds since 1970, one reading after the other. -/
  readings : Nat → Nat
  /-- The clock never goes back. -/
  readings_le : ∀ n, readings n ≤ readings (n + 1)
  /-- How many times it has been read. -/
  taken : Nat := 0

namespace Clock

/-- The clock that starts with the year 2026 and moves on by a microsecond with each reading: a program
that waits for a later one ends. -/
def steady : Clock where
  readings n := (1767225600000000 + n) / 1000
  readings_le _ := Nat.div_le_div_right (Nat.le_succ _)

/-- The next reading, up to the largest number. -/
def now (c : Clock) : Int64 := Int64.ofNat (min (c.readings c.taken) Int64.maxValue.toInt.toNat)

/-- The clock after a reading. -/
def next (c : Clock) : Clock := { c with taken := c.taken + 1 }

theorem now_le_next (c : Clock) : c.now ≤ c.next.now := by
  have hmax : Int64.maxValue.toInt.toNat < 9223372036854775808 := by decide
  have hle : c.readings c.taken ≤ c.readings (c.taken + 1) := c.readings_le c.taken
  simp only [now, next]
  refine (Int64.ofNat_le_iff_le ?_ ?_).2 ?_ <;> omega

end Clock

/-- The mutable half of a machine. -/
structure Store where
  heap : Heap := {}
  statics : Statics := {}
  sink : Sink := {}
  clock : Clock := .steady

namespace Store

/-- The class of an object. -/
def classOf? (s : Store) (r : Registry) (ref : Handle) : Option Class :=
  (s.heap.get? ref).bind fun o => r.class? o.cls

/-- An object as text: the name of its class and its allocation number. -/
def nameOf (s : Store) (r : Registry) (ref : Handle) : String :=
  match s.classOf? r ref with
  | some c => c.name ++ "@" ++ hexDigits ref.number
  | none => "null"

/-- The canonical text of a value. -/
def text (s : Store) (r : Registry) (v : Value) : String := v.canonical (s.nameOf r)

/-- The value as diagnostics show it, with its type. -/
def describe (s : Store) (r : Registry) : Value → String
  | .null => "null"
  | .bool b => "bool(" ++ (Value.bool b).canonical (s.nameOf r) ++ ")"
  | .int i => "int(" ++ toString i.toInt ++ ")"
  | .long l => "long(" ++ toString l.toInt ++ ")"
  | .text t => "text(" ++ Text.quoted t ++ ")"
  | .object ref => "object(" ++ s.nameOf r ref ++ ")"

/-- The last field of a name in the layout of the object's own class. -/
def fieldByName? (s : Store) (r : Registry) (ref : Handle) (name : String) : Option Value :=
  (s.classOf? r ref).bind fun c => (c.fieldIndex? name).bind fun slot => s.heap.cell? ref slot

/-- Reads the clock, in milliseconds. -/
def tick (s : Store) : Int64 × Store := (s.clock.now, { s with clock := s.clock.next })

end Store

end ObjectMachine
