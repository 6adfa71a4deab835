/-
Values: what a local slot, a field cell or an argument holds. Primitive values are copied; an
object value is a handle, the position of its object among the allocations of one heap, so two
values may name the same object. A value conforms to its own type only, and null to the two
reference kinds: there is no widening.
-/
import ObjectMachine.Ty

namespace ObjectMachine

/-- A handle on a heap object: its position among the allocations of its heap. -/
structure Handle where
  index : Nat
  deriving DecidableEq, Repr, Hashable

/-- Allocations are numbered from one. -/
def Handle.number (ref : Handle) : Nat := ref.index + 1

/-- Lowercase hexadecimal digits of a number, without leading zeros. -/
def hexDigits (n : Nat) : String := String.ofList (Nat.toDigits 16 n)

/-- A value of the machine. -/
inductive Value where
  | null
  | bool (b : Bool)
  | int (i : Int32)
  | long (l : Int64)
  | text (s : String)
  | object (ref : Handle)
  deriving DecidableEq, Repr, Inhabited

/-- The zero value a slot of a type holds before anything is stored in it. -/
def Ty.default : Ty → Value
  | .boolean => .bool false
  | .int => .int 0
  | .long => .long 0
  | .text | .reference | .void => .null

namespace Value

/-- The type of a value; null has none of its own. -/
def type? : Value → Option Ty
  | .null => none
  | .bool _ => some .boolean
  | .int _ => some .int
  | .long _ => some .long
  | .text _ => some .text
  | .object _ => some .reference

/-- A value may be stored in a slot of type `ty`: the types agree, or null meets a reference
kind. -/
def conformsTo (v : Value) (ty : Ty) : Bool :=
  match v.type? with
  | some own => own = ty
  | none => ty.isReferenceKind

/-- The word messages use for the type of a value. -/
def typeName (v : Value) : String :=
  match v.type? with
  | some ty => ty.name
  | none => "null"

def isNull : Value → Bool
  | .null => true
  | _ => false

def asBool? : Value → Option Bool
  | .bool b => some b
  | _ => none

def asInt? : Value → Option Int32
  | .int i => some i
  | _ => none

def asLong? : Value → Option Int64
  | .long l => some l
  | _ => none

def asText? : Value → Option String
  | .text s => some s
  | _ => none

def asObject? : Value → Option Handle
  | .object ref => some ref
  | _ => none

/-- The handles a value holds: one for an object value, none for any other. -/
def handles (v : Value) : List Handle := v.asObject?.toList

/-- Canonical text: decimal digits with a leading `-` for negative numbers, `true` or `false`,
a text as it is, `null`, and for an object what `nameOf` calls it. -/
def canonical (nameOf : Handle → String) : Value → String
  | .null => "null"
  | .bool b => if b then "true" else "false"
  | .int i => toString i.toInt
  | .long l => toString l.toInt
  | .text s => s
  | .object ref => nameOf ref

theorem conformsTo_default (ty : Ty) (h : ty ≠ .void) : ty.default.conformsTo ty := by
  cases ty <;> first | rfl | exact absurd rfl h

theorem null_conformsTo (ty : Ty) : Value.null.conformsTo ty = ty.isReferenceKind := rfl

theorem conformsTo_of_type? {v : Value} {own : Ty} (h : v.type? = some own)
    (ty : Ty) : v.conformsTo ty = decide (own = ty) := by
  simp [conformsTo, h]

end Value

end ObjectMachine
