/-
Operators on values. Integers are two's complement words of 32 or 64 bits, never mixed without a
conversion; division truncates toward zero; adding anything to a text joins canonical texts.
-/
import ObjectMachine.Failure
import ObjectMachine.Code

namespace ObjectMachine

/-- Applies an operator with one operand. -/
def UnaryOp.apply (op : UnaryOp) (v : Value) : Except Failure Value :=
  match op, v with
  | .neg, .int i => .ok (.int (-i))
  | .neg, .long l => .ok (.long (-l))
  | .not, .bool b => .ok (.bool (!b))
  | .widen, .int i => .ok (.long i.toInt64)
  | .narrow, .long l => .ok (.int l.toInt32)
  | .neg, v => .error (.typeMismatch "int or long" v.typeName)
  | .not, v => .error (.typeMismatch Ty.boolean.name v.typeName)
  | .widen, v => .error (.typeMismatch Ty.int.name v.typeName)
  | .narrow, v => .error (.typeMismatch Ty.long.name v.typeName)

namespace BinaryOp

/-- The five operators of arithmetic. -/
inductive Arithmetic where
  | add
  | sub
  | mul
  | div
  | rem
  deriving DecidableEq, Repr

/-- The four operators that compare by size. -/
inductive Ordering where
  | lt
  | le
  | gt
  | ge
  deriving DecidableEq, Repr

namespace Arithmetic

/-- Arithmetic on 32-bit words. -/
def onInt (op : Arithmetic) (a b : Int32) : Except Failure Value :=
  match op with
  | .add => .ok (.int (a + b))
  | .sub => .ok (.int (a - b))
  | .mul => .ok (.int (a * b))
  | .div => if b = 0 then .error .divisionByZero else .ok (.int (a / b))
  | .rem => if b = 0 then .error .divisionByZero else .ok (.int (a % b))

/-- Arithmetic on 64-bit words. -/
def onLong (op : Arithmetic) (a b : Int64) : Except Failure Value :=
  match op with
  | .add => .ok (.long (a + b))
  | .sub => .ok (.long (a - b))
  | .mul => .ok (.long (a * b))
  | .div => if b = 0 then .error .divisionByZero else .ok (.long (a / b))
  | .rem => if b = 0 then .error .divisionByZero else .ok (.long (a % b))

/-- Joins the canonical texts of two values. -/
def join (nameOf : Handle → String) (a b : Value) : Value :=
  .text (a.canonical nameOf ++ b.canonical nameOf)

/-- Arithmetic on two values of one width, or joining when a text is added. -/
def apply (nameOf : Handle → String) (op : Arithmetic) (a b : Value) :
    Except Failure Value :=
  match a, b with
  | .int a, .int b => op.onInt a b
  | .long a, .long b => op.onLong a b
  | a, b =>
    if op = .add ∧ (a.type? = some .text ∨ b.type? = some .text) then .ok (join nameOf a b)
    else .error (.typeMismatch a.typeName b.typeName)

end Arithmetic

namespace Ordering

/-- The comparison on whole numbers. -/
def holds (op : Ordering) (a b : Int) : Bool :=
  match op with
  | .lt => a < b
  | .le => a ≤ b
  | .gt => a > b
  | .ge => a ≥ b

/-- Compares two integers of one width. -/
def apply (op : Ordering) (a b : Value) : Except Failure Value :=
  match a, b with
  | .int a, .int b => .ok (.bool (op.holds a.toInt b.toInt))
  | .long a, .long b => .ok (.bool (op.holds a.toInt b.toInt))
  | a, b => .error (.typeMismatch a.typeName b.typeName)

end Ordering

/-- Compares two values of one type, or anything with null; objects are equal when they are the
same object. -/
def equal (a b : Value) : Except Failure Bool :=
  match a.type?, b.type? with
  | some s, some t => if s = t then .ok (a = b) else .error (.typeMismatch s.name t.name)
  | _, _ => .ok (a = b)

/-- Applies an operator with two operands. -/
def apply (nameOf : Handle → String) (op : BinaryOp) (a b : Value) : Except Failure Value :=
  match op with
  | .add => Arithmetic.apply nameOf .add a b
  | .sub => Arithmetic.apply nameOf .sub a b
  | .mul => Arithmetic.apply nameOf .mul a b
  | .div => Arithmetic.apply nameOf .div a b
  | .rem => Arithmetic.apply nameOf .rem a b
  | .eq => (equal a b).map .bool
  | .ne => (equal a b).map fun e => .bool (!e)
  | .lt => Ordering.apply .lt a b
  | .le => Ordering.apply .le a b
  | .gt => Ordering.apply .gt a b
  | .ge => Ordering.apply .ge a b

end BinaryOp

end ObjectMachine
