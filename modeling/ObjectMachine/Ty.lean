/-
The six value categories a slot, a parameter or a result is declared with, the value category a
null may stand in for, and the names they are written with.
-/

namespace ObjectMachine

/-- The category a slot, a parameter or a result is declared with. -/
inductive Ty where
  | boolean
  | int
  | long
  | text
  | reference
  | void
  deriving DecidableEq, Repr, Inhabited

namespace Ty

/-- Texts and object references may be absent; every other category always holds a value. -/
def isReferenceKind : Ty → Bool
  | .text | .reference => true
  | _ => false

/-- The word a type is written with in signatures, messages and unit files. -/
def name : Ty → String
  | .boolean => "boolean"
  | .int => "int"
  | .long => "long"
  | .text => "text"
  | .reference => "reference"
  | .void => "void"

/-- Every type, in the order the documentation lists them. -/
def all : List Ty := [.boolean, .int, .long, .text, .reference, .void]

/-- The type written with a given word. -/
def ofName? (word : String) : Option Ty := all.find? (·.name = word)

theorem mem_all (t : Ty) : t ∈ all := by cases t <;> decide

theorem name_injective {a b : Ty} (h : a.name = b.name) : a = b := by
  cases a <;> cases b <;> first | rfl | (revert h; decide)

theorem ofName?_name (t : Ty) : ofName? t.name = some t := by cases t <;> decide

end Ty

end ObjectMachine
