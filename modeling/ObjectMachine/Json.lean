/-
JSON values as they are written: members keep their order and repetitions, a number is either a
whole number or a literal that is none, and a string is either a text or a row of escapes that
spell no text, because a surrogate stands alone.
-/

namespace ObjectMachine

/-- A JSON value. -/
inductive Json where
  | null
  | bool (b : Bool)
  /-- A whole number, written without fraction, exponent or negative zero. -/
  | int (n : Int)
  /-- Any other number, by its literal. -/
  | float (literal : List Char)
  /-- A string; nothing when it spells no text. -/
  | str (text : Option String)
  | arr (items : List Json)
  | obj (members : List (Option String × Json))
  deriving Repr, Inhabited

namespace Json

/-- A string that is a text. -/
def string (s : String) : Json := .str (some s)

/-- An object whose keys are texts. -/
def object (members : List (String × Json)) : Json := .obj (members.map fun m => (some m.1, m.2))

/-- The value of the first member of a name. -/
def member? (j : Json) (name : String) : Option Json :=
  match j with
  | .obj members => (members.find? (·.1 = some name)).map (·.2)
  | _ => none

end Json

end ObjectMachine
