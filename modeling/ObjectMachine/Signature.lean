/-
Call signatures: a name with its parameter types, the key under which methods are declared and
found. A call whose arguments are all present has exactly one key; a null argument leaves the key
open, and such a call is matched parameter by parameter.
-/
import ObjectMachine.Value

namespace ObjectMachine

/-- Arguments are accepted position by position. -/
def acceptsAll (params : List Ty) (args : List Value) : Bool :=
  params.length = args.length && (params.zip args).all fun (ty, arg) => arg.conformsTo ty

/-- A method name with its parameter types. -/
structure Signature where
  name : String
  params : List Ty
  deriving DecidableEq, Repr

namespace Signature

/-- The key of a call, when no argument is null. -/
def ofArgs? (name : String) (args : List Value) : Option Signature :=
  (args.mapM Value.type?).map fun params => ⟨name, params⟩

/-- A call `name(args)` may select this signature. -/
def accepts (s : Signature) (name : String) (args : List Value) : Bool :=
  s.name = name && acceptsAll s.params args

/-- A signature as it is written: `name(type, type)`. -/
def text (s : Signature) : String :=
  s.name ++ "(" ++ String.intercalate ", " (s.params.map Ty.name) ++ ")"

end Signature

/-- A call site as messages write it, with `null` for an argument that has no type of its own. -/
def callText (name : String) (args : List Value) : String :=
  name ++ "(" ++ String.intercalate ", " (args.map Value.typeName) ++ ")"

end ObjectMachine
