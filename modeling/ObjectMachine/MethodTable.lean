/-
Method tables: the methods of a class under their signatures, in slot order. A class starts from
its parent's table; a declaration whose signature is already present takes over its slot, any
other gets a slot of its own at the end. A call is a look-up in the table of the runtime class,
never a walk up the hierarchy.
-/
import ObjectMachine.Code
import ObjectMachine.Host

namespace ObjectMachine

/-- The position of a class in its registry. -/
abbrev ClassId := Nat

/-- What runs when a method is called. -/
inductive Implementation where
  | managed (body : Body)
  | native (f : HostFunction)

namespace Implementation

def isNative : Implementation → Bool
  | .managed _ => false
  | .native _ => true

/-- A managed body by the number of its statements, a host function by a word. -/
def describe : Implementation → String
  | .managed body => "Managed(" ++ toString body.code.length ++ " stmts)"
  | .native _ => "Native"

end Implementation

/-- A method as a table holds it. -/
structure Method where
  signature : Signature
  returns : Ty
  isStatic : Bool
  /-- The class that declares the method, by name and by position. -/
  declaringName : String
  declaring : ClassId
  impl : Implementation

/-- The method as `Class.name(types)`. -/
def Method.qualifiedName (e : Method) : String :=
  e.declaringName ++ "." ++ e.signature.text

/-- The methods of a class in slot order. -/
structure MethodTable where
  entries : List Method := []

namespace MethodTable

/-- The entry under a signature. -/
def get? (t : MethodTable) (s : Signature) : Option Method :=
  t.entries.find? (·.signature = s)

def contains (t : MethodTable) (s : Signature) : Bool := (t.get? s).isSome

def size (t : MethodTable) : Nat := t.entries.length

/-- Takes over the slot of the entry's signature, or appends a slot. -/
def place : List Method → Method → List Method
  | [], e => [e]
  | x :: xs, e => if x.signature = e.signature then e :: xs else x :: place xs e

/-- Enters a method under its signature. -/
def insert (t : MethodTable) (e : Method) : MethodTable := ⟨place t.entries e⟩

/-- The entries a call `name(args)` may select, in slot order. -/
def candidates (t : MethodTable) (name : String) (args : List Value) : List Method :=
  t.entries.filter (·.signature.accepts name args)

end MethodTable

end ObjectMachine
