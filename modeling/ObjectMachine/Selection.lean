/-
Selecting what a call runs. A call without null arguments has one key and is a look-up; a null
argument is accepted by both reference kinds, and then the one candidate that accepts the call is
taken. No candidate and several candidates are errors, and never resolved by preference.
-/
import ObjectMachine.Registry

namespace ObjectMachine

/-- Static methods and instance methods are called differently and never answer for each other. -/
inductive CallKind where
  | static
  | onInstance
  deriving DecidableEq, Repr

/-- The entry can be called in the given way. -/
def CallKind.wants (k : CallKind) (e : Method) : Bool := e.isStatic = (k = .static)

namespace Class

/-- The method of the class that a call selects. -/
def select (c : Class) (kind : CallKind) (name : String) (args : List Value) :
    Except Failure Method :=
  match Signature.ofArgs? name args with
  | some key =>
    match c.methods.get? key with
    | some e => if kind.wants e then .ok e else .error (.noSuchMethod c.name key.text)
    | none => .error (.noSuchMethod c.name key.text)
  | none =>
    match (c.methods.candidates name args).filter kind.wants with
    | [] => .error (.noSuchMethod c.name (callText name args))
    | [e] => .ok e
    | many =>
      .error (.ambiguousOverload c.name (callText name args) (many.map (·.qualifiedName)))

/-- The one constructor of the class that accepts the arguments. -/
def selectConstructor (c : Class) (args : List Value) : Except Failure Constructor :=
  match c.constructors.filter (·.accepts args) with
  | [k] => .ok k
  | others => .error (.noMatchingConstructor c.name (callText "" args) others.length)

end Class

/-- The receiver of a call with the method its own class selects. -/
def selectVirtual (classOf : Handle → Option Class) (receiver : Value) (name : String)
    (args : List Value) : Except Failure (Handle × Method) :=
  match receiver with
  | .object ref =>
    match classOf ref with
    | some c => (c.select .onInstance name args).map fun e => (ref, e)
    | none => .error (.nullReceiver (callText name args))
  | .null => .error (.nullReceiver (callText name args))
  | other => .error (.typeMismatch Ty.reference.name other.typeName)

end ObjectMachine
