/-
Everything a load or a run can fail with. Each cause is one constructor carrying what its message
names; the wording stands in `Failure.message` alone.
-/
import ObjectMachine.Numeral
import ObjectMachine.Text.Quoted

namespace ObjectMachine

/-- The cause of a failed load or a failed run. -/
inductive Failure where
  /-- No class of that name is visible from the requesting unit. -/
  | classNotFound (name : String)
  /-- A unit already holds a different class of that name. -/
  | classRedefinition (name unit : String)
  /-- The parents of a class lead back to it. -/
  | inheritanceCycle (name : String)
  /-- The static initialization of a class failed, now or earlier. -/
  | staticInitFailed (cls : String) (cause : Failure)
  /-- Not exactly one constructor accepts the arguments. -/
  | noMatchingConstructor (cls signature : String) (candidates : Nat)
  /-- Several declarations accept the call, or one class declares a signature twice. -/
  | ambiguousOverload (cls signature : String) (candidates : List String)
  /-- An instance method was called on null. -/
  | nullReceiver (signature : String)
  /-- A field of null was accessed, or a super call had no receiver. -/
  | dispatchOnNull (operation : String)
  | noSuchMethod (cls signature : String)
  | noSuchField (cls field : String)
  | noSuchLocal (slot frameSize : Nat)
  /-- A native method has no host function bound to it. -/
  | unboundNative (cls signature : String)
  | numberFormat (e : NumeralError)
  /-- A host function failed or broke its declared contract. -/
  | nativeCallFailed (binding diagnostic : String)
  | typeMismatch (expected found : String)
  | divisionByZero
  | stackOverflow (limit : Nat)
  deriving DecidableEq, Repr

namespace Failure

/-- The name of the kind of error. -/
def kind : Failure → String
  | classNotFound _ => "ClassNotFound"
  | classRedefinition _ _ => "ClassRedefinition"
  | inheritanceCycle _ => "InheritanceCycle"
  | staticInitFailed _ _ => "StaticInitFailed"
  | noMatchingConstructor _ _ _ => "NoMatchingConstructor"
  | ambiguousOverload _ _ _ => "AmbiguousOverload"
  | nullReceiver _ => "NullReceiver"
  | dispatchOnNull _ => "DispatchOnNull"
  | noSuchMethod _ _ => "NoSuchMethod"
  | noSuchField _ _ => "NoSuchField"
  | noSuchLocal _ _ => "NoSuchLocal"
  | unboundNative _ _ => "UnboundNative"
  | numberFormat _ => "NumberFormat"
  | nativeCallFailed _ _ => "NativeCallFailed"
  | typeMismatch _ _ => "TypeMismatch"
  | divisionByZero => "DivisionByZero"
  | stackOverflow _ => "StackOverflow"

/-- The one-line text of an error; a failed initialization includes the text of its cause. -/
def message : Failure → String
  | classNotFound name => "Class not found: " ++ name
  | classRedefinition name unit =>
    "Class redefinition: " ++ name ++ " is already registered in unit '" ++ unit
      ++ "' with a different body"
  | inheritanceCycle name => "Inheritance cycle through class " ++ name
  | staticInitFailed cls cause =>
    "Static initialization of " ++ cls ++ " failed: " ++ cause.message
  | noMatchingConstructor cls signature candidates =>
    "No matching constructor " ++ cls ++ ".<init>" ++ signature ++ " (" ++ toString candidates
      ++ " candidates)"
  | ambiguousOverload cls signature candidates =>
    "Ambiguous overload " ++ cls ++ "." ++ signature ++ ": candidates "
      ++ Text.quotedList candidates
  | nullReceiver signature => "Null receiver for call to " ++ signature
  | dispatchOnNull operation => "Dispatch on null: " ++ operation
  | noSuchMethod cls signature => "No such method: " ++ cls ++ "." ++ signature
  | noSuchField cls field => "No such field: " ++ cls ++ "." ++ field
  | noSuchLocal slot frameSize =>
    "No such local: slot " ++ toString slot ++ " (frame has " ++ toString frameSize ++ " locals)"
  | unboundNative cls signature => "Unbound native method " ++ cls ++ "." ++ signature
  | numberFormat e => e.message
  | nativeCallFailed binding diagnostic =>
    "Native call " ++ binding ++ " failed: " ++ diagnostic
  | typeMismatch expected found =>
    "Type mismatch: expected " ++ expected ++ ", found " ++ found
  | divisionByZero => "Division by zero"
  | stackOverflow limit => "Stack overflow (call depth limit " ++ toString limit ++ ")"

/-- The errors an error was raised because of, outermost first. -/
def causes : Failure → List Failure
  | staticInitFailed _ cause => cause :: cause.causes
  | _ => []

/-- The error at the end of a chain of failed initializations. -/
def root : Failure → Failure
  | staticInitFailed _ cause => cause.root
  | e => e

end Failure

end ObjectMachine
