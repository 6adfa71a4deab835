/-
Host functions. A native method is bound by class, name and parameter types to a function of the
host. What such a function may do is its type: it looks at a view of the machine, and answers with
a program that writes lines, asks for a collection, reads the clock and finally replies. It can
neither store into objects nor run managed code.
-/
import ObjectMachine.Numeral
import ObjectMachine.Sink
import ObjectMachine.Signature
import ObjectMachine.Text.Quoted

namespace ObjectMachine

/-- A fault a host function reports. -/
inductive HostFault where
  | numberFormat (e : NumeralError)
  | failed (diagnostic : String)
  deriving DecidableEq, Repr

/-- How a host function ends. -/
inductive HostReply where
  | value (v : Value)
  /-- Completed without a value. -/
  | void
  | fault (f : HostFault)
  /-- The function broke off, with a message if it left one. -/
  | brokeOff (message : Option String)
  deriving DecidableEq, Repr

/-- What a host function does: services it asks for one after the other, then its reply. -/
inductive HostProgram where
  | reply (r : HostReply)
  /-- Writes the canonical text of a value as one line; the stream's refusal comes back. -/
  | write (stream : Stream) (v : Value) (next : Except String Unit → HostProgram)
  /-- Asks for a collection; the number of entries swept comes back. -/
  | collect (next : Nat → HostProgram)
  /-- Reads the clock, in milliseconds. -/
  | clock (next : Int64 → HostProgram)

/-- What a host function can see when it is called. -/
structure HostView where
  /-- The last field of a name in the layout of the object's own class. -/
  field : Handle → String → Option Value
  allocated : Nat
  maxCallDepth : Nat

/-- A function of the host; an instance method's receiver is the first argument. -/
abbrev HostFunction := HostView → List Value → HostProgram

/-! ## Arguments -/

/-- A way of reading an argument: the word diagnostics use, and the conversion. -/
structure ArgType (α : Type) where
  expected : String
  read : Value → Option α

namespace ArgType

def int : ArgType Int32 := ⟨"int", Value.asInt?⟩

def long : ArgType Int64 := ⟨"long", Value.asLong?⟩

def boolean : ArgType Bool := ⟨"boolean", Value.asBool?⟩

def text : ArgType String := ⟨"text", Value.asText?⟩

def reference : ArgType Handle := ⟨"reference", Value.asObject?⟩

def any : ArgType Value := ⟨"any", some⟩

/-- Null reads as an absent value. -/
def optional {α : Type} (t : ArgType α) : ArgType (Option α) :=
  ⟨t.expected, fun v => if v.isNull then some none else (t.read v).map some⟩

/-- Reads the argument at a position. -/
def arg {α : Type} (t : ArgType α) (args : List Value) (index : Nat) : Except HostFault α :=
  match args[index]? with
  | none => .error (.failed ("missing argument " ++ toString index))
  | some v =>
    match t.read v with
    | some a => .ok a
    | none =>
      .error (.failed ("argument " ++ toString index ++ ": expected " ++ t.expected ++ ", got "
        ++ v.typeName))

end ArgType

/-- Runs the rest of a host function on an argument, or replies with the fault of reading it. -/
def HostProgram.withArg {α : Type} (a : Except HostFault α) (next : α → HostProgram) :
    HostProgram :=
  match a with
  | .ok x => next x
  | .error f => .reply (.fault f)

/-! ## Bindings -/

/-- The key of a binding; the receiver is not among the parameters. -/
structure BindingKey where
  cls : String
  method : String
  params : List Ty
  deriving DecidableEq, Repr

def BindingKey.text (k : BindingKey) : String :=
  k.cls ++ "." ++ k.method ++ "(" ++ String.intercalate ", " (k.params.map Ty.name)
    ++ ")"

/-- Host functions by key. -/
structure Bindings where
  bindings : List (BindingKey × HostFunction) := []

namespace Bindings

/-- Replaces the value under a key, or adds the key at the end. -/
def put : List (BindingKey × HostFunction) → BindingKey → HostFunction →
    List (BindingKey × HostFunction)
  | [], key, f => [(key, f)]
  | b :: bs, key, f => if b.1 = key then (key, f) :: bs else b :: put bs key f

/-- Binds a host function; a later binding of a key wins. -/
def bind (t : Bindings) (key : BindingKey) (f : HostFunction) : Bindings :=
  ⟨put t.bindings key f⟩

def get? (t : Bindings) (key : BindingKey) : Option HostFunction :=
  (t.bindings.find? (·.1 = key)).map (·.2)

def size (t : Bindings) : Nat := t.bindings.length

/-- The bound keys as text, in alphabetical order. -/
def keys (t : Bindings) : List String :=
  (t.bindings.map (·.1.text)).mergeSort fun a b => decide (a ≤ b)

/-- The table as diagnostics show it. -/
def describe (t : Bindings) : String :=
  "NativeRegistry \x7b bindings: " ++ Text.quotedList t.keys ++ " \x7d"

end Bindings

end ObjectMachine
