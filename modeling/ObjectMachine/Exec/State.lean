/-
The states of a run. A state is what is being done now (`Control`), what waits for its answer
(`Cont`, innermost first), the number of bodies that are active, and the store. An answer is an
optional value: an expression answers its value, a body what it gives back, and an action such as
an initialization nothing.
-/
import ObjectMachine.Selection
import ObjectMachine.Operator
import ObjectMachine.Options
import ObjectMachine.Store

namespace ObjectMachine

/-- The activation of a body: whose code it is, the receiver if it has one, the local slots, and
the statements still to run. -/
structure Frame where
  cls : Class
  this : Option Handle
  locals : Array Value
  code : List Stmt

namespace Frame

/-- Enters a body: arguments come first, and null fills up to the slots the body asks for. -/
def enter (cls : Class) (this : Option Handle) (args : List Value) (body : Body) : Frame :=
  { cls, this, code := body.code
    locals := args.toArray ++ Array.replicate (body.maxLocals.toNat - args.length) Value.null }

/-- The frame that a static initializer is evaluated in. -/
def initializer (cls : Class) : Frame := .enter cls none [] {}

/-- Stores into a local slot; the frame grows with nulls if it is too short. -/
def setLocal (f : Frame) (slot : Nat) (v : Value) : Frame :=
  { f with
    locals :=
      if slot < f.locals.size then f.locals.setIfInBounds slot v
      else (f.locals ++ Array.replicate (slot - f.locals.size) Value.null).push v }

/-- The handles a frame holds. -/
def handles (f : Frame) : List Handle :=
  f.this.toList ++ f.locals.toList.flatMap Value.handles

end Frame

/-- What arguments are evaluated for. -/
inductive CallTarget where
  | create (cls : String)
  | static (cls method : String)
  | virtual (receiver : Value) (method : String)
  | superMethod (method : String)
  | superInit
  deriving DecidableEq, Repr

def CallTarget.handles : CallTarget → List Handle
  | .virtual receiver _ => receiver.handles
  | _ => []

/-- What waits for an answer. -/
inductive Cont where
  -- an operand of an expression
  | unary (op : UnaryOp)
  | binaryLeft (op : BinaryOp) (rhs : Expr) (f : Frame)
  | binaryRight (op : BinaryOp) (lhs : Value)
  | readField (owner field : String) (f : Frame)
  | receiver (method : String) (args : List Expr) (f : Frame)
  /-- An argument; the earlier ones are in `before`, the last one first. -/
  | argument (target : CallTarget) (before : List Value) (after : List Expr) (f : Frame)
  -- an expression of a statement; the frame's code is what comes after the statement
  | discard (f : Frame)
  | store (slot : UInt16) (f : Frame)
  | putObject (owner field : String) (value : Expr) (f : Frame)
  | putValue (owner field : String) (object : Value) (f : Frame)
  | putStatic (cls field : String) (f : Frame)
  | branch (yes no : List Stmt) (f : Frame)
  | loop (cond : Expr) (body : List Stmt) (f : Frame)
  | giveBack (f : Frame)
  /-- An action of a statement. -/
  | resume (f : Frame)
  -- a body
  /-- The body of a method with a declared result type. -/
  | returning (returns : Ty)
  /-- The body of a constructor that completes a new object. -/
  | constructing (ref : Handle)
  /-- The body of a parent's constructor, run from the constructor of `f`. -/
  | superDone (f : Frame)
  /-- A host function. -/
  | hostCall
  -- static initialization
  /-- Everything that belongs to the initialization of a class. -/
  | initializing (c : Class)
  /-- The parent's initialization; the class's own static fields follow. -/
  | ownStatics (c : Class)
  /-- The initial value of a static field; the fields after it follow. -/
  | staticValue (c : Class) (slot : Nat) (type : Ty) (rest : List StaticDecl)
  /-- The static block of a class. -/
  | staticBlock
  -- an initialization that an access waits for
  | thenCreate (c : Class) (args : List Value)
  | thenInvoke (e : Method) (declaring : Class) (args : List Value)
  | thenRead (owner : Class) (slot : Nat) (name : String)
  | thenWrite (owner : Class) (slot : Nat) (name : String) (v : Value)

namespace Cont

/-- A body or host function is active below this point: one level of call depth. -/
def isActivation : Cont → Bool
  | .returning _ | .constructing _ | .superDone _ | .hostCall => true
  | _ => false

/-- The handles kept alive while the answer is awaited. -/
def handles : Cont → List Handle
  | .unary _ | .returning _ | .hostCall | .initializing _ | .ownStatics _ | .staticValue .. => []
  | .staticBlock | .thenRead .. => []
  | .binaryLeft _ _ f | .readField _ _ f | .receiver _ _ f | .discard f | .store _ f => f.handles
  | .putObject _ _ _ f | .putStatic _ _ f | .branch _ _ f | .loop _ _ f | .giveBack f => f.handles
  | .resume f | .superDone f => f.handles
  | .binaryRight _ lhs => lhs.handles
  | .argument target before _ f => target.handles ++ before.flatMap Value.handles ++ f.handles
  | .putValue _ _ object f => object.handles ++ f.handles
  | .constructing ref => [ref]
  | .thenCreate _ args | .thenInvoke _ _ args => args.flatMap Value.handles
  | .thenWrite _ _ _ v => v.handles

end Cont

/-- What is being done. -/
inductive Control where
  | eval (f : Frame) (e : Expr)
  /-- Runs the rest of a frame's code. -/
  | exec (f : Frame)
  | answer (v : Option Value)
  | raise (e : Failure)
  /-- Initializes a class, unless that has begun already. -/
  | init (c : Class)
  /-- Initializes the static fields of a class from a slot on, then runs its static block. -/
  | statics (c : Class) (slot : Nat) (rest : List StaticDecl)
  /-- Allocates an instance of an initialized class and runs its constructor. -/
  | create (c : Class) (args : List Value)
  /-- Enters a method of a class that is ready for it. -/
  | enter (e : Method) (declaring : Class) (receiver : Option Handle) (args : List Value)
  /-- Runs a host function, called through an entry with arguments. -/
  | host (e : Method) (args : List Value) (p : HostProgram)

/-- The handles held by what is being done. -/
def Control.handles : Control → List Handle
  | .eval f _ | .exec f => f.handles
  | .answer v => v.toList.flatMap Value.handles
  | .raise _ | .init _ | .statics .. => []
  | .create _ args => args.flatMap Value.handles
  | .enter _ _ receiver args => receiver.toList ++ args.flatMap Value.handles
  | .host _ args _ => args.flatMap Value.handles

/-- What a run works with and does not change. -/
structure Env where
  registry : Registry
  options : Options
  /-- Handles held outside the machine. -/
  pinned : List Handle

/-- A state of a run. -/
structure State where
  control : Control
  stack : List Cont
  /-- The number of bodies and host functions that are active. -/
  depth : Nat
  store : Store

namespace State

/-- Goes on with something else. -/
@[inline] def goto (s : State) (c : Control) : State := { s with control := c }

/-- Goes on with something whose answer is awaited. -/
@[inline] def await (s : State) (k : Cont) (c : Control) : State :=
  { s with control := c, stack := k :: s.stack }

@[inline] def raise (s : State) (e : Failure) : State := s.goto (.raise e)

/-- Goes on with a result, or with its error. -/
@[inline] def proceed {α : Type} (s : State) (r : Except Failure α) (next : α → State) : State :=
  match r with
  | .ok a => next a
  | .error e => s.raise e

/-- Every handle held outside the heap. -/
def roots (env : Env) (s : State) : List Handle :=
  env.pinned ++ s.store.statics.handles ++ s.control.handles ++ s.stack.flatMap Cont.handles

end State

end ObjectMachine
