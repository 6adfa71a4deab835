/-
One step of a run. A step looks at what is being done; if that is an answer or an error it also
takes the innermost continuation off the stack. An error unwinds one continuation a step: leaving
a body gives its level of call depth back, and leaving the initialization of a class records the
failure for good and wraps the error. Every body, constructor and host function is entered through
one gate, which refuses when the call depth is used up.
-/
import ObjectMachine.Exec.State

namespace ObjectMachine

/-! ## Small rules -/

/-- The error of an unknown field. -/
def unknownField (c : Class) (field : String) : Failure := .noSuchField c.name field

/-- The object whose field is accessed, with the cell: the target has to be an instance of the
class whose layout names the field. -/
def locateField (classOf : Handle → Option Class) (owner : Class) (target : Value)
    (field access : String) : Except Failure (Handle × Nat) :=
  let onNull := Failure.dispatchOnNull (access ++ " of field " ++ owner.name ++ "." ++ field)
  match target with
  | .object ref =>
    match classOf ref with
    | none => .error onNull
    | some c =>
      if c.descendsFrom owner then
        match owner.fieldIndex? field with
        | some slot => .ok (ref, slot)
        | none => .error (unknownField owner field)
      else .error (.typeMismatch owner.name c.name)
  | .null => .error onNull
  | other => .error (.typeMismatch owner.name other.typeName)

/-- The result of a method whose body gave `returned` back. -/
def methodResult (returns : Ty) (returned : Option Value) : Except Failure Value :=
  match returned with
  | none =>
    if returns = .void then .ok .null
    else .error (.typeMismatch returns.name Ty.void.name)
  | some v =>
    if returns = .void then .error (.typeMismatch Ty.void.name v.typeName)
    else if v.conformsTo returns then .ok v
    else .error (.typeMismatch returns.name v.typeName)

/-- The result of a host function called through an entry. -/
def HostReply.result (e : Method) (r : HostReply) : Except Failure Value :=
  let failed (diagnostic : String) : Except Failure Value :=
    .error (.nativeCallFailed e.qualifiedName diagnostic)
  match r with
  | .void =>
    if e.returns = .void then .ok .null
    else failed ("returned no value, declared " ++ e.returns.name)
  | .value v =>
    if e.returns = .void then failed ("returned " ++ v.typeName ++ " from a void method")
    else if v.conformsTo e.returns then .ok v
    else failed ("returned " ++ v.typeName ++ ", declared " ++ e.returns.name)
  | .fault (.numberFormat err) => .error (.numberFormat err)
  | .fault (.failed diagnostic) => failed diagnostic
  | .brokeOff (some message) => failed ("panicked: " ++ message)
  | .brokeOff none => failed "panicked"

/-- A constant as a value. -/
def Literal.value : Literal → Value
  | .null => .null
  | .bool b => .bool b
  | .int i => .int i
  | .long l => .long l
  | .text s => .text s

namespace State

/-- The class a name stands for in the code of a frame. -/
def lookup (env : Env) (f : Frame) (name : String) : Except Failure Class :=
  env.registry.lookup f.cls.scope name

/-- The receiver of a frame. -/
def receiverOf (f : Frame) : Except Failure Handle :=
  match f.this with
  | some ref => .ok ref
  | none => .error (.typeMismatch "receiver" "static context")

/-! ## Calls -/

/-- Enters a body or a host function, unless the call depth is used up. The stack of the host is set
aside: it is taken to hold as many bodies as the options allow. -/
def activate (env : Env) (s : State) (k : Cont) (c : Control) : State :=
  if env.options.maxCallDepth ≤ s.depth then s.raise (.stackOverflow env.options.maxCallDepth)
  else { s with control := c, stack := k :: s.stack, depth := s.depth + 1 }

/-- What a host function sees. -/
def hostView (env : Env) (s : State) : HostView :=
  { field := s.store.fieldByName? env.registry
    allocated := s.store.heap.allocated
    maxCallDepth := env.options.maxCallDepth }

/-- Enters a method with its receiver and arguments. -/
def enterMethod (env : Env) (s : State) (e : Method) (declaring : Class)
    (receiver : Option Handle) (args : List Value) : State :=
  let args := (receiver.map Value.object).toList ++ args
  match e.impl with
  | .managed body =>
    s.activate env (.returning e.returns) (.exec (.enter declaring receiver args body))
  | .native f => s.activate env .hostCall (.host e args (f (s.hostView env) args))

/-- Invokes a method that a call selected; a static method initializes its class first. -/
def invoke (env : Env) (s : State) (e : Method) (receiver : Option Handle)
    (args : List Value) : State :=
  match env.registry.class? e.declaring with
  | none => s.raise (.classNotFound e.declaringName)
  | some declaring =>
    if e.isStatic then s.await (.thenInvoke e declaring args) (.init declaring)
    else s.goto (.enter e declaring receiver args)

/-- Sweeps the heap if an allocation has to. -/
def makeRoom (env : Env) (s : State) : State :=
  if s.store.heap.isFull then
    { s with store := { s.store with heap := (s.store.heap.sweep (s.roots env)).2 } }
  else s

/-- Adds an instance of a class to the heap. -/
def addObject (s : State) (c : Class) : State :=
  { s with store := { s.store with heap := s.store.heap.add c } }

/-- Allocates an instance of an initialized class and runs the constructor its arguments select. -/
def allocate (env : Env) (s : State) (c : Class) (args : List Value) : State :=
  s.proceed (c.selectConstructor args) fun k =>
    let ref := s.store.heap.next
    let s := (s.makeRoom env).addObject c
    s.activate env (.constructing ref) (.exec (.enter c (some ref) (.object ref :: args) k.body))

/-- Creates an object: the class is initialized, and then an instance is allocated. -/
def construct (s : State) (c : Class) (args : List Value) : State :=
  s.await (.thenCreate c args) (.init c)

def invokeStatic (env : Env) (s : State) (c : Class) (name : String) (args : List Value) : State :=
  s.proceed (c.select .static name args) fun e => s.invoke env e none args

def invokeVirtual (env : Env) (s : State) (receiver : Value) (name : String)
    (args : List Value) : State :=
  s.proceed (selectVirtual (s.store.classOf? env.registry) receiver name args) fun (ref, e) =>
    s.invoke env e (some ref) args

/-- Reads a static field of a class or of its nearest ancestor that declares it. -/
def getStatic (env : Env) (s : State) (c : Class) (name : String) : State :=
  match env.registry.findStatic? c name with
  | none => s.raise (unknownField c name)
  | some (owner, slot) => s.await (.thenRead owner slot name) (.init owner)

/-- Writes a static field of a class or of its nearest ancestor that declares it. -/
def putStatic (env : Env) (s : State) (c : Class) (name : String) (v : Value) : State :=
  match env.registry.findStatic? c name with
  | none => s.raise (unknownField c name)
  | some (owner, slot) => s.await (.thenWrite owner slot name v) (.init owner)

/-- Calls the parent's implementation of a method on the receiver of a frame. -/
def callSuper (env : Env) (s : State) (f : Frame) (name : String) (args : List Value) : State :=
  match f.this with
  | none => s.raise (.dispatchOnNull ("super." ++ callText name args))
  | some ref =>
    match env.registry.parent? f.cls with
    | none => s.raise (.noSuchMethod f.cls.name ("super." ++ callText name args))
    | some parent =>
      s.proceed (parent.select .onInstance name args) fun e => s.invoke env e (some ref) args

/-- Runs a constructor of the parent of a frame's class on the receiver of the frame. -/
def superInit (env : Env) (s : State) (f : Frame) (args : List Value) : State :=
  s.proceed (receiverOf f) fun ref =>
    match env.registry.parent? f.cls with
    | none => s.raise (.noMatchingConstructor f.cls.name (callText "super" args) 0)
    | some parent =>
      s.proceed (parent.selectConstructor args) fun k =>
        s.activate env (.superDone f)
          (.exec (.enter parent (some ref) (.object ref :: args) k.body))

/-- Calls a target whose arguments are complete. -/
def call (env : Env) (s : State) (target : CallTarget) (args : List Value) (f : Frame) : State :=
  match target with
  | .create cls => s.proceed (lookup env f cls) fun c => s.construct c args
  | .static cls method => s.proceed (lookup env f cls) fun c => s.invokeStatic env c method args
  | .virtual receiver method => s.invokeVirtual env receiver method args
  | .superMethod method => s.callSuper env f method args
  | .superInit => s.superInit env f args

/-- Evaluates the remaining arguments of a call from left to right, then calls; the arguments
already there are in `before`, the last one first. -/
def arguments (env : Env) (s : State) (target : CallTarget) (before : List Value)
    (after : List Expr) (f : Frame) : State :=
  match after with
  | [] => s.call env target before.reverse f
  | e :: rest => s.await (.argument target before rest f) (.eval f e)

/-! ## Expressions and statements -/

/-- Begins an expression. -/
def eval (env : Env) (s : State) (f : Frame) (e : Expr) : State :=
  match e with
  | .literal l => s.goto (.answer l.value)
  | .slot i =>
    match f.locals[i.toNat]? with
    | some v => s.goto (.answer v)
    | none => s.raise (.noSuchLocal i.toNat f.locals.size)
  | .this => s.proceed (receiverOf f) fun ref => s.goto (.answer (Value.object ref))
  | .getField object owner field => s.await (.readField owner field f) (.eval f object)
  | .getStatic cls field => s.proceed (lookup env f cls) fun c => s.getStatic env c field
  | .unary op operand => s.await (.unary op) (.eval f operand)
  | .binary op lhs rhs => s.await (.binaryLeft op rhs f) (.eval f lhs)
  | .create cls args => s.arguments env (.create cls) [] args f
  | .invokeStatic cls method args => s.arguments env (.static cls method) [] args f
  | .invokeVirtual receiver method args => s.await (.receiver method args f) (.eval f receiver)
  | .invokeSuper method args => s.arguments env (.superMethod method) [] args f

/-- Begins the next statement of a frame; a frame at its end gives nothing back. -/
def exec (env : Env) (s : State) (f : Frame) : State :=
  match f.code with
  | [] => s.goto (.answer none)
  | stmt :: rest =>
    let f := { f with code := rest }
    match stmt with
    | .expr e => s.await (.discard f) (.eval f e)
    | .store slot value => s.await (.store slot f) (.eval f value)
    | .putField object owner field value =>
      s.await (.putObject owner field value f) (.eval f object)
    | .putStatic cls field value => s.await (.putStatic cls field f) (.eval f value)
    | .branch cond yes no => s.await (.branch yes no f) (.eval f cond)
    | .loop cond body => s.await (.loop cond body f) (.eval f cond)
    | .giveBack none => s.goto (.answer none)
    | .giveBack (some e) => s.await (.giveBack f) (.eval f e)
    | .superInit args => s.arguments env .superInit [] args f

/-- Goes on with the code of a frame. -/
def run (s : State) (f : Frame) : State := s.goto (.exec f)

/-- Reads a field of an object in the layout of a class. -/
def readField (env : Env) (s : State) (owner field : String) (f : Frame) (target : Value) : State :=
  s.proceed (lookup env f owner) fun c =>
    s.proceed (locateField (s.store.classOf? env.registry) c target field "read")
      fun (ref, slot) =>
        match s.store.heap.cell? ref slot with
        | some v => s.goto (.answer v)
        | none => s.raise (unknownField c field)

/-- Writes a field of an object in the layout of a class, and goes on with the frame. -/
def writeField (env : Env) (s : State) (owner field : String) (f : Frame) (target v : Value) :
    State :=
  s.proceed (lookup env f owner) fun c =>
    s.proceed (locateField (s.store.classOf? env.registry) c target field "write")
      fun (ref, slot) =>
        match c.fields[slot]? with
        | none => s.raise (unknownField c field)
        | some decl =>
          if v.conformsTo decl.type then
            match s.store.heap.cell? ref slot with
            | some _ =>
              let s := { s with store := { s.store with heap := s.store.heap.setCell ref slot v } }
              s.run f
            | none => s.raise (unknownField c field)
          else s.raise (.typeMismatch decl.type.name v.typeName)

/-- Takes the answer of a condition: `yes` and `no` are the frames to go on with. -/
def decide (s : State) (answer : Value) (yes no : Frame) : State :=
  match answer with
  | .bool true => s.run yes
  | .bool false => s.run no
  | other => s.raise (.typeMismatch Ty.boolean.name other.typeName)

/-! ## Static initialization -/

/-- Begins the initialization of a class; nothing is to do when it has begun already, and the
recorded failure is raised again when it has failed. -/
def beginInit (env : Env) (s : State) (c : Class) : State :=
  match s.store.statics.state c with
  | .done | .running => s.goto (.answer none)
  | .failed cause => s.raise (.staticInitFailed c.name cause)
  | .pending =>
    let store := { s.store with statics := s.store.statics.setState c .running }
    let s := { s with store }
    match env.registry.parent? c with
    | some parent =>
      { s with control := .init parent, stack := .ownStatics c :: .initializing c :: s.stack }
    | none => s.await (.initializing c) (.statics c 0 c.statics)

/-- Initializes the static field at a slot and those after it, then runs the static block. -/
def initializeFields (s : State) (c : Class) (slot : Nat) (rest : List StaticDecl) : State :=
  match rest with
  | decl :: rest =>
    match decl.init with
    | none => s.goto (.statics c (slot + 1) rest)
    | some e => s.await (.staticValue c slot decl.type rest) (.eval (.initializer c) e)
  | [] =>
    match c.staticBlock? with
    | none => s.goto (.answer none)
    | some block => s.await .staticBlock (.exec (.enter c none [] block))

/-- Sets the initialization state of a class. -/
def setInitState (s : State) (c : Class) (st : InitState) : State :=
  { s with store := { s.store with statics := s.store.statics.setState c st } }

/-- Stores into a static cell. -/
def setStatic (s : State) (c : Class) (slot : Nat) (v : Value) : State :=
  { s with store := { s.store with statics := s.store.statics.setCell c slot v } }

/-! ## Answers, errors and host functions -/

/-- Leaves a body or a host function. -/
def leave (s : State) : State := { s with depth := s.depth - 1 }

/-- Gives an answer to the continuation `k`, which is off the stack already. A continuation that
needs a value takes a missing one for null. -/
def resume (env : Env) (s : State) (k : Cont) (answer : Option Value) : State :=
  let v := answer.getD .null
  match k with
  | .unary op => s.proceed (op.apply v) fun v => s.goto (.answer v)
  | .binaryLeft op rhs f => s.await (.binaryRight op v) (.eval f rhs)
  | .binaryRight op lhs =>
    s.proceed (op.apply (s.store.nameOf env.registry) lhs v) fun v => s.goto (.answer v)
  | .readField owner field f => s.readField env owner field f v
  | .receiver method args f => s.arguments env (.virtual v method) [] args f
  | .argument target before after f => s.arguments env target (v :: before) after f
  | .discard f => s.run f
  | .store slot f => s.run (f.setLocal slot.toNat v)
  | .putObject owner field value f => s.await (.putValue owner field v f) (.eval f value)
  | .putValue owner field object f => s.writeField env owner field f object v
  | .putStatic cls field f =>
    s.proceed (lookup env f cls) fun c =>
      { s with stack := .resume f :: s.stack }.putStatic env c field v
  | .branch yes no f =>
    s.decide v { f with code := yes ++ f.code } { f with code := no ++ f.code }
  | .loop cond body f => s.decide v { f with code := body ++ .loop cond body :: f.code } f
  | .giveBack _ => s.goto (.answer v)
  | .resume f => s.run f
  | .returning returns => s.leave.proceed (methodResult returns answer) fun v =>
    s.leave.goto (.answer v)
  | .constructing ref => s.leave.goto (.answer (Value.object ref))
  | .superDone f => s.leave.run f
  | .hostCall => s.leave.goto (.answer v)
  | .initializing c => (s.setInitState c .done).goto (.answer none)
  | .ownStatics c => s.goto (.statics c 0 c.statics)
  | .staticValue c slot type rest =>
    if v.conformsTo type then (s.setStatic c slot v).goto (.statics c (slot + 1) rest)
    else s.raise (.typeMismatch type.name v.typeName)
  | .staticBlock => s.goto (.answer none)
  | .thenCreate c args => s.goto (.create c args)
  | .thenInvoke e declaring args => s.goto (.enter e declaring none args)
  | .thenRead owner slot name =>
    match s.store.statics.cell? owner slot with
    | some v => s.goto (.answer v)
    | none => s.raise (unknownField owner name)
  | .thenWrite owner slot name v =>
    match owner.statics[slot]? with
    | none => s.raise (unknownField owner name)
    | some decl =>
      if v.conformsTo decl.type then (s.setStatic owner slot v).goto (.answer none)
      else s.raise (.typeMismatch decl.type.name v.typeName)

/-- Passes an error through the continuation `k`, which is off the stack already. -/
def unwind (s : State) (k : Cont) (e : Failure) : State :=
  match k with
  | .initializing c => (s.setInitState c (.failed e)).raise (.staticInitFailed c.name e)
  | k => if k.isActivation then s.leave.raise e else s.raise e

/-- Performs the next service a host function asks for, or takes its reply. -/
def hostStep (env : Env) (s : State) (e : Method) (args : List Value) (p : HostProgram) :
    State :=
  match p with
  | .reply r => s.proceed (r.result e) fun v => s.goto (.answer v)
  | .write stream v next =>
    let (outcome, sink) := s.store.sink.write stream (s.store.text env.registry v)
    { s with store := { s.store with sink }, control := .host e args (next outcome) }
  | .collect next =>
    if env.options.collectOnHint then
      let (swept, heap) := s.store.heap.collect (s.roots env)
      { s with store := { s.store with heap }, control := .host e args (next swept) }
    else s.goto (.host e args (next 0))
  | .clock next =>
    let (now, store) := s.store.tick
    { s with store, control := .host e args (next now) }

/-- One step; a state whose answer or error nothing awaits stays as it is. -/
def step (env : Env) (s : State) : State :=
  match s.control with
  | .eval f e => s.eval env f e
  | .exec f => s.exec env f
  | .answer v =>
    match s.stack with
    | [] => s
    | k :: stack => { s with stack }.resume env k v
  | .raise e =>
    match s.stack with
    | [] => s
    | k :: stack => { s with stack }.unwind k e
  | .init c => s.beginInit env c
  | .statics c slot rest => s.initializeFields c slot rest
  | .create c args => s.allocate env c args
  | .enter e declaring receiver args => s.enterMethod env e declaring receiver args
  | .host e args p => s.hostStep env e args p

/-- What a finished run ends with: an error, or an answer. -/
def outcome? (s : State) : Option (Except Failure (Option Value)) :=
  match s.stack, s.control with
  | [], .answer v => some (.ok v)
  | [], .raise e => some (.error e)
  | _, _ => none

/-- Runs at most `fuel` steps to the end of a run; nothing if that is not enough. -/
def finish (env : Env) : Nat → State → Option (Except Failure (Option Value) × Store)
  | 0, s => s.outcome?.map fun r => (r, s.store)
  | fuel + 1, s =>
    match s.outcome? with
    | some r => some (r, s.store)
    | none => finish env fuel (s.step env)

end State

end ObjectMachine
