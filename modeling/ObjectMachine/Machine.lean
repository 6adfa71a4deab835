/-
The machine: loaded units, bound host functions and a store, with the operations a host performs on
them. Loading a unit changes the program and never the store; an operation runs code and changes
the store and never the program. An operation that fails keeps what it has done so far.
-/
import ObjectMachine.Exec.Step
import ObjectMachine.Library

namespace ObjectMachine

/-- A machine. -/
structure Machine where
  options : Options
  registry : Registry
  natives : Bindings
  store : Store
  /-- The handles that the host holds. -/
  pinned : List Handle

/-- Something a host asks a machine to do with its loaded classes. Classes are named as seen from a
unit. -/
inductive Operation where
  | construct (u : UnitId) (cls : String) (args : List Value)
  | invokeStatic (u : UnitId) (cls method : String) (args : List Value)
  | invokeVirtual (receiver : Value) (method : String) (args : List Value)
  | getStatic (u : UnitId) (cls field : String)
  | putStatic (u : UnitId) (cls field : String) (v : Value)
  /-- Initializes a class without another access to it. -/
  | prepare (u : UnitId) (cls : String)
  /-- Evaluates an expression in the static context of a class. -/
  | eval (u : UnitId) (cls : String) (e : Expr)
  /-- Runs a body in the static context of a class, with values for its first local slots. -/
  | run (u : UnitId) (cls : String) (body : Body) (locals : List Value)

/-- The method that starts a program. -/
def entryMethod : String := "main"

/-- The start of a program: the static method `main` of a class, without arguments. -/
def Operation.main (u : UnitId) (cls : String) : Operation := .invokeStatic u cls entryMethod []

/-- The state an operation starts a run in. -/
def Operation.start (op : Operation) (env : Env) (store : Store) : State :=
  let s : State := { control := .answer none, stack := [], depth := 0, store }
  let within (u : UnitId) (cls : String) (next : Class → State) : State :=
    s.proceed (env.registry.lookup u cls) next
  match op with
  | .construct u cls args => within u cls fun c => s.construct c args
  | .invokeStatic u cls method args => within u cls fun c => s.invokeStatic env c method args
  | .invokeVirtual receiver method args => s.invokeVirtual env receiver method args
  | .getStatic u cls field => within u cls fun c => s.getStatic env c field
  | .putStatic u cls field v => within u cls fun c => s.putStatic env c field v
  | .prepare u cls => within u cls fun c => s.goto (.init c)
  | .eval u cls e => within u cls fun c => s.goto (.eval (.initializer c) e)
  | .run u cls body locals => within u cls fun c => s.goto (.exec (.enter c none locals body))

namespace Machine

/-- A machine that has the bundled classes loaded, with the sink and the clock of its host. -/
def boot (options : Options) (sink : Sink) (clock : Clock := .steady) : Machine :=
  { options, registry := Library.registry, natives := Library.natives, store := { sink, clock }
    pinned := [] }

/-- What runs on the machine work with. -/
def env (m : Machine) : Env := ⟨m.registry, m.options, m.pinned⟩

/-- Binds a host function for the units loaded from now on. -/
def bind (m : Machine) (key : BindingKey) (f : HostFunction) : Machine :=
  { m with natives := m.natives.bind key f }

/-- Registers the classes of a unit in a scope of their own. A unit that fails to load leaves no
class behind; only the number of its scope is used up. -/
def load (m : Machine) (unit : CompilationUnit) : Except Failure UnitId × Machine :=
  let (id, registry) := m.registry.openUnit unit.name
  let (outcome, registry) := registry.registerUnit id unit.classes m.natives
  (outcome.map fun _ => id, { m with registry })

/-- Performs an operation in at most `fuel` steps; nothing if they are not enough. -/
def perform (fuel : Nat) (m : Machine) (op : Operation) :
    Option (Except Failure (Option Value) × Machine) :=
  let env := m.env
  match m with
  | { options, registry, natives, store, pinned } =>
    (State.finish env fuel (op.start env store)).map fun (r, store) =>
      (r, { options, registry, natives, store, pinned })

/-- The error of running a unit that names no entry class. -/
def noEntry (unit : CompilationUnit) : Failure :=
  .classNotFound ("<entry of unit " ++ unit.name ++ ">")

/-- Loads a unit and runs the `main` of its entry class. -/
def runUnit (fuel : Nat) (m : Machine) (unit : CompilationUnit) :
    Option (Except Failure UnitId × Machine) :=
  match unit.entry with
  | none => some (.error (noEntry unit), m)
  | some entry =>
    match m.load unit with
    | (.error e, m) => some (.error e, m)
    | (.ok id, m) =>
      (m.perform fuel (.main id entry)).map fun (r, m) => (r.map fun _ => id, m)

/-- The handles held by the host and by static cells. -/
def roots (m : Machine) : List Handle := m.pinned ++ m.store.statics.handles

/-- Sweeps the tracking table on request of the host; answers the number of entries removed. -/
def collect (m : Machine) : Nat × Machine :=
  let (swept, heap) := m.store.heap.collect m.roots
  (swept, { m with store := { m.store with heap } })

/-- Allocates an instance of a class; no code runs. -/
def allocate (m : Machine) (c : Class) : Handle × Machine :=
  let (ref, heap) := m.store.heap.allocate c m.roots
  (ref, { m with store := { m.store with heap } })

end Machine

end ObjectMachine
