/-
The registry: every registered class by position, the positions by scope and name, and the names of
the scopes. A name is looked up in a scope and then among the bundled classes. Registering builds
the layout, the constructors and the method table of a class from its source and its parent;
registering the same source again returns the class that is already there.
-/
import ObjectMachine.Class
import ObjectMachine.Failure

namespace ObjectMachine

/-- Every registered class, and the name of every scope. -/
structure Registry where
  classes : Array Class
  /-- The position of each class under its scope and name, the last one registered first. -/
  names : List ((UnitId × String) × ClassId)
  units : Array String

namespace Registry

/-- No classes, and the scope of the bundled library alone. -/
def empty : Registry := ⟨#[], [], #["system"]⟩

/-- Opens a new scope without classes. -/
def openUnit (r : Registry) (name : String) : UnitId × Registry :=
  (r.units.size, { r with units := r.units.push name })

def unitName? (r : Registry) (u : UnitId) : Option String := r.units[u]?

/-- A scope as messages name it: by name, or by number if it was never opened. -/
def unitText (r : Registry) (u : UnitId) : String :=
  (r.unitName? u).getD ("#" ++ toString u)

/-- The class at a position. -/
def class? (r : Registry) (id : ClassId) : Option Class := r.classes[id]?

/-- The class of a name in one scope. -/
def find? (r : Registry) (u : UnitId) (name : String) : Option Class :=
  (r.names.find? (·.1 = (u, name))).bind fun entry => r.class? entry.2

/-- The class a name stands for in a scope: its own, or else a bundled one. -/
def get? (r : Registry) (u : UnitId) (name : String) : Option Class :=
  (r.find? u name).or (r.find? systemUnit name)

/-- The class a name stands for in a scope. -/
def lookup (r : Registry) (u : UnitId) (name : String) : Except Failure Class :=
  match r.get? u name with
  | some c => .ok c
  | none => .error (.classNotFound name)

def size (r : Registry) : Nat := r.classes.size

/-- The direct parent of a class. -/
def parent? (r : Registry) (c : Class) : Option Class := c.parent?.bind r.class?

/-- The nearest class of the lineage that declares a static, with its slot there. -/
def findStatic? (r : Registry) (c : Class) (name : String) : Option (Class × Nat) :=
  c.lineage.findSome? fun id =>
    (r.class? id).bind fun owner => (owner.staticIndex? name).map fun slot => (owner, slot)

/-! ## Registering one class -/

/-- The error of declaring one signature twice. -/
def declaredTwice (cls : String) (s : Signature) : Failure :=
  .ambiguousOverload cls s.text (List.replicate 2 (cls ++ "." ++ s.text))

/-- What a method declaration runs: its body, or the host function bound to its key. -/
def implementation (cls : String) (natives : Bindings) (d : MethodDecl) :
    Except Failure Implementation :=
  match d.body with
  | .managed body => .ok (.managed body)
  | .native =>
    match natives.get? ⟨cls, d.name, d.params⟩ with
    | some f => .ok (.native f)
    | none => .error (.unboundNative cls (Signature.mk d.name d.params).text)

/-- Enters the declared methods into a table one by one; `seen` are the signatures declared so
far. -/
def declareMethods (id : ClassId) (cls : String) (natives : Bindings) :
    List MethodDecl → List Signature → MethodTable → Except Failure MethodTable
  | [], _, table => .ok table
  | d :: ds, seen, table =>
    let s : Signature := ⟨d.name, d.params⟩
    if s ∈ seen then .error (declaredTwice cls s)
    else
      match implementation cls natives d with
      | .error e => .error e
      | .ok impl =>
        declareMethods id cls natives ds (s :: seen)
          (table.insert
            { signature := s, returns := d.returns, isStatic := d.isStatic, declaringName := cls,
              declaring := id, impl })

/-- The declared constructors one by one; `seen` are the parameter lists declared so far. -/
def declareConstructors (cls : String) :
    List ConstructorDecl → List (List Ty) → Except Failure (List Constructor)
  | [], _ => .ok []
  | d :: ds, seen =>
    if d.params ∈ seen then .error (declaredTwice cls ⟨"<init>", d.params⟩)
    else
      match declareConstructors cls ds (d.params :: seen) with
      | .error e => .error e
      | .ok rest => .ok (⟨d.params, d.body⟩ :: rest)

/-- The constructors of a class; one without arguments or effect if none is declared. -/
def buildConstructors (source : ClassDecl) : Except Failure (List Constructor) :=
  if source.constructors.isEmpty then .ok [⟨[], {}⟩]
  else declareConstructors source.name source.constructors []

/-- The parent that a source names, as seen from a scope. -/
def resolveParent (r : Registry) (u : UnitId) (source : ClassDecl) :
    Except Failure (Option Class) :=
  match source.parent with
  | none => .ok none
  | some name =>
    if name = source.name then .error (.inheritanceCycle source.name)
    else (r.lookup u name).map some

/-- The class that a source describes at a position, below an optional parent. -/
def build (id : ClassId) (u : UnitId) (source : ClassDecl) (parent : Option Class)
    (natives : Bindings) : Except Failure Class :=
  let inherited := (parent.map (·.methods)).getD {}
  match declareMethods id source.name natives source.methods [] inherited with
  | .error e => .error e
  | .ok methods =>
    match buildConstructors source with
    | .error e => .error e
    | .ok constructors =>
      .ok
        { id, scope := u, source
          ancestors := (parent.map (·.lineage)).getD []
          fields := (parent.map (·.fields)).getD []
            ++ source.fields.map fun f => ⟨f.name, f.type, source.name⟩
          constructors, methods }

/-- Enters a class at the next position. -/
def push (r : Registry) (c : Class) : Registry :=
  { r with classes := r.classes.push c, names := ((c.scope, c.name), r.size) :: r.names }

/-- Takes the classes from a position on away again. -/
def truncate (r : Registry) (size : Nat) : Registry :=
  { r with classes := r.classes.take size, names := r.names.filter (·.2 < size) }

/-- Registers one class whose parent is already visible from its scope. -/
def register (r : Registry) (u : UnitId) (source : ClassDecl) (natives : Bindings) :
    Except Failure (Class × Registry) :=
  match r.find? u source.name with
  | some c =>
    if c.source = source then .ok (c, r)
    else .error (.classRedefinition source.name (r.unitText u))
  | none =>
    match r.resolveParent u source with
    | .error e => .error e
    | .ok parent =>
      match build r.size u source parent natives with
      | .error e => .error e
      | .ok c => .ok (c, r.push c)

end Registry

end ObjectMachine
