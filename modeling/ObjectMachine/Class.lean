/-
A registered class: its position and scope, the positions of its ancestors, the layout of its
instances with inherited fields first, its constructors and its closed method table. Nothing in it
changes after registration; static cells and the state of initialization are kept apart from it.
-/
import ObjectMachine.Decl
import ObjectMachine.MethodTable

namespace ObjectMachine

/-- A scope of class names. Scopes are numbered without an end: a host that keeps the number in a word
of 32 bits runs out of them, which is left out here. -/
abbrev UnitId := Nat

/-- The scope of the bundled classes, visible from every other. -/
def systemUnit : UnitId := 0

/-- One cell of an instance layout. -/
structure FieldCell where
  name : String
  type : Ty
  /-- The class that declares the field. -/
  declaredIn : String
  deriving DecidableEq, Repr

/-- A constructor of a registered class. -/
structure Constructor where
  params : List Ty
  body : Body
  deriving DecidableEq, Repr

/-- The arguments select this constructor. -/
def Constructor.accepts (c : Constructor) (args : List Value) : Bool := acceptsAll c.params args

/-- A registered class. -/
structure Class where
  id : ClassId
  scope : UnitId
  source : ClassDecl
  /-- The proper ancestors, nearest first. -/
  ancestors : List ClassId
  /-- The layout of an instance: inherited cells, then declared ones. -/
  fields : List FieldCell
  constructors : List Constructor
  methods : MethodTable

namespace Class

def name (c : Class) : String := c.source.name

def statics (c : Class) : List StaticDecl := c.source.statics

def staticBlock? (c : Class) : Option Body := c.source.staticBlock

/-- The position of the direct parent. -/
def parent? (c : Class) : Option ClassId := c.ancestors.head?

/-- The class itself, then its ancestors, nearest first. -/
def lineage (c : Class) : List ClassId := c.id :: c.ancestors

/-- The class is `other` or descends from it. -/
def descendsFrom (c other : Class) : Bool := c.lineage.contains other.id

/-- The last cell of a name: a declared field hides an inherited one. -/
def fieldIndex? (c : Class) (name : String) : Option Nat :=
  (c.fields.reverse.findIdx? (·.name = name)).map fun i => c.fields.length - 1 - i

/-- The first static of a name that the class itself declares. -/
def staticIndex? (c : Class) (name : String) : Option Nat :=
  c.statics.findIdx? (·.name = name)

end Class

end ObjectMachine
