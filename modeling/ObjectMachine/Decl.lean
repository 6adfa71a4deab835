/-
A class as it is handed over for registration, and the compilation unit that groups classes into
one scope. The second half abbreviates the trees that the bundled library and samples are made of.
-/
import ObjectMachine.Code
import ObjectMachine.Ty

namespace ObjectMachine

/-- A declared instance field. -/
structure FieldDecl where
  name : String
  type : Ty
  deriving DecidableEq, Repr

/-- A declared static field, with the expression its initialization evaluates. -/
structure StaticDecl where
  name : String
  type : Ty
  init : Option Expr := none
  deriving DecidableEq, Repr

/-- A declared constructor. -/
structure ConstructorDecl where
  params : List Ty := []
  body : Body
  deriving DecidableEq, Repr

/-- What runs when a method is called: a body, or a host function found by its key. -/
inductive MethodBody where
  | managed (body : Body)
  | native
  deriving DecidableEq, Repr

/-- A declared method. -/
structure MethodDecl where
  name : String
  params : List Ty := []
  returns : Ty := .void
  isStatic : Bool := false
  body : MethodBody
  deriving DecidableEq, Repr

/-- One class with everything it declares itself, in declaration order. -/
structure ClassDecl where
  name : String
  parent : Option String := none
  fields : List FieldDecl := []
  statics : List StaticDecl := []
  staticBlock : Option Body := none
  constructors : List ConstructorDecl := []
  methods : List MethodDecl := []
  deriving DecidableEq, Repr

/-- A batch of classes that share a scope; `entry` names the class whose `main` starts a program. -/
structure CompilationUnit where
  name : String
  entry : Option String := none
  classes : List ClassDecl := []
  deriving DecidableEq, Repr

/-! ## Abbreviations for trees -/

namespace Expr

def ofInt (i : Int32) : Expr := .literal (.int i)

def ofLong (l : Int64) : Expr := .literal (.long l)

def ofText (s : String) : Expr := .literal (.text s)

/-- A field of the receiver. -/
def thisField (owner field : String) : Expr := .getField .this owner field

def add (lhs rhs : Expr) : Expr := .binary .add lhs rhs

def sub (lhs rhs : Expr) : Expr := .binary .sub lhs rhs

def mul (lhs rhs : Expr) : Expr := .binary .mul lhs rhs

end Expr

namespace Stmt

/-- Stores into a field of the receiver. -/
def putThis (owner field : String) (value : Expr) : Stmt := .putField .this owner field value

/-- Prints a line on the standard output stream object. -/
def println (value : Expr) : Stmt :=
  .expr (.invokeVirtual (.getStatic "System" "out") "println" [value])

end Stmt

namespace MethodDecl

/-- A managed static method. -/
def static (name : String) (params : List Ty) (returns : Ty) (body : Body) :
    MethodDecl :=
  { name, params, returns, isStatic := true, body := .managed body }

/-- A managed instance method. -/
def onInstance (name : String) (params : List Ty) (returns : Ty)
    (body : Body) : MethodDecl :=
  { name, params, returns, body := .managed body }

/-- A method the host implements. -/
def native (name : String) (params : List Ty) (returns : Ty)
    (isStatic : Bool) : MethodDecl :=
  { name, params, returns, isStatic, body := .native }

end MethodDecl

end ObjectMachine
