/-
Reading a compilation unit from JSON. The reader of each kind of tree is told how many more arrays
and objects may be opened; an expression opens at least one for each expression inside it, which
is why reading ends.
-/
import ObjectMachine.Json.Parser
import ObjectMachine.Json.Reader
import ObjectMachine.UnitFormat.Encode

namespace ObjectMachine

open Json.Reader

/-! ## Names and literals -/

def readType (nesting : Nat) (j : Json) : Option Ty :=
  (alternative nesting j).bind fun a => (Ty.ofName? a.name).bind a.plain

def UnaryOp.all : List UnaryOp := [.neg, .not, .widen, .narrow]

def BinaryOp.all : List BinaryOp := [.add, .sub, .mul, .div, .rem, .eq, .ne, .lt, .le, .gt, .ge]

def readUnaryOp (nesting : Nat) (j : Json) : Option UnaryOp :=
  (alternative nesting j).bind fun a => (UnaryOp.all.find? (·.name = a.name)).bind a.plain

def readBinaryOp (nesting : Nat) (j : Json) : Option BinaryOp :=
  (alternative nesting j).bind fun a => (BinaryOp.all.find? (·.name = a.name)).bind a.plain

/-- Reads the number of a local slot. -/
def readSlot (j : Json) : Option UInt16 := (integer 0 65535 j).map fun n => .ofNat n.toNat

def readInt (j : Json) : Option Int32 :=
  (integer Int32.minValue.toInt Int32.maxValue.toInt j).map .ofInt

def readLongLiteral (j : Json) : Option Int64 :=
  (integer Int64.minValue.toInt Int64.maxValue.toInt j).map .ofInt

def readLiteral (nesting : Nat) (j : Json) : Option Literal :=
  (alternative nesting j).bind fun a =>
    match a.name with
    | "Null" => a.plain .null
    | "Bool" => a.single fun _ j => (boolean j).map .bool
    | "Int" => a.single fun _ j => (readInt j).map .int
    | "Long" => a.single fun _ j => (readLongLiteral j).map .long
    | "Text" => a.single fun _ j => (text j).map .text
    | _ => none

/-! ## Expressions and statements -/

/-- Reads an expression, given the readers `one` of the expressions in its record and `many` of
the lists of expressions there. -/
def readExprWith (one : Json → Option Expr) (many : Json → Option (List Expr)) (nesting : Nat)
    (j : Json) : Option Expr :=
  (alternative nesting j).bind fun a =>
    match a.name with
    | "Literal" => a.single fun n j => (readLiteral n j).map .literal
    | "Local" => a.single fun _ j => (readSlot j).map .slot
    | "This" => a.plain .this
    | "GetField" => a.record ["object", "owner", "field"] fun _ fs => do
      return .getField (← fs.required "object" one) (← fs.required "owner" text)
        (← fs.required "field" text)
    | "GetStatic" => a.record ["class", "field"] fun _ fs => do
      return .getStatic (← fs.required "class" text) (← fs.required "field" text)
    | "Unary" => a.record ["op", "operand"] fun n fs => do
      return .unary (← fs.required "op" (readUnaryOp n)) (← fs.required "operand" one)
    | "Binary" => a.record ["op", "lhs", "rhs"] fun n fs => do
      return .binary (← fs.required "op" (readBinaryOp n)) (← fs.required "lhs" one)
        (← fs.required "rhs" one)
    | "New" => a.record ["class", "args"] fun _ fs => do
      return .create (← fs.required "class" text) (← fs.required "args" many)
    | "InvokeStatic" => a.record ["class", "method", "args"] fun _ fs => do
      return .invokeStatic (← fs.required "class" text) (← fs.required "method" text)
        (← fs.required "args" many)
    | "InvokeVirtual" => a.record ["receiver", "method", "args"] fun _ fs => do
      return .invokeVirtual (← fs.required "receiver" one) (← fs.required "method" text)
        (← fs.required "args" many)
    | "InvokeSuper" => a.record ["method", "args"] fun _ fs => do
      return .invokeSuper (← fs.required "method" text) (← fs.required "args" many)
    | _ => none

/-- Reads the items of an array. -/
def readItems {α : Type} (read : Json → Option α) : Json → Option (List α)
  | .arr items => items.mapM read
  | _ => none

/-- Reads an expression: an object and a record are around the expressions in it, and an array
around those of a list. -/
def readExpr : Nat → Json → Option Expr
  | 0 => readExprWith (fun _ => none) (fun _ => none) 0
  | 1 => readExprWith (fun _ => none) (fun _ => none) 1
  | 2 => readExprWith (readExpr 0) (fun _ => none) 2
  | n + 3 => readExprWith (readExpr (n + 1)) (readItems (readExpr n)) (n + 3)

/-- Reads a statement, given the reader `many` of the lists of statements in its record. -/
def readStmtWith (many : Json → Option (List Stmt)) (nesting : Nat) (j : Json) : Option Stmt :=
  (alternative nesting j).bind fun a =>
    match a.name with
    | "Expr" => a.single fun n j => (readExpr n j).map .expr
    | "Store" => a.record ["local", "value"] fun n fs => do
      return .store (← fs.required "local" readSlot) (← fs.required "value" (readExpr n))
    | "PutField" => a.record ["object", "owner", "field", "value"] fun n fs => do
      return .putField (← fs.required "object" (readExpr n)) (← fs.required "owner" text)
        (← fs.required "field" text) (← fs.required "value" (readExpr n))
    | "PutStatic" => a.record ["class", "field", "value"] fun n fs => do
      return .putStatic (← fs.required "class" text) (← fs.required "field" text)
        (← fs.required "value" (readExpr n))
    | "If" => a.record ["cond", "then", "otherwise"] fun n fs => do
      return .branch (← fs.required "cond" (readExpr n)) (← fs.required "then" many)
        (← fs.withDefault "otherwise" [] many)
    | "While" => a.record ["cond", "body"] fun n fs => do
      return .loop (← fs.required "cond" (readExpr n)) (← fs.required "body" many)
    | "Return" => a.single fun n j => (optional (readExpr n) j).map .giveBack
    | "SuperInit" => a.record ["args"] fun n fs => do
      return .superInit (← fs.required "args" (list readExpr n))
    | _ => none

/-- Reads a statement: an object, a record and an array are around the statements in it. -/
def readStmt : Nat → Json → Option Stmt
  | n + 3 => readStmtWith (readItems (readStmt n)) (n + 3)
  | n => readStmtWith (fun _ => none) n

/-! ## Classes and units -/

def readBody : Nat → Json → Option Body :=
  record ["max_locals", "code"] fun n fs => do
    return ⟨← fs.withDefault "max_locals" 0 readSlot, ← fs.required "code" (list readStmt n)⟩

def readField : Nat → Json → Option FieldDecl :=
  record ["name", "type"] fun n fs => do
    return ⟨← fs.required "name" text, ← fs.required "type" (readType n)⟩

def readStatic : Nat → Json → Option StaticDecl :=
  record ["name", "type", "init"] fun n fs => do
    return ⟨← fs.required "name" text, ← fs.required "type" (readType n),
      ← fs.withDefault "init" none (optional (readExpr n))⟩

def readConstructor : Nat → Json → Option ConstructorDecl :=
  record ["params", "body"] fun n fs => do
    return ⟨← fs.withDefault "params" [] (list readType n), ← fs.required "body" (readBody n)⟩

def readMethodBody (nesting : Nat) (j : Json) : Option MethodBody :=
  (alternative nesting j).bind fun a =>
    match a.name with
    | "Managed" => a.single fun n j => (readBody n j).map .managed
    | "Native" => a.plain .native
    | _ => none

def readMethod : Nat → Json → Option MethodDecl :=
  record ["name", "params", "returns", "is_static", "body"] fun n fs => do
    return ⟨← fs.required "name" text, ← fs.withDefault "params" [] (list readType n),
      ← fs.withDefault "returns" .void (readType n), ← fs.withDefault "is_static" false boolean,
      ← fs.required "body" (readMethodBody n)⟩

def readClass : Nat → Json → Option ClassDecl :=
  record ["name", "parent", "fields", "statics", "static_block", "constructors", "methods"]
    fun n fs => do
      return ⟨← fs.required "name" text, ← fs.withDefault "parent" none (optional text),
        ← fs.withDefault "fields" [] (list readField n),
        ← fs.withDefault "statics" [] (list readStatic n),
        ← fs.withDefault "static_block" none (optional (readBody n)),
        ← fs.withDefault "constructors" [] (list readConstructor n),
        ← fs.withDefault "methods" [] (list readMethod n)⟩

def readUnit : Nat → Json → Option CompilationUnit :=
  record ["name", "entry", "classes"] fun n fs => do
    return ⟨← fs.required "name" text, ← fs.withDefault "entry" none (optional text),
      ← fs.withDefault "classes" [] (list readClass n)⟩

/-- Reads a document with the reader of what it should be. -/
def readDocument {α : Type} (read : Nat → Json → Option α) (document : String) : Option α :=
  (Json.parse? document.toList).bind (read nestingLimit)

/-- The unit that the text of a unit file describes. -/
def CompilationUnit.parse? (document : String) : Option CompilationUnit :=
  readDocument readUnit document

end ObjectMachine
