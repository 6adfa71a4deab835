/-
Bodies as trees: literals, expressions and statements, and the body that groups statements with
the number of local slots they need. Equality of trees is decidable, which is what makes "the same
class again" a question with an answer.
-/

namespace ObjectMachine

/-- A constant. -/
inductive Literal where
  | null
  | bool (b : Bool)
  | int (i : Int32)
  | long (l : Int64)
  | text (s : String)
  deriving DecidableEq, Repr

/-- An operator with one operand. -/
inductive UnaryOp where
  | neg
  | not
  | widen
  | narrow
  deriving DecidableEq, Repr

/-- An operator with two operands. -/
inductive BinaryOp where
  | add
  | sub
  | mul
  | div
  | rem
  | eq
  | ne
  | lt
  | le
  | gt
  | ge
  deriving DecidableEq, Repr

/-- An expression. -/
inductive Expr where
  | literal (l : Literal)
  /-- The value in a local slot. -/
  | slot (i : UInt16)
  /-- The receiver. -/
  | this
  /-- An instance field, named in the layout of the class `owner`. -/
  | getField (object : Expr) (owner field : String)
  /-- A static field of a class or of its nearest ancestor that declares it. -/
  | getStatic (cls field : String)
  | unary (op : UnaryOp) (operand : Expr)
  | binary (op : BinaryOp) (lhs rhs : Expr)
  /-- Allocates an object and runs the constructor the arguments select. -/
  | create (cls : String) (args : List Expr)
  | invokeStatic (cls method : String) (args : List Expr)
  /-- Calls an instance method of the receiver's own class. -/
  | invokeVirtual (receiver : Expr) (method : String) (args : List Expr)
  /-- Calls the parent's implementation of an instance method on the receiver. -/
  | invokeSuper (method : String) (args : List Expr)
  deriving Repr, Inhabited

/-- A statement. -/
inductive Stmt where
  /-- Evaluates an expression for its effects. -/
  | expr (e : Expr)
  | store (slot : UInt16) (value : Expr)
  | putField (object : Expr) (owner field : String) (value : Expr)
  | putStatic (cls field : String) (value : Expr)
  | branch (cond : Expr) (yes no : List Stmt)
  | loop (cond : Expr) (body : List Stmt)
  | giveBack (value : Option Expr)
  /-- Runs a constructor of the parent class on the receiver. -/
  | superInit (args : List Expr)
  deriving Repr, Inhabited

/-- Statements with the least number of local slots they run in. -/
structure Body where
  maxLocals : UInt16 := 0
  code : List Stmt := []
  deriving Repr, Inhabited

/-! ## Equality of trees -/

mutual

/-- Two expressions are the same tree. -/
def Expr.same : Expr → Expr → Bool
  | .literal a, .literal b => a = b
  | .slot i, .slot j => i = j
  | .this, .this => true
  | .getField a o f, .getField b p g => Expr.same a b && o = p && f = g
  | .getStatic c f, .getStatic d g => c = d && f = g
  | .unary o a, .unary p b => o = p && Expr.same a b
  | .binary o a b, .binary p c d => o = p && Expr.same a c && Expr.same b d
  | .create c as, .create d bs => c = d && Expr.sameList as bs
  | .invokeStatic c m as, .invokeStatic d n bs => c = d && m = n && Expr.sameList as bs
  | .invokeVirtual r m as, .invokeVirtual s n bs => Expr.same r s && m = n && Expr.sameList as bs
  | .invokeSuper m as, .invokeSuper n bs => m = n && Expr.sameList as bs
  | _, _ => false

/-- Two rows of expressions are the same trees in the same order. -/
def Expr.sameList : List Expr → List Expr → Bool
  | [], [] => true
  | a :: as, b :: bs => Expr.same a b && Expr.sameList as bs
  | _, _ => false

end

mutual

theorem Expr.same_iff : ∀ a b : Expr, Expr.same a b = true ↔ a = b
  | .literal l, b => by cases b <;> simp [Expr.same]
  | .slot i, b => by cases b <;> simp [Expr.same]
  | .this, b => by cases b <;> simp [Expr.same]
  | .getField a o f, b => by cases b <;> simp [Expr.same, Expr.same_iff a, and_assoc]
  | .getStatic c f, b => by cases b <;> simp [Expr.same]
  | .unary o a, b => by cases b <;> simp [Expr.same, Expr.same_iff a]
  | .binary o a c, b => by
    cases b <;> simp [Expr.same, Expr.same_iff a, Expr.same_iff c, and_assoc]
  | .create c as, b => by cases b <;> simp [Expr.same, Expr.sameList_iff as]
  | .invokeStatic c m as, b => by
    cases b <;> simp [Expr.same, Expr.sameList_iff as, and_assoc]
  | .invokeVirtual r m as, b => by
    cases b <;> simp [Expr.same, Expr.same_iff r, Expr.sameList_iff as, and_assoc]
  | .invokeSuper m as, b => by cases b <;> simp [Expr.same, Expr.sameList_iff as]

theorem Expr.sameList_iff : ∀ as bs : List Expr, Expr.sameList as bs = true ↔ as = bs
  | [], bs => by cases bs <;> simp [Expr.sameList]
  | a :: as, bs => by cases bs <;> simp [Expr.sameList, Expr.same_iff a, Expr.sameList_iff as]

end

instance : DecidableEq Expr := fun a b => decidable_of_iff _ (Expr.same_iff a b)

mutual

/-- Two statements are the same tree. -/
def Stmt.same : Stmt → Stmt → Bool
  | .expr a, .expr b => a = b
  | .store i a, .store j b => i = j && a = b
  | .putField a o f v, .putField b p g w => a = b && o = p && f = g && v = w
  | .putStatic c f v, .putStatic d g w => c = d && f = g && v = w
  | .branch c y n, .branch d z m => c = d && Stmt.sameList y z && Stmt.sameList n m
  | .loop c b, .loop d e => c = d && Stmt.sameList b e
  | .giveBack v, .giveBack w => v = w
  | .superInit as, .superInit bs => as = bs
  | _, _ => false

/-- Two rows of statements are the same trees in the same order. -/
def Stmt.sameList : List Stmt → List Stmt → Bool
  | [], [] => true
  | a :: as, b :: bs => Stmt.same a b && Stmt.sameList as bs
  | _, _ => false

end

mutual

theorem Stmt.same_iff : ∀ a b : Stmt, Stmt.same a b = true ↔ a = b
  | .expr e, b => by cases b <;> simp [Stmt.same]
  | .store i e, b => by cases b <;> simp [Stmt.same]
  | .putField a o f v, b => by cases b <;> simp [Stmt.same, and_assoc]
  | .putStatic c f v, b => by cases b <;> simp [Stmt.same, and_assoc]
  | .branch c y n, b => by
    cases b <;> simp [Stmt.same, Stmt.sameList_iff y, Stmt.sameList_iff n, and_assoc]
  | .loop c s, b => by cases b <;> simp [Stmt.same, Stmt.sameList_iff s]
  | .giveBack v, b => by cases b <;> simp [Stmt.same]
  | .superInit as, b => by cases b <;> simp [Stmt.same]

theorem Stmt.sameList_iff : ∀ as bs : List Stmt, Stmt.sameList as bs = true ↔ as = bs
  | [], bs => by cases bs <;> simp [Stmt.sameList]
  | a :: as, bs => by cases bs <;> simp [Stmt.sameList, Stmt.same_iff a, Stmt.sameList_iff as]

end

instance : DecidableEq Stmt := fun a b => decidable_of_iff _ (Stmt.same_iff a b)

instance : DecidableEq Body := fun a b =>
  decidable_of_iff (a.maxLocals = b.maxLocals ∧ a.code = b.code) (by
    cases a; cases b; simp)

end ObjectMachine
