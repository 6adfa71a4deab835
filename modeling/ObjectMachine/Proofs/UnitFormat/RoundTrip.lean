/-
Unit files and units. Every kind of tree `Reads` back from its own JSON form: exactly when the reader may
open as many arrays and objects as the form nests, so that a unit that nests too deep is refused and never
taken for another one. The induction over expressions and statements is that of the reader, which takes
two levels for an expression with its record and a third for a list.
-/
import Mathlib.Data.Nat.SuccPred
import ObjectMachine.Proofs.Json.Nesting
import ObjectMachine.UnitFormat.Decode

namespace ObjectMachine

open Json Json.Reader

/-! ## Names and literals -/

theorem UnaryOp.find?_name (op : UnaryOp) : UnaryOp.all.find? (·.name = op.name) = some op := by
  cases op <;> decide

theorem BinaryOp.find?_name (op : BinaryOp) : BinaryOp.all.find? (·.name = op.name) = some op := by
  cases op <;> decide

@[simp] theorem Ty.depth_toJson (t : Ty) : t.toJson.depth = 0 := rfl

@[simp] theorem readType_toJson (t : Ty) (n : Nat) : readType n t.toJson = some t := by
  simp [readType, Ty.toJson, Ty.ofName?_name]

@[simp] theorem readUnaryOp_name (op : UnaryOp) (n : Nat) : readUnaryOp n (.string op.name) = some op := by
  simp [readUnaryOp, op.find?_name]

@[simp] theorem readBinaryOp_name (op : BinaryOp) (n : Nat) : readBinaryOp n (.string op.name) = some op := by
  simp [readBinaryOp, op.find?_name]

@[simp] theorem readSlot_toNat (i : UInt16) : readSlot (.int i.toNat) = some i := by
  have hlo : (0 : Int) ≤ i.toNat := by omega
  have hhi : (i.toNat : Int) ≤ 65535 := by have := i.toNat_lt; omega
  simp [readSlot, integer, hlo, hhi]

@[simp] theorem readInt_toInt (i : Int32) : readInt (.int i.toInt) = some i := by
  have hlo : Int32.minValue.toInt ≤ i.toInt := i.minValue_le_toInt
  have hhi : i.toInt ≤ Int32.maxValue.toInt := i.toInt_le
  simp only [readInt, integer, if_pos (And.intro hlo hhi), Option.map_some, Int32.ofInt_toInt]

@[simp] theorem readLongLiteral_toInt (l : Int64) : readLongLiteral (.int l.toInt) = some l := by
  have hlo : Int64.minValue.toInt ≤ l.toInt := l.minValue_le_toInt
  have hhi : l.toInt ≤ Int64.maxValue.toInt := l.toInt_le
  simp only [readLongLiteral, integer, if_pos (And.intro hlo hhi), Option.map_some, Int64.ofInt_toInt]

theorem reads_literal (l : Literal) : Reads readLiteral l.toJson l := by
  intro n
  cases l <;> cases n <;> simp [readLiteral, Literal.toJson, boolean]

/-! ## Expressions -/

/-- The record of an expression opens two levels, and what it contains is read with what is left. -/
theorem readExpr_succ (n : Nat) :
    readExpr (n + 2) = readExprWith (readExpr n) (list readExpr n) (n + 2) := by
  cases n with
  | zero =>
    have hnone : (fun _ => none) = list readExpr 0 := by funext j; cases j <;> rfl
    rw [← hnone]
    rfl
  | succ n =>
    have hitems : readItems (readExpr n) = list readExpr (n + 1) := by funext j; cases j <;> rfl
    rw [← hitems]
    rfl

theorem Expr.toJsonList_eq (es : List Expr) : Expr.toJsonList es = es.map Expr.toJson := by
  induction es with
  | nil => rfl
  | cons e es ih => simp [Expr.toJsonList, ih]

theorem reads_args {es : List Expr} (h : ∀ e ∈ es, Reads readExpr e.toJson e) (n : Nat) :
    list readExpr n (.arr (Expr.toJsonList es)) =
      if depthItems (Expr.toJsonList es) + 1 ≤ n then some es else none := by
  rw [Expr.toJsonList_eq]
  exact list_map h n

mutual

theorem reads_expr (e : Expr) : Reads readExpr e.toJson e := by
  intro n
  -- a record takes two levels, and what is in it is read with the others
  obtain _ | _ | n := n
  · cases e <;> simp [readExpr, readExprWith, Expr.toJson]
  · cases e with
    | literal l => simp [readExpr, readExprWith, Expr.toJson, reads_literal l 0]
    | _ => simp [readExpr, readExprWith, Expr.toJson, Alternative.record]
  rw [readExpr_succ]
  match e with
  | .literal l => simp [readExprWith, Expr.toJson, reads_literal l (n + 1)]
  | .slot i => simp [readExprWith, Expr.toJson]
  | .this => simp [readExprWith, Expr.toJson]
  | .getField object owner field => simp [readExprWith, Expr.toJson, Alternative.record, reads_expr object n]
  | .getStatic cls field => simp [readExprWith, Expr.toJson, Alternative.record]
  | .unary op operand => simp [readExprWith, Expr.toJson, Alternative.record, reads_expr operand n]
  | .binary op lhs rhs =>
    simp [readExprWith, Expr.toJson, Alternative.record, reads_expr lhs n, reads_expr rhs n, ← ite_and]
  | .create cls args => simp [readExprWith, Expr.toJson, Alternative.record, reads_args (reads_exprs args) n]
  | .invokeStatic cls method args =>
    simp [readExprWith, Expr.toJson, Alternative.record, reads_args (reads_exprs args) n]
  | .invokeVirtual receiver method args =>
    simp [readExprWith, Expr.toJson, Alternative.record, reads_expr receiver n,
      reads_args (reads_exprs args) n, ← ite_and]
  | .invokeSuper method args =>
    simp [readExprWith, Expr.toJson, Alternative.record, reads_args (reads_exprs args) n]

theorem reads_exprs (es : List Expr) : ∀ e ∈ es, Reads readExpr e.toJson e := by
  match es with
  | [] => simp
  | e :: es => exact List.forall_mem_cons.2 ⟨reads_expr e, reads_exprs es⟩

end

/-! ## Statements -/

/-- Only the record of a statement with at least one more level can contain a list of statements. -/
theorem readStmt_eq (n : Nat) : readStmt (n + 2) = readStmtWith (list readStmt n) (n + 2) := by
  cases n with
  | zero =>
    have hnone : (fun _ => none) = list readStmt 0 := by funext j; cases j <;> rfl
    rw [← hnone]
    rfl
  | succ n =>
    have hitems : readItems (readStmt n) = list readStmt (n + 1) := by funext j; cases j <;> rfl
    rw [← hitems]
    rfl

theorem Stmt.toJsonList_eq (ss : List Stmt) : Stmt.toJsonList ss = ss.map Stmt.toJson := by
  induction ss with
  | nil => rfl
  | cons s ss ih => simp [Stmt.toJsonList, ih]

theorem reads_code {ss : List Stmt} (h : ∀ s ∈ ss, Reads readStmt s.toJson s) (n : Nat) :
    list readStmt n (.arr (Stmt.toJsonList ss)) =
      if depthItems (Stmt.toJsonList ss) + 1 ≤ n then some ss else none := by
  rw [Stmt.toJsonList_eq]
  exact list_map h n

theorem optional_toJson (e : Expr) (read : Json → Option Expr) :
    Reader.optional read e.toJson = (read e.toJson).map some := by
  cases e <;> rfl

mutual

theorem reads_stmt (s : Stmt) : Reads readStmt s.toJson s := by
  intro n
  obtain _ | _ | n := n
  · cases s with
    | giveBack value => cases value <;> simp [readStmt, readStmtWith, Stmt.toJson]
    | _ => simp [readStmt, readStmtWith, Stmt.toJson]
  · cases s with
    | expr e => simp [readStmt, readStmtWith, Stmt.toJson, reads_expr e 0]
    | giveBack value =>
      cases value with
      | none => simp [readStmt, readStmtWith, Stmt.toJson]
      | some e => simp [readStmt, readStmtWith, Stmt.toJson, optional_toJson, reads_expr e 0]
    | _ => simp [readStmt, readStmtWith, Stmt.toJson, Alternative.record]
  rw [readStmt_eq]
  match s with
  | .expr e => simp [readStmtWith, Stmt.toJson, reads_expr e (n + 1)]
  | .store slot value => simp [readStmtWith, Stmt.toJson, Alternative.record, reads_expr value n]
  | .putField object owner field value =>
    simp [readStmtWith, Stmt.toJson, Alternative.record, reads_expr object n, reads_expr value n, ← ite_and]
  | .putStatic cls field value => simp [readStmtWith, Stmt.toJson, Alternative.record, reads_expr value n]
  | .branch cond yes no =>
    simp [readStmtWith, Stmt.toJson, Alternative.record, reads_expr cond n, reads_code (reads_stmts yes) n,
      reads_code (reads_stmts no) n, ← ite_and]
  | .loop cond body =>
    simp [readStmtWith, Stmt.toJson, Alternative.record, reads_expr cond n, reads_code (reads_stmts body) n,
      ← ite_and]
  | .giveBack none => simp [readStmtWith, Stmt.toJson]
  | .giveBack (some e) => simp [readStmtWith, Stmt.toJson, optional_toJson, reads_expr e (n + 1)]
  | .superInit args =>
    simp [readStmtWith, Stmt.toJson, Alternative.record, reads_args (fun e _ => reads_expr e) n]

theorem reads_stmts (ss : List Stmt) : ∀ s ∈ ss, Reads readStmt s.toJson s := by
  match ss with
  | [] => simp
  | s :: ss => exact List.forall_mem_cons.2 ⟨reads_stmt s, reads_stmts ss⟩

end

/-! ## Classes and units -/

theorem reads_types (types : List Ty) : Reads (list readType) (typesToJson types) types :=
  list_map fun t _ n => by simp

theorem reads_body (b : Body) : Reads readBody b.toJson b := by
  intro n
  cases n with
  | zero => simp [readBody, Body.toJson]
  | succ n => simp [readBody, Body.toJson, reads_code (fun s _ => reads_stmt s) n]

theorem reads_field (d : FieldDecl) : Reads readField d.toJson d := by
  intro n
  cases n <;> simp [readField, FieldDecl.toJson]

theorem reads_static (d : StaticDecl) : Reads readStatic d.toJson d := by
  intro n
  obtain ⟨name, type, init⟩ := d
  cases n with
  | zero => cases init <;> simp [readStatic, StaticDecl.toJson]
  | succ n =>
    cases init with
    | none => simp [readStatic, StaticDecl.toJson, Json.present]
    | some e => simp [readStatic, StaticDecl.toJson, Json.present, optional_toJson, reads_expr e n]

theorem reads_constructor (d : ConstructorDecl) : Reads readConstructor d.toJson d := by
  intro n
  cases n with
  | zero => simp [readConstructor, ConstructorDecl.toJson]
  | succ n =>
    simp [readConstructor, ConstructorDecl.toJson, reads_types d.params n, reads_body d.body n, ← ite_and]

theorem reads_methodBody (b : MethodBody) : Reads readMethodBody b.toJson b := by
  intro n
  cases b with
  | native => simp [readMethodBody, MethodBody.toJson]
  | managed body =>
    cases n with
    | zero => simp [readMethodBody, MethodBody.toJson]
    | succ n => simp [readMethodBody, MethodBody.toJson, reads_body body n]

theorem reads_method (d : MethodDecl) : Reads readMethod d.toJson d := by
  intro n
  cases n with
  | zero => simp [readMethod, MethodDecl.toJson]
  | succ n =>
    simp [readMethod, MethodDecl.toJson, boolean, reads_types d.params n, reads_methodBody d.body n, ← ite_and]

theorem optional_toJson_body (b : Body) (read : Json → Option Body) :
    Reader.optional read b.toJson = (read b.toJson).map some := rfl

theorem reads_class (c : ClassDecl) : Reads readClass c.toJson c := by
  intro n
  obtain ⟨name, parent, fields, statics, block, constructors, methods⟩ := c
  cases n with
  | zero => simp [readClass, ClassDecl.toJson]
  | succ n =>
    have hfields := list_map (fun d (_ : d ∈ fields) => reads_field d) n
    have hstatics := list_map (fun d (_ : d ∈ statics) => reads_static d) n
    have hconstructors := list_map (fun d (_ : d ∈ constructors) => reads_constructor d) n
    have hmethods := list_map (fun d (_ : d ∈ methods) => reads_method d) n
    have hblock := fun b => reads_body b n
    cases parent <;> cases block
    all_goals
      simp [readClass, ClassDecl.toJson, Json.present, hfields, hstatics, hconstructors, hmethods,
        optional_toJson_body, hblock, ← ite_and]

theorem reads_unit (u : CompilationUnit) : Reads readUnit u.toJson u := by
  intro n
  obtain ⟨name, entry, classes⟩ := u
  cases n with
  | zero => simp [readUnit, CompilationUnit.toJson]
  | succ n =>
    have hclasses := list_map (fun c (_ : c ∈ classes) => reads_class c) n
    cases entry <;> simp [readUnit, CompilationUnit.toJson, Json.present, hclasses]

/-! ## Whole numbers -/

theorem Literal.whole_toJson (l : Literal) : l.toJson.Whole := by
  cases l <;> simp [Literal.toJson]

mutual

theorem Expr.whole_toJson (e : Expr) : e.toJson.Whole := by
  match e with
  | .literal l => simp [Expr.toJson, l.whole_toJson]
  | .slot i => simp [Expr.toJson]
  | .this => simp [Expr.toJson]
  | .getField object owner field => simp [Expr.toJson, object.whole_toJson]
  | .getStatic cls field => simp [Expr.toJson]
  | .unary op operand => simp [Expr.toJson, operand.whole_toJson]
  | .binary op lhs rhs => simp [Expr.toJson, lhs.whole_toJson, rhs.whole_toJson]
  | .create cls args => simpa [Expr.toJson] using Expr.whole_toJsonList args
  | .invokeStatic cls method args => simpa [Expr.toJson] using Expr.whole_toJsonList args
  | .invokeVirtual receiver method args =>
    simpa [Expr.toJson, receiver.whole_toJson] using Expr.whole_toJsonList args
  | .invokeSuper method args => simpa [Expr.toJson] using Expr.whole_toJsonList args

theorem Expr.whole_toJsonList (es : List Expr) : ∀ j ∈ Expr.toJsonList es, j.Whole := by
  match es with
  | [] => simp [Expr.toJsonList]
  | e :: es => exact List.forall_mem_cons.2 ⟨e.whole_toJson, Expr.whole_toJsonList es⟩

end

mutual

theorem Stmt.whole_toJson (s : Stmt) : s.toJson.Whole := by
  match s with
  | .expr e => simp [Stmt.toJson, e.whole_toJson]
  | .store slot value => simp [Stmt.toJson, value.whole_toJson]
  | .putField object owner field value => simp [Stmt.toJson, object.whole_toJson, value.whole_toJson]
  | .putStatic cls field value => simp [Stmt.toJson, value.whole_toJson]
  | .branch cond yes no =>
    simpa [Stmt.toJson, cond.whole_toJson] using
      And.intro (Stmt.whole_toJsonList yes) (Stmt.whole_toJsonList no)
  | .loop cond body => simpa [Stmt.toJson, cond.whole_toJson] using Stmt.whole_toJsonList body
  | .giveBack none => simp [Stmt.toJson]
  | .giveBack (some e) => simp [Stmt.toJson, e.whole_toJson]
  | .superInit args => simpa [Stmt.toJson] using Expr.whole_toJsonList args

theorem Stmt.whole_toJsonList (ss : List Stmt) : ∀ j ∈ Stmt.toJsonList ss, j.Whole := by
  match ss with
  | [] => simp [Stmt.toJsonList]
  | s :: ss => exact List.forall_mem_cons.2 ⟨s.whole_toJson, Stmt.whole_toJsonList ss⟩

end

@[simp] theorem Body.whole_toJson (b : Body) : b.toJson.Whole := by
  simpa [Body.toJson] using Stmt.whole_toJsonList b.code

@[simp] theorem Ty.whole_toJson (t : Ty) : t.toJson.Whole := trivial

@[simp] theorem whole_typesToJson (types : List Ty) : (typesToJson types).Whole := by
  simp [typesToJson]

theorem FieldDecl.whole_toJson (d : FieldDecl) : d.toJson.Whole := by simp [FieldDecl.toJson]

theorem StaticDecl.whole_toJson (d : StaticDecl) : d.toJson.Whole := by
  cases hinit : d.init <;> simp [StaticDecl.toJson, Json.present, hinit, Expr.whole_toJson]

theorem ConstructorDecl.whole_toJson (d : ConstructorDecl) : d.toJson.Whole := by
  simp [ConstructorDecl.toJson]

theorem MethodDecl.whole_toJson (d : MethodDecl) : d.toJson.Whole := by
  cases hbody : d.body <;> simp [MethodDecl.toJson, MethodBody.toJson, hbody]

theorem ClassDecl.whole_toJson (c : ClassDecl) : c.toJson.Whole := by
  cases hparent : c.parent <;> cases hblock : c.staticBlock
  all_goals
    simp only [ClassDecl.toJson, Json.present, hparent, hblock]
    simp [FieldDecl.whole_toJson, StaticDecl.whole_toJson, ConstructorDecl.whole_toJson,
      MethodDecl.whole_toJson]

theorem CompilationUnit.whole_toJson (u : CompilationUnit) : u.toJson.Whole := by
  cases hentry : u.entry <;> simp [CompilationUnit.toJson, Json.present, hentry, ClassDecl.whole_toJson]

/-- A printed unit is read back, unless it nests too deep, and then it is refused. -/
theorem CompilationUnit.parse?_print (u : CompilationUnit) :
    parse? u.print = if u.toJson.depth ≤ nestingLimit then some u else none := by
  unfold parse? readDocument print
  rw [String.toList_ofList, Json.parse?_pretty 0 u.whole_toJson]
  exact reads_unit u nestingLimit

end ObjectMachine
