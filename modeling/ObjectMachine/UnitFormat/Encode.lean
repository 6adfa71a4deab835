/-
The JSON form of a compilation unit. Absent parents, entries, initializers and static blocks are
left out; every other field is written, in declaration order.
-/
import ObjectMachine.Decl
import ObjectMachine.Json.Printer

namespace ObjectMachine

/-- An alternative with its content. -/
def Json.tagged (name : String) (content : Json) : Json := .object [(name, content)]

/-- A field that is left out when it is absent. -/
def Json.present {α : Type} (name : String) (value : Option α) (write : α → Json) :
    List (String × Json) :=
  value.toList.map fun a => (name, write a)

def Ty.toJson (t : Ty) : Json := .string t.name

def typesToJson (types : List Ty) : Json := .arr (types.map Ty.toJson)

def Literal.toJson : Literal → Json
  | .null => .string "Null"
  | .bool b => .tagged "Bool" (.bool b)
  | .int i => .tagged "Int" (.int i.toInt)
  | .long l => .tagged "Long" (.int l.toInt)
  | .text s => .tagged "Text" (.string s)

/-- The word an operator is written with. -/
def UnaryOp.name : UnaryOp → String
  | .neg => "Neg"
  | .not => "Not"
  | .widen => "Widen"
  | .narrow => "Narrow"

/-- The word an operator is written with. -/
def BinaryOp.name : BinaryOp → String
  | .add => "Add"
  | .sub => "Sub"
  | .mul => "Mul"
  | .div => "Div"
  | .rem => "Rem"
  | .eq => "Eq"
  | .ne => "Ne"
  | .lt => "Lt"
  | .le => "Le"
  | .gt => "Gt"
  | .ge => "Ge"

mutual

def Expr.toJson : Expr → Json
  | .literal l => .tagged "Literal" l.toJson
  | .slot i => .tagged "Local" (.int i.toNat)
  | .this => .string "This"
  | .getField object owner field =>
    .tagged "GetField"
      (.object [("object", object.toJson), ("owner", .string owner), ("field", .string field)])
  | .getStatic cls field =>
    .tagged "GetStatic" (.object [("class", .string cls), ("field", .string field)])
  | .unary op operand =>
    .tagged "Unary" (.object [("op", .string op.name), ("operand", operand.toJson)])
  | .binary op lhs rhs =>
    .tagged "Binary"
      (.object [("op", .string op.name), ("lhs", lhs.toJson), ("rhs", rhs.toJson)])
  | .create cls args =>
    .tagged "New" (.object [("class", .string cls), ("args", .arr (Expr.toJsonList args))])
  | .invokeStatic cls method args =>
    .tagged "InvokeStatic"
      (.object [("class", .string cls), ("method", .string method),
        ("args", .arr (Expr.toJsonList args))])
  | .invokeVirtual receiver method args =>
    .tagged "InvokeVirtual"
      (.object [("receiver", receiver.toJson), ("method", .string method),
        ("args", .arr (Expr.toJsonList args))])
  | .invokeSuper method args =>
    .tagged "InvokeSuper"
      (.object [("method", .string method), ("args", .arr (Expr.toJsonList args))])

def Expr.toJsonList : List Expr → List Json
  | [] => []
  | e :: es => e.toJson :: Expr.toJsonList es

end

mutual

def Stmt.toJson : Stmt → Json
  | .expr e => .tagged "Expr" e.toJson
  | .store slot value =>
    .tagged "Store" (.object [("local", .int slot.toNat), ("value", value.toJson)])
  | .putField object owner field value =>
    .tagged "PutField"
      (.object [("object", object.toJson), ("owner", .string owner), ("field", .string field),
        ("value", value.toJson)])
  | .putStatic cls field value =>
    .tagged "PutStatic"
      (.object [("class", .string cls), ("field", .string field), ("value", value.toJson)])
  | .branch cond yes no =>
    .tagged "If"
      (.object [("cond", cond.toJson), ("then", .arr (Stmt.toJsonList yes)),
        ("otherwise", .arr (Stmt.toJsonList no))])
  | .loop cond body =>
    .tagged "While" (.object [("cond", cond.toJson), ("body", .arr (Stmt.toJsonList body))])
  | .giveBack none => .tagged "Return" .null
  | .giveBack (some e) => .tagged "Return" e.toJson
  | .superInit args => .tagged "SuperInit" (.object [("args", .arr (Expr.toJsonList args))])

def Stmt.toJsonList : List Stmt → List Json
  | [] => []
  | s :: ss => s.toJson :: Stmt.toJsonList ss

end

def Body.toJson (b : Body) : Json :=
  .object [("max_locals", .int b.maxLocals.toNat), ("code", .arr (Stmt.toJsonList b.code))]

def FieldDecl.toJson (d : FieldDecl) : Json :=
  .object [("name", .string d.name), ("type", d.type.toJson)]

def StaticDecl.toJson (d : StaticDecl) : Json :=
  .object ([("name", .string d.name), ("type", d.type.toJson)]
    ++ Json.present "init" d.init Expr.toJson)

def ConstructorDecl.toJson (d : ConstructorDecl) : Json :=
  .object [("params", typesToJson d.params), ("body", d.body.toJson)]

def MethodBody.toJson : MethodBody → Json
  | .managed body => .tagged "Managed" body.toJson
  | .native => .string "Native"

def MethodDecl.toJson (d : MethodDecl) : Json :=
  .object [("name", .string d.name), ("params", typesToJson d.params),
    ("returns", d.returns.toJson), ("is_static", .bool d.isStatic), ("body", d.body.toJson)]

def ClassDecl.toJson (c : ClassDecl) : Json :=
  .object ([("name", .string c.name)]
    ++ Json.present "parent" c.parent Json.string
    ++ [("fields", .arr (c.fields.map FieldDecl.toJson)),
      ("statics", .arr (c.statics.map StaticDecl.toJson))]
    ++ Json.present "static_block" c.staticBlock Body.toJson
    ++ [("constructors", .arr (c.constructors.map ConstructorDecl.toJson)),
      ("methods", .arr (c.methods.map MethodDecl.toJson))])

def CompilationUnit.toJson (u : CompilationUnit) : Json :=
  .object ([("name", .string u.name)]
    ++ Json.present "entry" u.entry Json.string
    ++ [("classes", .arr (u.classes.map ClassDecl.toJson))])

/-- A unit as the text of a unit file. -/
def CompilationUnit.print (u : CompilationUnit) : String := String.ofList (u.toJson.pretty 0)

end ObjectMachine
