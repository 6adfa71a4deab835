/-
Unit files that say the same. Every tree of a unit has its spellings, built like its printed form from those
of its parts, and its reader takes each of them for the tree. Records are read in two ways, by name and by
place, and the lemma about a record is the same for both: it only sees what was found for each field, so
that a default, a nullable field or the order of the fields is looked at once. The induction over
expressions and statements is that of the reader.
-/
import ObjectMachine.Proofs.Json.Spelling
import ObjectMachine.Proofs.UnitFormat.RoundTrip

namespace ObjectMachine

open Json Json.Reader Json.Spelling

/-! ## Definitions -/

def Ty.spelling (t : Ty) : Spelling := Plain t.name

def Literal.spelling : Literal → Spelling
  | .null => Plain "Null"
  | .bool b => Tagged "Bool" (exactly (.bool b))
  | .int i => Tagged "Int" (exactly (.int i.toInt))
  | .long l => Tagged "Long" (exactly (.int l.toInt))
  | .text s => Tagged "Text" (exactly (.string s))

mutual

def Expr.spelling : Expr → Spelling
  | .literal l => Tagged "Literal" l.spelling
  | .slot i => Tagged "Local" (exactly (.int i.toNat))
  | .this => Plain "This"
  | .getField object owner field =>
    Tagged "GetField" (Record [.required "object" object.spelling, .text "owner" owner, .text "field" field])
  | .getStatic cls field => Tagged "GetStatic" (Record [.text "class" cls, .text "field" field])
  | .unary op operand =>
    Tagged "Unary" (Record [.required "op" (Plain op.name), .required "operand" operand.spelling])
  | .binary op lhs rhs =>
    Tagged "Binary" (Record [.required "op" (Plain op.name), .required "lhs" lhs.spelling,
      .required "rhs" rhs.spelling])
  | .create cls args =>
    Tagged "New" (Record [.text "class" cls, .required "args" (Listed (Expr.spellings args))])
  | .invokeStatic cls method args =>
    Tagged "InvokeStatic" (Record [.text "class" cls, .text "method" method,
      .required "args" (Listed (Expr.spellings args))])
  | .invokeVirtual receiver method args =>
    Tagged "InvokeVirtual" (Record [.required "receiver" receiver.spelling, .text "method" method,
      .required "args" (Listed (Expr.spellings args))])
  | .invokeSuper method args =>
    Tagged "InvokeSuper" (Record [.text "method" method, .required "args" (Listed (Expr.spellings args))])

def Expr.spellings : List Expr → List Spelling
  | [] => []
  | e :: es => e.spelling :: Expr.spellings es

end

mutual

def Stmt.spelling : Stmt → Spelling
  | .expr e => Tagged "Expr" e.spelling
  | .store slot value =>
    Tagged "Store" (Record [.required "local" (exactly (.int slot.toNat)), .required "value" value.spelling])
  | .putField object owner field value =>
    Tagged "PutField" (Record [.required "object" object.spelling, .text "owner" owner, .text "field" field,
      .required "value" value.spelling])
  | .putStatic cls field value =>
    Tagged "PutStatic" (Record [.text "class" cls, .text "field" field, .required "value" value.spelling])
  | .branch cond yes no =>
    Tagged "If" (Record [.required "cond" cond.spelling, .required "then" (Listed (Stmt.spellings yes)),
      ⟨"otherwise", Listed (Stmt.spellings no), no = []⟩])
  | .loop cond body =>
    Tagged "While" (Record [.required "cond" cond.spelling, .required "body" (Listed (Stmt.spellings body))])
  | .giveBack value => Tagged "Return" (Optional (value.map Expr.spelling))
  | .superInit args => Tagged "SuperInit" (Record [.required "args" (Listed (Expr.spellings args))])

def Stmt.spellings : List Stmt → List Spelling
  | [] => []
  | s :: ss => s.spelling :: Stmt.spellings ss

end

def Body.spelling (b : Body) : Spelling :=
  Record [⟨"max_locals", exactly (.int b.maxLocals.toNat), b.maxLocals = 0⟩,
    .required "code" (Listed (Stmt.spellings b.code))]

def FieldDecl.spelling (d : FieldDecl) : Spelling :=
  Record [.text "name" d.name, .required "type" d.type.spelling]

def StaticDecl.spelling (d : StaticDecl) : Spelling :=
  Record [.text "name" d.name, .required "type" d.type.spelling,
    ⟨"init", Optional (d.init.map Expr.spelling), d.init = none⟩]

def ConstructorDecl.spelling (d : ConstructorDecl) : Spelling :=
  Record [⟨"params", Listed (d.params.map Ty.spelling), d.params = []⟩, .required "body" d.body.spelling]

def MethodBody.spelling : MethodBody → Spelling
  | .managed body => Tagged "Managed" body.spelling
  | .native => Plain "Native"

def MethodDecl.spelling (d : MethodDecl) : Spelling :=
  Record [.text "name" d.name, ⟨"params", Listed (d.params.map Ty.spelling), d.params = []⟩,
    ⟨"returns", d.returns.spelling, d.returns = .void⟩,
    ⟨"is_static", exactly (.bool d.isStatic), d.isStatic = false⟩,
    .required "body" d.body.spelling]

/-- A text that may be absent. -/
def optionalText (text : Option String) : Spelling := Optional (text.map fun s => exactly (.string s))

def ClassDecl.spelling (c : ClassDecl) : Spelling :=
  Record [.text "name" c.name, ⟨"parent", optionalText c.parent, c.parent = none⟩,
    ⟨"fields", Listed (c.fields.map FieldDecl.spelling), c.fields = []⟩,
    ⟨"statics", Listed (c.statics.map StaticDecl.spelling), c.statics = []⟩,
    ⟨"static_block", Optional (c.staticBlock.map Body.spelling), c.staticBlock = none⟩,
    ⟨"constructors", Listed (c.constructors.map ConstructorDecl.spelling), c.constructors = []⟩,
    ⟨"methods", Listed (c.methods.map MethodDecl.spelling), c.methods = []⟩]

def CompilationUnit.spelling (u : CompilationUnit) : Spelling :=
  Record [.text "name" u.name, ⟨"entry", optionalText u.entry, u.entry = none⟩,
    ⟨"classes", Listed (u.classes.map ClassDecl.spelling), u.classes = []⟩]

/-- The text writes a spelling of the unit that nests at most 127 arrays and objects, those in members that
are not read aside. -/
def CompilationUnit.Respelled (u : CompilationUnit) (text : String) : Prop :=
  ∃ j, u.spelling nestingLimit j ∧ text.toList ∈ document j

/-! ## Names and literals -/

theorem Json.Spelling.Slot.Fills.text {n : Nat} {fs : Fields} {name s : String}
    (h : (Slot.text name s).Fills n (fs.lookup name).toList) : fs.required name Reader.text = some s :=
  h.required fun _ hj => by cases hj; rfl

theorem Ty.readAs (t : Ty) : t.spelling.ReadAs readType t := by
  intro n j hj
  obtain ⟨a, halt, hname, hplain⟩ := Plain.alternative hj t
  simp [readType, halt, hname, Ty.ofName?_name, hplain]

theorem UnaryOp.readAs (op : UnaryOp) : ReadAs (Plain op.name) readUnaryOp op := by
  intro n j hj
  obtain ⟨a, halt, hname, hplain⟩ := Plain.alternative hj op
  simp [readUnaryOp, halt, hname, op.find?_name, hplain]

theorem BinaryOp.readAs (op : BinaryOp) : ReadAs (Plain op.name) readBinaryOp op := by
  intro n j hj
  obtain ⟨a, halt, hname, hplain⟩ := Plain.alternative hj op
  simp [readBinaryOp, halt, hname, op.find?_name, hplain]

theorem Literal.readAs (l : Literal) : l.spelling.ReadAs readLiteral l := by
  intro n j hj
  cases l with
  | null =>
    obtain ⟨a, halt, hname, hplain⟩ := Plain.alternative hj Literal.null
    simp [readLiteral, halt, hname, hplain]
  | _ =>
    cases hj with
    | mk h =>
      cases h
      simp [readLiteral, boolean]

/-! ## Expressions -/

theorem Expr.spellings_eq (es : List Expr) : Expr.spellings es = es.map Expr.spelling := by
  induction es with
  | nil => rfl
  | cons e es ih => simp [Expr.spellings, ih]

/-- Whatever may be opened, the alternatives are the same. -/
theorem readExpr_alternatives : ∀ n, ∃ one many, readExpr n = readExprWith one many n
  | 0 => ⟨_, _, rfl⟩
  | 1 => ⟨_, _, rfl⟩
  | 2 => ⟨_, _, rfl⟩
  | _ + 3 => ⟨_, _, rfl⟩

theorem Expr.readAs_args {es : List Expr} (h : ∀ e ∈ es, e.spelling.ReadAs readExpr e) :
    ReadAs (Listed (Expr.spellings es)) (list readExpr) es :=
  Expr.spellings_eq es ▸ Listed.readAs h

/-- The record of an expression opens two levels, and its fields are read with what is left. -/
theorem readExpr_record {name : String} {slots : List Slot} {n : Nat} {j : Json} {e : Expr}
    (hj : Tagged name (Record slots) n j)
    (hread : ∀ m content, Record slots (m + 1) content →
      readExprWith (readExpr m) (list readExpr m) (m + 2) (.tagged name content) = some e) :
    readExpr n j = some e := by
  obtain ⟨m, content, rfl, rfl, h⟩ := hj.opens
  rw [readExpr_succ]
  exact hread m content h

mutual

theorem Expr.readAs (e : Expr) : e.spelling.ReadAs readExpr e := by
  intro n j hj
  match e with
  | .literal l =>
    obtain ⟨one, many, heq⟩ := readExpr_alternatives n
    cases hj with
    | mk h => simp [heq, readExprWith, l.readAs _ _ h]
  | .slot i =>
    obtain ⟨one, many, heq⟩ := readExpr_alternatives n
    cases hj with
    | mk h =>
      cases h
      simp [heq, readExprWith]
  | .this =>
    obtain ⟨one, many, heq⟩ := readExpr_alternatives n
    obtain ⟨a, halt, hname, hplain⟩ := Plain.alternative hj Expr.this
    simp [heq, readExprWith, halt, hname, hplain]
  | .getField object owner field =>
    refine readExpr_record hj fun m content h => ?_
    simp only [readExprWith, alternative_tagged, Option.bind_some, Alternative.record, single_some]
    refine h.read rfl (by decide) ?_
    rintro fs ⟨hobject, howner, hfield, -⟩
    simp [hobject.required (object.readAs m), howner.text, hfield.text]
  | .getStatic cls field =>
    refine readExpr_record hj fun m content h => ?_
    simp only [readExprWith, alternative_tagged, Option.bind_some, Alternative.record, single_some]
    refine h.read rfl (by decide) ?_
    rintro fs ⟨hcls, hfield, -⟩
    simp [hcls.text, hfield.text]
  | .unary op operand =>
    refine readExpr_record hj fun m content h => ?_
    simp only [readExprWith, alternative_tagged, Option.bind_some, Alternative.record, single_some]
    refine h.read rfl (by decide) ?_
    rintro fs ⟨hop, hoperand, -⟩
    simp [hop.required (op.readAs m), hoperand.required (operand.readAs m)]
  | .binary op lhs rhs =>
    refine readExpr_record hj fun m content h => ?_
    simp only [readExprWith, alternative_tagged, Option.bind_some, Alternative.record, single_some]
    refine h.read rfl (by decide) ?_
    rintro fs ⟨hop, hlhs, hrhs, -⟩
    simp [hop.required (op.readAs m), hlhs.required (lhs.readAs m), hrhs.required (rhs.readAs m)]
  | .create cls args =>
    refine readExpr_record hj fun m content h => ?_
    simp only [readExprWith, alternative_tagged, Option.bind_some, Alternative.record, single_some]
    refine h.read rfl (by decide) ?_
    rintro fs ⟨hcls, hargs, -⟩
    simp [hcls.text, hargs.required (Expr.readAs_args (Expr.readAs_all args) m)]
  | .invokeStatic cls method args =>
    refine readExpr_record hj fun m content h => ?_
    simp only [readExprWith, alternative_tagged, Option.bind_some, Alternative.record, single_some]
    refine h.read rfl (by decide) ?_
    rintro fs ⟨hcls, hmethod, hargs, -⟩
    simp [hcls.text, hmethod.text, hargs.required (Expr.readAs_args (Expr.readAs_all args) m)]
  | .invokeVirtual receiver method args =>
    refine readExpr_record hj fun m content h => ?_
    simp only [readExprWith, alternative_tagged, Option.bind_some, Alternative.record, single_some]
    refine h.read rfl (by decide) ?_
    rintro fs ⟨hreceiver, hmethod, hargs, -⟩
    simp [hreceiver.required (receiver.readAs m), hmethod.text,
      hargs.required (Expr.readAs_args (Expr.readAs_all args) m)]
  | .invokeSuper method args =>
    refine readExpr_record hj fun m content h => ?_
    simp only [readExprWith, alternative_tagged, Option.bind_some, Alternative.record, single_some]
    refine h.read rfl (by decide) ?_
    rintro fs ⟨hmethod, hargs, -⟩
    simp [hmethod.text, hargs.required (Expr.readAs_args (Expr.readAs_all args) m)]

theorem Expr.readAs_all (es : List Expr) : ∀ e ∈ es, e.spelling.ReadAs readExpr e := by
  match es with
  | [] => simp
  | e :: es => exact List.forall_mem_cons.2 ⟨e.readAs, Expr.readAs_all es⟩

end

/-! ## Statements -/

theorem Expr.spelling_ne_null (e : Expr) (n : Nat) : ¬ e.spelling n .null := by
  cases e <;> nofun

theorem Stmt.spellings_eq (ss : List Stmt) : Stmt.spellings ss = ss.map Stmt.spelling := by
  induction ss with
  | nil => rfl
  | cons s ss ih => simp [Stmt.spellings, ih]

theorem readStmt_alternatives : ∀ n, ∃ many, readStmt n = readStmtWith many n
  | 0 => ⟨_, rfl⟩
  | 1 => ⟨_, rfl⟩
  | 2 => ⟨_, rfl⟩
  | _ + 3 => ⟨_, rfl⟩

theorem Stmt.readAs_code {ss : List Stmt} (h : ∀ s ∈ ss, s.spelling.ReadAs readStmt s) :
    ReadAs (Listed (Stmt.spellings ss)) (list readStmt) ss :=
  Stmt.spellings_eq ss ▸ Listed.readAs h

/-- The record of a statement opens two levels, and its fields are read with what is left. -/
theorem readStmt_record {name : String} {slots : List Slot} {n : Nat} {j : Json} {s : Stmt}
    (hj : Tagged name (Record slots) n j)
    (hread : ∀ m content, Record slots (m + 1) content →
      readStmtWith (list readStmt m) (m + 2) (.tagged name content) = some s) :
    readStmt n j = some s := by
  obtain ⟨m, content, rfl, rfl, h⟩ := hj.opens
  rw [readStmt_eq]
  exact hread m content h

mutual

theorem Stmt.readAs (s : Stmt) : s.spelling.ReadAs readStmt s := by
  intro n j hj
  match s with
  | .expr e =>
    obtain ⟨many, heq⟩ := readStmt_alternatives n
    cases hj with
    | mk h => simp [heq, readStmtWith, e.readAs _ _ h]
  | .giveBack value =>
    obtain ⟨many, heq⟩ := readStmt_alternatives n
    cases hj with
    | mk h =>
      have hvalue := Optional.readAs (fun e _ => e.readAs) (fun e _ => e.spelling_ne_null) _ _ h
      simp [heq, readStmtWith, hvalue]
  | .store slot value =>
    refine readStmt_record hj fun m content h => ?_
    simp only [readStmtWith, alternative_tagged, Option.bind_some, Alternative.record, single_some]
    refine h.read rfl (by decide) ?_
    rintro fs ⟨hslot, hvalue, -⟩
    have hslot := hslot.required fun _ hj => (congrArg readSlot hj).trans (readSlot_toNat slot)
    simp [hslot, hvalue.required (value.readAs m)]
  | .putField object owner field value =>
    refine readStmt_record hj fun m content h => ?_
    simp only [readStmtWith, alternative_tagged, Option.bind_some, Alternative.record, single_some]
    refine h.read rfl (by decide) ?_
    rintro fs ⟨hobject, howner, hfield, hvalue, -⟩
    simp [hobject.required (object.readAs m), howner.text, hfield.text, hvalue.required (value.readAs m)]
  | .putStatic cls field value =>
    refine readStmt_record hj fun m content h => ?_
    simp only [readStmtWith, alternative_tagged, Option.bind_some, Alternative.record, single_some]
    refine h.read rfl (by decide) ?_
    rintro fs ⟨hcls, hfield, hvalue, -⟩
    simp [hcls.text, hfield.text, hvalue.required (value.readAs m)]
  | .branch cond yes no =>
    refine readStmt_record hj fun m content h => ?_
    simp only [readStmtWith, alternative_tagged, Option.bind_some, Alternative.record, single_some]
    refine h.read rfl (by decide) ?_
    rintro fs ⟨hcond, hyes, hno, -⟩
    simp [hcond.required (cond.readAs m), hyes.required (Stmt.readAs_code (Stmt.readAs_all yes) m),
      hno.withDefault (Stmt.readAs_code (Stmt.readAs_all no) m)]
  | .loop cond body =>
    refine readStmt_record hj fun m content h => ?_
    simp only [readStmtWith, alternative_tagged, Option.bind_some, Alternative.record, single_some]
    refine h.read rfl (by decide) ?_
    rintro fs ⟨hcond, hbody, -⟩
    simp [hcond.required (cond.readAs m), hbody.required (Stmt.readAs_code (Stmt.readAs_all body) m)]
  | .superInit args =>
    refine readStmt_record hj fun m content h => ?_
    simp only [readStmtWith, alternative_tagged, Option.bind_some, Alternative.record, single_some]
    refine h.read rfl (by decide) ?_
    rintro fs ⟨hargs, -⟩
    simp [hargs.required (Expr.readAs_args (fun e _ => e.readAs) m)]

theorem Stmt.readAs_all (ss : List Stmt) : ∀ s ∈ ss, s.spelling.ReadAs readStmt s := by
  match ss with
  | [] => simp
  | s :: ss => exact List.forall_mem_cons.2 ⟨s.readAs, Stmt.readAs_all ss⟩

end

/-! ## Classes and units -/

theorem readAs_types (types : List Ty) : ReadAs (Listed (types.map Ty.spelling)) (list readType) types :=
  Listed.readAs fun t _ => t.readAs

theorem Body.readAs (b : Body) : b.spelling.ReadAs readBody b := by
  refine Record.readAs rfl (by decide) ?_
  rintro n fs ⟨hlocals, hcode, -⟩
  have hlocals := hlocals.withDefault fun _ hj => (congrArg readSlot hj).trans (readSlot_toNat b.maxLocals)
  simp [hlocals, hcode.required (Stmt.readAs_code (fun s _ => s.readAs) n)]

theorem FieldDecl.readAs (d : FieldDecl) : d.spelling.ReadAs readField d := by
  refine Record.readAs rfl (by decide) ?_
  rintro n fs ⟨hname, htype, -⟩
  simp [hname.text, htype.required (d.type.readAs n)]

theorem StaticDecl.readAs (d : StaticDecl) : d.spelling.ReadAs readStatic d := by
  refine Record.readAs rfl (by decide) ?_
  rintro n fs ⟨hname, htype, hinit, -⟩
  have hinit := hinit.withDefault
    (Optional.readAs (fun e _ => e.readAs) (fun e _ => e.spelling_ne_null) n)
  simp [hname.text, htype.required (d.type.readAs n), hinit]

theorem ConstructorDecl.readAs (d : ConstructorDecl) : d.spelling.ReadAs readConstructor d := by
  refine Record.readAs rfl (by decide) ?_
  rintro n fs ⟨hparams, hbody, -⟩
  simp [hparams.withDefault (readAs_types d.params n), hbody.required (d.body.readAs n)]

theorem MethodBody.readAs (b : MethodBody) : b.spelling.ReadAs readMethodBody b := by
  intro n j hj
  cases b with
  | managed body =>
    cases hj with
    | mk h => simp [readMethodBody, body.readAs _ _ h]
  | native =>
    obtain ⟨a, halt, hname, hplain⟩ := Plain.alternative hj MethodBody.native
    simp [readMethodBody, halt, hname, hplain]

theorem MethodDecl.readAs (d : MethodDecl) : d.spelling.ReadAs readMethod d := by
  refine Record.readAs rfl (by decide) ?_
  rintro n fs ⟨hname, hparams, hreturns, hstatic, hbody, -⟩
  have hstatic := hstatic.withDefault (fun _ hj => (congrArg boolean hj).trans rfl)
  simp [hname.text, hparams.withDefault (readAs_types d.params n), hreturns.withDefault (d.returns.readAs n),
    hstatic, hbody.required (d.body.readAs n)]

theorem readAs_optionalText (s : Option String) :
    ReadAs (optionalText s) (fun _ => Reader.optional Reader.text) s :=
  Optional.readAs (fun _ _ => exactly_readAs rfl) (fun _ _ _ => nofun)

theorem Body.spelling_ne_null (b : Body) (n : Nat) : ¬ b.spelling n .null := nofun

theorem ClassDecl.readAs (c : ClassDecl) : c.spelling.ReadAs readClass c := by
  refine Record.readAs rfl (by decide) ?_
  rintro n fs ⟨hname, hparent, hfields, hstatics, hblock, hconstructors, hmethods, -⟩
  have hblock := hblock.withDefault
    (Optional.readAs (fun b _ => b.readAs) (fun b _ => b.spelling_ne_null) n)
  simp [hname.text, hparent.withDefault (readAs_optionalText c.parent n),
    hfields.withDefault (Listed.readAs (fun d _ => d.readAs) n),
    hstatics.withDefault (Listed.readAs (fun d _ => d.readAs) n), hblock,
    hconstructors.withDefault (Listed.readAs (fun d _ => d.readAs) n),
    hmethods.withDefault (Listed.readAs (fun d _ => d.readAs) n)]

theorem CompilationUnit.readAs (u : CompilationUnit) : u.spelling.ReadAs readUnit u := by
  refine Record.readAs rfl (by decide) ?_
  rintro n fs ⟨hname, hentry, hclasses, -⟩
  simp [hname.text, hentry.withDefault (readAs_optionalText u.entry n),
    hclasses.withDefault (Listed.readAs (fun c _ => c.readAs) n)]

/-! ## The printed form -/

theorem Literal.allows (l : Literal) : l.spelling.Allows l.toJson := by
  cases l with
  | null => exact Plain.allows _
  | _ => exact Tagged.allows (exactly_allows _)

theorem Expr.allows_args {es : List Expr} (h : ∀ e ∈ es, e.spelling.Allows e.toJson) :
    Allows (Listed (Expr.spellings es)) (.arr (Expr.toJsonList es)) := by
  rw [Expr.spellings_eq, Expr.toJsonList_eq]
  exact Listed.allows h

mutual

theorem Expr.allows (e : Expr) : e.spelling.Allows e.toJson := by
  match e with
  | .literal l => exact Tagged.allows l.allows
  | .slot i => exact Tagged.allows (exactly_allows _)
  | .this => exact Plain.allows _
  | .getField object owner field =>
    refine Tagged.allows (Record.allows ?_)
    exact .written object.allows (.text owner (.text field .done))
  | .getStatic cls field =>
    refine Tagged.allows (Record.allows ?_)
    exact .text cls (.text field .done)
  | .unary op operand =>
    refine Tagged.allows (Record.allows ?_)
    exact .written (Plain.allows op.name) (.written operand.allows .done)
  | .binary op lhs rhs =>
    refine Tagged.allows (Record.allows ?_)
    refine .written (Plain.allows op.name) ?_
    exact .written lhs.allows (.written rhs.allows .done)
  | .create cls args =>
    have hargs := Expr.allows_args (Expr.allows_all args)
    refine Tagged.allows (Record.allows ?_)
    exact .text cls (.written hargs .done)
  | .invokeStatic cls method args =>
    have hargs := Expr.allows_args (Expr.allows_all args)
    refine Tagged.allows (Record.allows ?_)
    exact .text cls (.text method (.written hargs .done))
  | .invokeVirtual receiver method args =>
    have hargs := Expr.allows_args (Expr.allows_all args)
    refine Tagged.allows (Record.allows ?_)
    exact .written receiver.allows (.text method (.written hargs .done))
  | .invokeSuper method args =>
    have hargs := Expr.allows_args (Expr.allows_all args)
    refine Tagged.allows (Record.allows ?_)
    exact .text method (.written hargs .done)

theorem Expr.allows_all (es : List Expr) : ∀ e ∈ es, e.spelling.Allows e.toJson := by
  match es with
  | [] => simp
  | e :: es => exact List.forall_mem_cons.2 ⟨e.allows, Expr.allows_all es⟩

end

theorem Stmt.allows_code {ss : List Stmt} (h : ∀ s ∈ ss, s.spelling.Allows s.toJson) :
    Allows (Listed (Stmt.spellings ss)) (.arr (Stmt.toJsonList ss)) := by
  rw [Stmt.spellings_eq, Stmt.toJsonList_eq]
  exact Listed.allows h

mutual

theorem Stmt.allows (s : Stmt) : s.spelling.Allows s.toJson := by
  match s with
  | .expr e => exact Tagged.allows e.allows
  | .giveBack none => exact Tagged.allows fun _ _ => .absent
  | .giveBack (some e) => exact Tagged.allows (Optional.allows_some e.allows)
  | .store slot value =>
    refine Tagged.allows (Record.allows ?_)
    exact .written (exactly_allows _) (.written value.allows .done)
  | .putField object owner field value =>
    refine Tagged.allows (Record.allows ?_)
    refine .written object.allows ?_
    exact .text owner (.text field (.written value.allows .done))
  | .putStatic cls field value =>
    refine Tagged.allows (Record.allows ?_)
    exact .text cls (.text field (.written value.allows .done))
  | .branch cond yes no =>
    have hyes := Stmt.allows_code (Stmt.allows_all yes)
    have hno := Stmt.allows_code (Stmt.allows_all no)
    refine Tagged.allows (Record.allows ?_)
    exact .written cond.allows (.written hyes (.written hno .done))
  | .loop cond body =>
    have hbody := Stmt.allows_code (Stmt.allows_all body)
    refine Tagged.allows (Record.allows ?_)
    exact .written cond.allows (.written hbody .done)
  | .superInit args =>
    have hargs := Expr.allows_args fun e (_ : e ∈ args) => e.allows
    refine Tagged.allows (Record.allows ?_)
    exact .written hargs .done

theorem Stmt.allows_all (ss : List Stmt) : ∀ s ∈ ss, s.spelling.Allows s.toJson := by
  match ss with
  | [] => simp
  | s :: ss => exact List.forall_mem_cons.2 ⟨s.allows, Stmt.allows_all ss⟩

end

theorem Ty.allows (t : Ty) : t.spelling.Allows t.toJson := Plain.allows t.name

theorem allows_types (types : List Ty) : Allows (Listed (types.map Ty.spelling)) (typesToJson types) :=
  Listed.allows fun t _ => t.allows

theorem Body.allows (b : Body) : b.spelling.Allows b.toJson :=
  Record.allows (.written (exactly_allows _) (.written (Stmt.allows_code fun s _ => s.allows) .done))

theorem FieldDecl.allows (d : FieldDecl) : d.spelling.Allows d.toJson :=
  Record.allows (.text d.name (.written d.type.allows .done))

theorem StaticDecl.allows (d : StaticDecl) : d.spelling.Allows d.toJson := by
  obtain ⟨name, type, init⟩ := d
  refine Record.allows (.text name (.written type.allows ?_))
  cases init with
  | none => exact .omitted rfl .done
  | some e => exact .written (Optional.allows_some e.allows) .done

theorem ConstructorDecl.allows (d : ConstructorDecl) : d.spelling.Allows d.toJson :=
  Record.allows (.written (allows_types d.params) (.written d.body.allows .done))

theorem MethodBody.allows (b : MethodBody) : b.spelling.Allows b.toJson := by
  cases b with
  | managed body => exact Tagged.allows body.allows
  | native => exact Plain.allows _

theorem MethodDecl.allows (d : MethodDecl) : d.spelling.Allows d.toJson := by
  refine Record.allows (.text d.name ?_)
  refine .written (allows_types d.params) (.written d.returns.allows ?_)
  exact .written (exactly_allows _) (.written d.body.allows .done)

theorem ClassDecl.allows (c : ClassDecl) : c.spelling.Allows c.toJson := by
  refine Record.allows ?_
  simp only [List.append_assoc]
  refine .text c.name (Writes.present c.parent (fun _ => exactly_allows _) ?_)
  refine .written (Listed.allows fun d _ => d.allows) (.written (Listed.allows fun d _ => d.allows) ?_)
  refine Writes.present c.staticBlock Body.allows ?_
  exact .written (Listed.allows fun d _ => d.allows) (.written (Listed.allows fun d _ => d.allows) .done)

theorem CompilationUnit.allows (u : CompilationUnit) : u.spelling.Allows u.toJson := by
  refine Record.allows ?_
  simp only [List.append_assoc]
  refine .text u.name (Writes.present u.entry (fun _ => exactly_allows _) ?_)
  exact .written (Listed.allows fun c _ => c.allows) .done

/-- The printed unit is one of the texts, unless it nests too deep. -/
theorem CompilationUnit.respelled_print {u : CompilationUnit} (h : u.toJson.depth ≤ nestingLimit) :
    u.Respelled u.print := by
  refine ⟨u.toJson, u.allows nestingLimit h, ?_⟩
  rw [print, String.toList_ofList]
  exact mem_unpadded (pretty_mem_written 0 u.toJson u.whole_toJson)

/-! ## Main statement -/

/-- All spellings of a unit decode alike. Whatever the order of the members, the blanks and the escapes, and
whichever further members there are, defaults are left out, absent parts are null, alternatives without
content have null for it and records are arrays: the text is read, and as the unit. -/
theorem CompilationUnit.parse?_respelled {u : CompilationUnit} {text : String} (h : u.Respelled text) :
    parse? text = some u := by
  obtain ⟨j, hj, htext⟩ := h
  unfold parse? readDocument
  rw [Json.parse?_document htext]
  exact u.readAs nestingLimit j hj

def motleyUnit : CompilationUnit :=
  { name := "u", classes := [{ name := "A" }, { name := "B", fields := [⟨"f", .int⟩] }] }

/-- A unit file with an escaped key and a member of its own, whose first class and only field are arrays. -/
def motleyFile : String :=
  "\x7b\"x\":1.5, \"\\u0063lasses\":[[\"A\"],\x7b\"fields\":[[\"f\",\x7b\"int\":null\x7d]]," ++
  "\"parent\":null,\"name\":\"B\"\x7d],\"name\":\"u\"\x7d"

/-- The second class of the file. -/
def motleyClass : Json :=
  .object [("fields", .arr [.arr [.string "f", .tagged "int" .null]]), ("parent", .null),
    ("name", .string "B")]

def motleyJson : Json :=
  .object [("x", .float ['1', '.', '5']), ("classes", .arr [.arr [.string "A"], motleyClass]),
    ("name", .string "u")]

theorem motleyJson_spells : motleyUnit.spelling nestingLimit motleyJson := by
  have hA : ClassDecl.spelling { name := "A" } 125 (.arr [.string "A"]) := by
    refine .array (.filled rfl ?_)
    exact .omitted rfl (.omitted rfl (.omitted rfl (.omitted rfl (.omitted rfl (.omitted rfl .done)))))
  have hf : FieldDecl.spelling ⟨"f", .int⟩ 123 (.arr [.string "f", .tagged "int" .null]) :=
    .array (.filled rfl (.filled .withNull .done))
  have hB : ClassDecl.spelling { name := "B", fields := [⟨"f", .int⟩] } 125 motleyClass := by
    refine .object ?_
    have hparent : optionalText none 124 .null := .absent
    simpa [Slot.text, Slot.required, Slot.Fills, exactly, hparent] using Listed.mk (.cons hf .nil)
  refine .object ?_
  simpa [motleyUnit, Slot.text, Slot.required, Slot.Fills, exactly] using Listed.mk (.cons hA (.cons hB .nil))

theorem motleyFile_mem : motleyFile.toList ∈ document motleyJson := by
  have hname (s : String) : printString (some s) ∈ padded (quoted (some s)) :=
    mem_unpadded (printString_mem_quoted (some s))
  have hnull : "null".toList ∈ padded (written .null) := mem_unpadded rfl
  -- the classes, from the inside out
  have hint : _ ∈ written (.tagged "int" .null) :=
    mem_enclosed '\x7b' '\x7d' (mem_writtenMembers_one (hname "int") hnull)
  have hf : _ ∈ written (.arr [.string "f", .tagged "int" .null]) :=
    mem_enclosed '[' ']' (mem_writtenItems_cons (hname "f") (mem_unpadded hint))
  have hfields : _ ∈ written (.arr [.arr [.string "f", .tagged "int" .null]]) :=
    mem_enclosed '[' ']' (mem_unpadded hf)
  have hB : _ ∈ written motleyClass :=
    mem_enclosed '\x7b' '\x7d' (mem_writtenMembers_cons (hname "fields") (mem_unpadded hfields)
      (mem_writtenMembers_cons (hname "parent") hnull (mem_writtenMembers_one (hname "name") (hname "B"))))
  have hA : _ ∈ written (.arr [.string "A"]) := mem_enclosed '[' ']' (hname "A")
  have hclasses : _ ∈ written (.arr [.arr [.string "A"], motleyClass]) :=
    mem_enclosed '[' ']' (mem_writtenItems_cons (mem_unpadded hA) (mem_unpadded hB))
  have hescaped : '"' :: (['\\', 'u', '0', '0', '6', '3'] ++ "lasses".toList.flatMap escapeChar) ++ ['"'] ∈
      quoted (some "classes") :=
    mem_quoted (.alone 'c' (spells_toNat "lasses".toList)) (Language.append_mem_mul
      (WritesPoint.unit (.mk rfl rfl rfl rfl rfl)) (escapeChars_mem_points "lasses".toList))
  have hx : ['1', '.', '5'] ∈ written (.float ['1', '.', '5']) := by
    have hone : ['1'] ∈ naturals := ⟨1, by decide⟩
    have hfive : ['5'] ∈ digits := ⟨by simp, by simp [NumberPhase.isDigit]⟩
    have hfraction : ['.'] ++ ['5'] ∈ fraction := Language.append_mem_mul rfl hfive
    have hunsigned : [] ++ ['1'] ∈ ({[], ['-']} : Language Char) * naturals :=
      Language.append_mem_mul (.inl rfl) hone
    exact ⟨rfl, .inl (Language.append_mem_mul hunsigned (.inl (.inl hfraction)))⟩
  obtain ⟨cs, hcs, heq⟩ : ∃ cs ∈ document motleyJson, cs = motleyFile.toList :=
    ⟨_, mem_unpadded (mem_enclosed '\x7b' '\x7d' (mem_writtenMembers_cons (hname "x") (mem_unpadded hx)
      (mem_writtenMembers_cons (mem_padded blank_mem_blanks hescaped nil_mem_blanks) (mem_unpadded hclasses)
        (mem_writtenMembers_one (hname "name") (hname "u"))))), by decide +kernel⟩
  exact heq ▸ hcs

/-- The file is a text of the unit, and read as the unit. -/
theorem CompilationUnit.parse?_respelled_motley :
    motleyUnit.Respelled motleyFile ∧ parse? motleyFile = some motleyUnit :=
  have h : motleyUnit.Respelled motleyFile := ⟨motleyJson, motleyJson_spells, motleyFile_mem⟩
  ⟨h, parse?_respelled h⟩

end ObjectMachine
