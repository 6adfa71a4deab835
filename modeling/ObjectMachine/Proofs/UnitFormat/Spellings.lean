/-
Unit files that were written in another way: records as arrays, further members, and members left out that
stand for a default. What is read from such a file does not nest deeper, in the form it is printed in,
than the reader could open. Only where a list was left out may the printed form open an array more; the
deepest of these lists, the parameters of a method, has five arrays and objects around it, which is less
than any file may open. So a unit that was read once is read again after it has been printed.
-/
import ObjectMachine.Proofs.UnitFormat.RoundTrip

namespace ObjectMachine

open Json Json.Reader

/-! ## Literals and expressions -/

theorem Literal.depth_toJson {n : Nat} {j : Json} {l : Literal} (hl : readLiteral n j = some l) :
    l.toJson.depth ≤ n := by
  obtain ⟨alt, halt, hread⟩ := Option.bind_eq_some_iff.1 hl
  split at hread
  · rw [plain_eq_some hread]; exact Nat.zero_le n
  case h_6 => cases hread
  all_goals
    obtain ⟨m, content, rfl, hcontent⟩ := single_eq_some halt hread
    obtain ⟨x, -, rfl⟩ := Option.map_eq_some_iff.1 hcontent
    simp [Literal.toJson]

/-- What is in the record of an expression is read from values that nest no deeper than `n`. -/
structure InnerDepth (one : Json → Option Expr) (many : Json → Option (List Expr)) (n : Nat) : Prop where
  one : ∀ {e}, (∃ j, one j = some e) → e.toJson.depth ≤ n
  many : ∀ {es}, (∃ j, many j = some es) → depthItems (Expr.toJsonList es) + 1 ≤ n

theorem readExprWith_depth {one : Json → Option Expr} {many : Json → Option (List Expr)} {n : Nat} {j : Json}
    {e : Expr} (hinner : ∀ m, n = m + 2 → InnerDepth one many m) (he : readExprWith one many n j = some e) :
    e.toJson.depth ≤ n := by
  obtain ⟨alt, halt, hread⟩ := Option.bind_eq_some_iff.1 he
  split at hread
  case h_1 =>
    obtain ⟨m, content, rfl, hcontent⟩ := single_eq_some halt hread
    obtain ⟨l, hl, rfl⟩ := Option.map_eq_some_iff.1 hcontent
    simpa [Expr.toJson] using Literal.depth_toJson hl
  case h_2 =>
    obtain ⟨m, content, rfl, hcontent⟩ := single_eq_some halt hread
    obtain ⟨i, -, rfl⟩ := Option.map_eq_some_iff.1 hcontent
    simp [Expr.toJson]
  case h_3 => rw [plain_eq_some hread]; exact Nat.zero_le n
  case h_12 => cases hread
  -- the records
  all_goals
    obtain ⟨m, fs, rfl, hfs⟩ := recordAlternative_eq_some halt hread
    have hin := hinner m rfl
    simp only [Option.bind_eq_bind, Option.bind_eq_some_iff, Option.pure_def, Option.some.injEq] at hfs
  case h_4 =>
    obtain ⟨object, hobject, owner, -, field, -, rfl⟩ := hfs
    simpa [Expr.toJson] using hin.one (required_eq_some hobject)
  case h_5 =>
    obtain ⟨cls, -, field, -, rfl⟩ := hfs
    simp [Expr.toJson]
  case h_6 =>
    obtain ⟨op, -, operand, hoperand, rfl⟩ := hfs
    simpa [Expr.toJson] using hin.one (required_eq_some hoperand)
  case h_7 =>
    obtain ⟨op, -, lhs, hlhs, rhs, hrhs, rfl⟩ := hfs
    simpa [Expr.toJson] using And.intro (hin.one (required_eq_some hlhs)) (hin.one (required_eq_some hrhs))
  case h_8 =>
    obtain ⟨cls, -, args, hargs, rfl⟩ := hfs
    simpa [Expr.toJson] using hin.many (required_eq_some hargs)
  case h_9 =>
    obtain ⟨cls, -, method, -, args, hargs, rfl⟩ := hfs
    simpa [Expr.toJson] using hin.many (required_eq_some hargs)
  case h_10 =>
    obtain ⟨receiver, hreceiver, method, -, args, hargs, rfl⟩ := hfs
    simpa [Expr.toJson] using
      And.intro (hin.one (required_eq_some hreceiver)) (hin.many (required_eq_some hargs))
  case h_11 =>
    obtain ⟨method, -, args, hargs, rfl⟩ := hfs
    simpa [Expr.toJson] using hin.many (required_eq_some hargs)

/-- The list nests no deeper than what it was read from may. -/
theorem list_depth {α : Type} {read : Nat → Json → Option α} (write : α → Json) {n k : Nat} {xs : List α}
    (hread : ∀ m < n, ∀ j x, read m j = some x → (write x).depth ≤ max m k)
    (h : ∃ j, list read n j = some xs) : 1 ≤ n ∧ depthItems (xs.map write) + 1 ≤ max n (k + 1) := by
  obtain ⟨j, hj⟩ := h
  obtain ⟨m, rfl, hxs⟩ := list_eq_some hj
  have hitems : depthItems (xs.map write) ≤ max m k := by
    refine depthItems_le.2 fun j hj => ?_
    obtain ⟨x, hx, rfl⟩ := List.mem_map.1 hj
    obtain ⟨j, hj⟩ := hxs x hx
    exact hread m (by omega) j x hj
  omega

theorem readExpr_depth (n : Nat) : ∀ j e, readExpr n j = some e → e.toJson.depth ≤ n := by
  induction n using Nat.strong_induction_on with
  | h n ih =>
    intro j e he
    obtain _ | _ | n := n
    · exact readExprWith_depth (fun m hm => absurd hm (by omega)) he
    · exact readExprWith_depth (fun m hm => absurd hm (by omega)) he
    · rw [readExpr_succ] at he
      refine readExprWith_depth (fun m hm => ?_) he
      obtain rfl : n = m := by omega
      refine ⟨fun ⟨j, hj⟩ => ih n (by omega) j _ hj, fun hes => ?_⟩
      obtain ⟨hpos, hdepth⟩ := list_depth Expr.toJson (k := 0)
        (fun m hm j e he => by have := ih m (by omega) j e he; omega) hes
      rw [Expr.toJsonList_eq]
      omega

theorem readExpr_depth_list {n : Nat} {es : List Expr} (h : ∃ j, list readExpr n j = some es) :
    depthItems (Expr.toJsonList es) + 1 ≤ n := by
  have hread : ∀ m < n, ∀ j e, readExpr m j = some e → e.toJson.depth ≤ max m 0 := fun m _ j e he =>
    (readExpr_depth m j e he).trans (Nat.le_max_left m 0)
  obtain ⟨hpos, hdepth⟩ := list_depth Expr.toJson hread h
  rw [Expr.toJsonList_eq]
  omega

/-! ## Statements -/

theorem readStmtWith_depth {many : Json → Option (List Stmt)} {n : Nat} {j : Json} {s : Stmt}
    (hinner : ∀ m, n = m + 2 → ∀ {ss}, (∃ j, many j = some ss) → depthItems (Stmt.toJsonList ss) + 1 ≤ m)
    (hs : readStmtWith many n j = some s) : s.toJson.depth ≤ n := by
  obtain ⟨alt, halt, hread⟩ := Option.bind_eq_some_iff.1 hs
  have hexpr {m : Nat} {e : Expr} (he : ∃ j, readExpr m j = some e) : e.toJson.depth ≤ m := by
    obtain ⟨j, hj⟩ := he
    exact readExpr_depth m j e hj
  split at hread
  case h_1 =>
    obtain ⟨m, content, rfl, hcontent⟩ := single_eq_some halt hread
    obtain ⟨e, he, rfl⟩ := Option.map_eq_some_iff.1 hcontent
    simpa [Stmt.toJson] using hexpr ⟨_, he⟩
  case h_7 =>
    obtain ⟨m, content, rfl, hcontent⟩ := single_eq_some halt hread
    obtain ⟨value, hvalue, rfl⟩ := Option.map_eq_some_iff.1 hcontent
    cases value with
    | none => simp [Stmt.toJson]
    | some e => simpa [Stmt.toJson] using hexpr ⟨_, optional_eq_some hvalue e rfl⟩
  case h_9 => cases hread
  -- the records
  all_goals
    obtain ⟨m, fs, rfl, hfs⟩ := recordAlternative_eq_some halt hread
    have hmany := @hinner m rfl
    simp only [Option.bind_eq_bind, Option.bind_eq_some_iff, Option.pure_def, Option.some.injEq] at hfs
  case h_2 =>
    obtain ⟨slot, -, value, hvalue, rfl⟩ := hfs
    simpa [Stmt.toJson] using hexpr (required_eq_some hvalue)
  case h_3 =>
    obtain ⟨object, hobject, owner, -, field, -, value, hvalue, rfl⟩ := hfs
    simpa [Stmt.toJson] using
      And.intro (hexpr (required_eq_some hobject)) (hexpr (required_eq_some hvalue))
  case h_4 =>
    obtain ⟨cls, -, field, -, value, hvalue, rfl⟩ := hfs
    simpa [Stmt.toJson] using hexpr (required_eq_some hvalue)
  case h_5 =>
    obtain ⟨cond, hcond, yes, hyes, no, hno, rfl⟩ := hfs
    have hcond := hexpr (required_eq_some hcond)
    have hyes := hmany (required_eq_some hyes)
    -- an array was opened for the first branch, so that there is room for the other one
    have hno : depthItems (Stmt.toJsonList no) + 1 ≤ m := by
      rcases withDefault_eq_some hno with rfl | hno
      · simp only [Stmt.toJsonList, depthItems]; omega
      · exact hmany hno
    simp only [Stmt.toJson, depth_tagged, depth_object, List.map, depth_arr, List.foldr]
    omega
  case h_6 =>
    obtain ⟨cond, hcond, body, hbody, rfl⟩ := hfs
    simpa [Stmt.toJson] using And.intro (hexpr (required_eq_some hcond)) (hmany (required_eq_some hbody))
  case h_8 =>
    obtain ⟨args, hargs, rfl⟩ := hfs
    simpa [Stmt.toJson] using readExpr_depth_list (required_eq_some hargs)

theorem readStmt_depth (n : Nat) : ∀ j s, readStmt n j = some s → s.toJson.depth ≤ n := by
  induction n using Nat.strong_induction_on with
  | h n ih =>
    intro j s hs
    obtain _ | _ | n := n
    · exact readStmtWith_depth (fun m hm => absurd hm (by omega)) hs
    · exact readStmtWith_depth (fun m hm => absurd hm (by omega)) hs
    · rw [readStmt_eq] at hs
      refine readStmtWith_depth (fun m hm {ss} hss => ?_) hs
      obtain rfl : n = m := by omega
      obtain ⟨hpos, hdepth⟩ := list_depth Stmt.toJson (k := 0)
        (fun m hm j s hs => (ih m (by omega) j s hs).trans (Nat.le_max_left m 0)) hss
      rw [Stmt.toJsonList_eq]
      omega

/-! ## Classes and units -/

theorem readBody_depth {n : Nat} {j : Json} {b : Body} (h : readBody n j = some b) : b.toJson.depth ≤ n := by
  obtain ⟨m, fs, rfl, hfs⟩ := record_eq_some h
  simp only [Option.bind_eq_bind, Option.bind_eq_some_iff, Option.pure_def, Option.some.injEq] at hfs
  obtain ⟨maxLocals, -, code, hcode, rfl⟩ := hfs
  obtain ⟨hpos, hdepth⟩ := list_depth Stmt.toJson (k := 0)
    (fun m _ j s hs => (readStmt_depth m j s hs).trans (Nat.le_max_left m 0)) (required_eq_some hcode)
  simp [Body.toJson, Stmt.toJsonList_eq]
  omega

theorem readField_depth {n : Nat} {j : Json} {d : FieldDecl} (h : readField n j = some d) :
    d.toJson.depth ≤ n := by
  obtain ⟨m, fs, rfl, -⟩ := record_eq_some h
  simp [FieldDecl.toJson]

theorem readStatic_depth {n : Nat} {j : Json} {d : StaticDecl} (h : readStatic n j = some d) :
    d.toJson.depth ≤ n := by
  obtain ⟨m, fs, rfl, hfs⟩ := record_eq_some h
  simp only [Option.bind_eq_bind, Option.bind_eq_some_iff, Option.pure_def, Option.some.injEq] at hfs
  obtain ⟨name, -, type, -, init, hinit, rfl⟩ := hfs
  cases init with
  | none => simp [StaticDecl.toJson, Json.present]
  | some e =>
    obtain heq | ⟨j, hj⟩ := withDefault_eq_some hinit
    · cases heq
    · simpa [StaticDecl.toJson, Json.present] using readExpr_depth m _ e (optional_eq_some hj e rfl)

/-- A list that stands for no items when it is left out. -/
theorem listDefault_depth {α : Type} {read : Nat → Json → Option α} (write : α → Json) {n k : Nat}
    {fs : Fields} {name : String} {xs : List α}
    (hread : ∀ m < n, ∀ j x, read m j = some x → (write x).depth ≤ max m k)
    (h : fs.withDefault name [] (list read n) = some xs) :
    depthItems (xs.map write) + 1 ≤ max n (k + 1) := by
  rcases withDefault_eq_some h with rfl | hxs
  · simp only [List.map_nil, depthItems]; omega
  · exact (list_depth write hread hxs).2

theorem typesDefault_depth {n : Nat} {fs : Fields} {name : String} {types : List Ty}
    (h : fs.withDefault name [] (list readType n) = some types) : (typesToJson types).depth ≤ max n 1 :=
  listDefault_depth Ty.toJson (k := 0) (fun _ _ _ _ _ => Nat.zero_le _) h

theorem Body.depth_pos (b : Body) : 2 ≤ b.toJson.depth := by
  simp [Body.toJson]

theorem readConstructor_depth {n : Nat} {j : Json} {d : ConstructorDecl}
    (h : readConstructor n j = some d) : d.toJson.depth ≤ n := by
  obtain ⟨m, fs, rfl, hfs⟩ := record_eq_some h
  simp only [Option.bind_eq_bind, Option.bind_eq_some_iff, Option.pure_def, Option.some.injEq] at hfs
  obtain ⟨params, hparams, body, hbody, rfl⟩ := hfs
  obtain ⟨j, hj⟩ := required_eq_some hbody
  have hparams := typesDefault_depth hparams
  have hbody := readBody_depth hj
  have hpos := body.depth_pos
  simp only [ConstructorDecl.toJson, depth_object, List.map, List.foldr]
  omega

theorem readMethodBody_depth {n : Nat} {j : Json} {b : MethodBody} (hb : readMethodBody n j = some b) :
    b.toJson.depth ≤ n := by
  obtain ⟨alt, halt, hread⟩ := Option.bind_eq_some_iff.1 hb
  split at hread
  · obtain ⟨m, content, rfl, hcontent⟩ := single_eq_some halt hread
    obtain ⟨body, hbody, rfl⟩ := Option.map_eq_some_iff.1 hcontent
    simpa [MethodBody.toJson] using readBody_depth hbody
  · rw [plain_eq_some hread]
    exact Nat.zero_le n
  · cases hread

/-- A method may leave its parameters out, where its printed form has an array of none. -/
theorem readMethod_depth {n : Nat} {j : Json} {d : MethodDecl} (h : readMethod n j = some d) :
    d.toJson.depth ≤ max n 2 := by
  obtain ⟨m, fs, rfl, hfs⟩ := record_eq_some h
  simp only [Option.bind_eq_bind, Option.bind_eq_some_iff, Option.pure_def, Option.some.injEq] at hfs
  obtain ⟨name, -, params, hparams, returns, -, isStatic, -, body, hbody, rfl⟩ := hfs
  obtain ⟨j, hj⟩ := required_eq_some hbody
  have hparams := typesDefault_depth hparams
  have hbody := readMethodBody_depth hj
  simp only [MethodDecl.toJson, depth_object, List.map, List.foldr, depth_string, depth_bool, Ty.depth_toJson]
  omega

theorem readClass_depth {n : Nat} {j : Json} {c : ClassDecl} (h : readClass n j = some c) :
    c.toJson.depth ≤ max n 4 := by
  obtain ⟨m, fs, rfl, hfs⟩ := record_eq_some h
  simp only [Option.bind_eq_bind, Option.bind_eq_some_iff, Option.pure_def, Option.some.injEq] at hfs
  obtain ⟨name, -, parent, -, fields, hfields, statics, hstatics, block, hblock, constructors, hconstructors,
    methods, hmethods, rfl⟩ := hfs
  have hfields := listDefault_depth FieldDecl.toJson (k := 0)
    (fun m _ j d hd => (readField_depth hd).trans (Nat.le_max_left m 0)) hfields
  have hstatics := listDefault_depth StaticDecl.toJson (k := 0)
    (fun m _ j d hd => (readStatic_depth hd).trans (Nat.le_max_left m 0)) hstatics
  have hconstructors := listDefault_depth ConstructorDecl.toJson (k := 0)
    (fun m _ j d hd => (readConstructor_depth hd).trans (Nat.le_max_left m 0)) hconstructors
  have hmethods := listDefault_depth MethodDecl.toJson (k := 2) (fun m _ j d => readMethod_depth) hmethods
  have hblock : ∀ b ∈ block, b.toJson.depth ≤ m := by
    intro b hb
    rcases withDefault_eq_some hblock with rfl | ⟨j, hj⟩
    · cases hb
    · exact readBody_depth (optional_eq_some hj b hb)
  cases parent <;> cases block
  all_goals
    simp [ClassDecl.toJson, Json.present] at hblock ⊢
    omega

theorem readUnit_depth {n : Nat} {j : Json} {u : CompilationUnit} (h : readUnit n j = some u) :
    u.toJson.depth ≤ max n 6 := by
  obtain ⟨m, fs, rfl, hfs⟩ := record_eq_some h
  simp only [Option.bind_eq_bind, Option.bind_eq_some_iff, Option.pure_def, Option.some.injEq] at hfs
  obtain ⟨name, -, entry, -, classes, hclasses, rfl⟩ := hfs
  have hclasses := listDefault_depth ClassDecl.toJson (k := 4) (fun m _ j c => readClass_depth) hclasses
  cases entry
  all_goals
    simp [CompilationUnit.toJson, Json.present]
    omega

/-- Unit files carry units faithfully. A unit that nests at most 127 arrays and objects in its JSON form is
read back from its own text, whatever its names, texts, statements and expressions are; one that nests
deeper is refused. And a unit that was read from any text at all, however it was spelled there, is read back
from its own. -/
theorem CompilationUnit.roundTrip (u : CompilationUnit) :
    parse? u.print = (if u.toJson.depth ≤ nestingLimit then some u else none) ∧
      ∀ text, parse? text = some u → parse? u.print = some u := by
  refine ⟨u.parse?_print, fun text htext => ?_⟩
  obtain ⟨j, -, hj⟩ := Option.bind_eq_some_iff.1 htext
  have hdepth : u.toJson.depth ≤ nestingLimit := readUnit_depth hj
  rw [u.parse?_print, if_pos hdepth]

/-- A unit file that writes the unit as an array, has a member of its own, and leaves out what it can. -/
def terseFile : String :=
  "[\"terse\", null, [\x7b\"since\": [1.5, []], \"methods\": [\x7b\"body\": \"Native\", \"name\": \"f\"\x7d], " ++
  "\"name\": \"A\"\x7d]]"

/-- The unit is read, and read again from its own text, which has an array more than the file. -/
theorem CompilationUnit.roundTrip_terse : ∃ u, parse? terseFile = some u ∧ parse? u.print = some u ∧
    u.toJson.depth = 6 := by
  have hread : parse? terseFile = some { name := "terse", classes := [
      { name := "A", methods := [.native "f" [] .void false] }] } := by decide +kernel
  exact ⟨_, hread, (roundTrip _).2 terseFile hread, by decide +kernel⟩

end ObjectMachine
