/-
Programs without loops come to an end. Every piece of work that a state holds, which is what is being
done and each continuation on the stack, has a level, the number of calls that may still be nested in
it, and a weight, by the size of the code that it stands for. A step replaces a piece of work by smaller
ones: by pieces of less weight on the same level, or by anything one level down. So the bag of all
pieces gets smaller in the multiset order.

The initialization of a class is the one thing that brings in new code without going a level down; but
then one class fewer waits for its initialization, and none ever waits again. A step that does not
start an initialization gets by on the bag.
-/
import ObjectMachine.Proofs.Exec.Contents
import ObjectMachine.Proofs.Exec.Depth
import ObjectMachine.Proofs.Init.Progress
import Mathlib.Data.Multiset.DershowitzManna
import Mathlib.Data.Prod.Lex

namespace ObjectMachine

/-! ## Code without loops -/

mutual

/-- No loop stands in the statement, at any depth. -/
def Stmt.loopFree : Stmt → Bool
  | .branch _ yes no => Stmt.loopFreeList yes && Stmt.loopFreeList no
  | .loop _ _ => false
  | _ => true

def Stmt.loopFreeList : List Stmt → Bool
  | [] => true
  | st :: rest => Stmt.loopFree st && Stmt.loopFreeList rest

end

/-- No method, constructor or static block of the class has a loop. -/
def ClassDecl.LoopFree (d : ClassDecl) : Prop := ∀ body ∈ d.bodies, ∀ st ∈ body.code, st.loopFree = true

theorem Stmt.loopFreeList_iff {sts : List Stmt} :
    Stmt.loopFreeList sts = true ↔ ∀ st ∈ sts, st.loopFree = true := by
  induction sts with
  | nil => simp [Stmt.loopFreeList]
  | cons st rest ih => simp [Stmt.loopFreeList, ih]

/-- Any handle, and statements without loops. -/
def loopFreeRealm : Realm := ⟨fun _ => True, fun _ st => st.loopFree = true⟩

theorem loopFreeRealm_covers {r : Registry} (h : ∀ c, r.Has c → c.source.LoopFree) :
    loopFreeRealm.Covers r where
  branch := by
    intro c cond yes no hst
    obtain ⟨hyes, hno⟩ := Bool.and_eq_true_iff.1 hst
    exact List.forall_mem_append.2 ⟨Stmt.loopFreeList_iff.1 hyes, Stmt.loopFreeList_iff.1 hno⟩
  loop := nofun
  bodies := h
  hosts := fun _ _ f _ view args _ _ => HostProgram.in_of_all (fun _ => trivial) _

/-! ## Sizes -/

mutual

/-- The number of nodes of an expression. -/
def Expr.size : Expr → Nat
  | .getField object _ _ => Expr.size object + 1
  | .unary _ operand => Expr.size operand + 1
  | .binary _ lhs rhs => Expr.size lhs + Expr.size rhs + 1
  | .create _ args | .invokeStatic _ _ args | .invokeSuper _ args => Expr.sizeList args + 1
  | .invokeVirtual receiver _ args => Expr.size receiver + Expr.sizeList args + 1
  | _ => 1

def Expr.sizeList : List Expr → Nat
  | [] => 1
  | e :: rest => Expr.size e + Expr.sizeList rest + 1

end

mutual

/-- The number of nodes of a statement. -/
def Stmt.size : Stmt → Nat
  | .expr e | .store _ e | .putStatic _ _ e => e.size + 1
  | .putField object _ _ value => object.size + value.size + 1
  | .branch cond yes no => cond.size + Stmt.sizeList yes + Stmt.sizeList no + 1
  | .loop cond body => cond.size + Stmt.sizeList body + 1
  | .giveBack value => (value.map Expr.size).getD 0 + 1
  | .superInit args => Expr.sizeList args + 1

def Stmt.sizeList : List Stmt → Nat
  | [] => 1
  | st :: rest => Stmt.size st + Stmt.sizeList rest + 1

end

/-- The size of the static fields from some on, with the static block. -/
def Class.staticsSize (c : Class) : List StaticDecl → Nat
  | [] => (c.staticBlock?.map fun block => Stmt.sizeList block.code).getD 0 + 1
  | decl :: rest => (decl.init.map Expr.size).getD 0 + c.staticsSize rest + 2

theorem Stmt.sizeList_pos (sts : List Stmt) : 0 < Stmt.sizeList sts := by
  cases sts <;> simp [Stmt.sizeList]

theorem Stmt.sizeList_append (a b : List Stmt) :
    Stmt.sizeList (a ++ b) + 1 = Stmt.sizeList a + Stmt.sizeList b := by
  induction a with
  | nil => simp only [List.nil_append, Stmt.sizeList]; omega
  | cons st rest ih => simp only [List.cons_append, Stmt.sizeList]; omega

/-! ## Work -/

/-- The weight of a continuation. Three for each node of its code leaves room for the steps
between one piece of code and the next. -/
def Cont.weight : Cont → Nat
  | .binaryLeft _ rhs f => 3 * (rhs.size + Stmt.sizeList f.code) + 1
  | .receiver _ args f => 3 * (Expr.sizeList args + Stmt.sizeList f.code) + 1
  | .argument _ _ after f => 3 * (Expr.sizeList after + Stmt.sizeList f.code)
  | .putObject _ _ value f => 3 * (value.size + Stmt.sizeList f.code) + 2
  | .branch yes no f => 3 * (Stmt.sizeList yes + Stmt.sizeList no + Stmt.sizeList f.code) + 1
  | .putStatic _ _ f => 3 * Stmt.sizeList f.code + 2
  | .readField _ _ f | .discard f | .store _ f | .putValue _ _ _ f => 3 * Stmt.sizeList f.code + 1
  | .giveBack f | .resume f | .superDone f | .loop _ _ f => 3 * Stmt.sizeList f.code + 1
  | .ownStatics c => 3 * c.staticsSize c.statics + 1
  | .staticValue c _ _ rest => 3 * c.staticsSize rest + 1
  | .thenCreate _ _ | .thenInvoke _ _ _ => 3
  | _ => 1

def Control.weight : Control → Nat
  | .eval f e => 3 * (e.size + Stmt.sizeList f.code)
  | .exec f => 3 * Stmt.sizeList f.code
  | .statics c _ rest => 3 * c.staticsSize rest
  | .create _ _ | .enter _ _ _ _ => 2
  | .init _ | .host _ _ _ => 1
  | .answer _ | .raise _ => 0

/-- A piece of work: how many calls may still be nested in it, and its weight. -/
abbrev Work : Type := ℕ ×ₗ ℕ

/-- A piece of work right above a stack. -/
def Work.above (limit : Nat) (K : List Cont) (weight : Nat) : Work := toLex (limit - activations K, weight)

/-- The work on a stack. -/
def stackWork (limit : Nat) : List Cont → Multiset Work
  | [] => 0
  | k :: K => .above limit K k.weight ::ₘ stackWork limit K

/-- All the work of a state. -/
def State.work (limit : Nat) (s : State) : Multiset Work :=
  .above limit s.stack s.control.weight ::ₘ stackWork limit s.stack

/-- The registered classes that wait for their initialization. -/
def State.pending (env : Env) (s : State) : Finset ClassId :=
  (Finset.range env.registry.size).filter fun id => s.store.statics.stateOf id = .pending

/-- Fewer classes wait for their initialization; or as many, and there is less work. -/
def State.Below (env : Env) : State → State → Prop :=
  InvImage (Prod.Lex (· < ·) Multiset.IsDershowitzMannaLT)
    fun s => ((s.pending env).card, s.work env.options.maxCallDepth)

theorem State.below_wellFounded (env : Env) : WellFounded (State.Below env) :=
  InvImage.wf _ (WellFounded.prod_lex wellFounded_lt Multiset.wellFounded_isDershowitzMannaLT)

/-- `t` holds the work of the stack `K` and otherwise only pieces that are smaller than one of weight
`w` above `K`. -/
def State.Under (limit : Nat) (K : List Cont) (w : Nat) (t : State) : Prop :=
  ∃ new, t.work limit = new + stackWork limit K ∧ ∀ y ∈ new, y < Work.above limit K w

namespace State

section Work

variable {limit w : Nat} {s t : State} {k : Cont} {c : Control} {K : List Cont}

theorem above_lt {v : Nat} (h : v < w) : Work.above limit K v < .above limit K w :=
  Prod.Lex.right _ h

theorem above_pass {v : Nat} (hk : k.isActivation = false) :
    Work.above limit (k :: K) v = .above limit K v := by
  unfold Work.above
  rw [activations_pass hk]

/-- Anything one call further down is smaller. -/
theorem above_activation {v : Nat} (hk : k.isActivation = true) (h : activations K < limit) :
    Work.above limit (k :: K) v < .above limit K w := by
  have hlevel : limit - activations (k :: K) < limit - activations K := by
    rw [activations_cons hk]
    omega
  exact Prod.Lex.left _ _ hlevel

theorem under_control (h : t.control.weight < w) : t.Under limit t.stack w :=
  ⟨{.above limit t.stack t.control.weight}, rfl, by simpa using above_lt h⟩

/-- Work above a continuation that is itself smaller than the work below it. -/
theorem Under.below {v : Nat} (h : t.Under limit (k :: K) v) (hk : k.isActivation = false)
    (hweight : k.weight < w) (hle : v ≤ w) : t.Under limit K w := by
  obtain ⟨new, heq, hnew⟩ := h
  refine ⟨.above limit K k.weight ::ₘ new, ?_, fun y hy => ?_⟩
  · rw [heq, stackWork, Multiset.add_cons, Multiset.cons_add]
  · rcases Multiset.mem_cons.1 hy with rfl | hy
    · exact above_lt hweight
    · have hlt := hnew y hy
      rw [above_pass hk] at hlt
      rcases hle.lt_or_eq with hle | rfl
      · exact hlt.trans (above_lt hle)
      · exact hlt

theorem under_goto (h : c.weight < w) : (s.goto c).Under limit s.stack w := under_control h

theorem under_raise (h : 0 < w) (e : Failure) : (s.raise e).Under limit s.stack w := under_control h

theorem under_await (hk : k.isActivation = false) (hweight : k.weight < w) (h : c.weight < w) :
    (s.await k c).Under limit s.stack w :=
  Under.below (under_control h) hk hweight le_rfl

theorem under_proceed {α : Type} {r : Except Failure α} {next : α → State} (h : 0 < w)
    (hnext : ∀ a, (next a).Under limit s.stack w) : (s.proceed r next).Under limit s.stack w := by
  cases r with
  | error e => exact under_raise h e
  | ok a => exact hnext a

theorem under_activate {env : Env} (hd : s.depth = activations s.stack) (hk : k.isActivation = true)
    (hweight : k.weight < w) : (s.activate env k c).Under env.options.maxCallDepth s.stack w := by
  unfold State.activate
  split
  · exact under_raise (Nat.zero_lt_of_lt hweight) _
  · rename_i hlimit
    refine ⟨{.above env.options.maxCallDepth (k :: s.stack) c.weight,
      .above env.options.maxCallDepth s.stack k.weight}, ?_, fun y hy => ?_⟩
    · simp [State.work, stackWork]
    · rcases Multiset.mem_cons.1 hy with rfl | hy
      · exact above_activation hk (by omega)
      · rw [Multiset.mem_singleton.1 hy]
        exact above_lt hweight

end Work

/-! ## Steps -/

section Steps

variable {env : Env} {s : State} {f : Frame} {c : Class} {args : List Value} {limit w : Nat}

theorem construct_under (hw : 3 < w) : (s.construct c args).Under limit s.stack w :=
  under_await rfl hw (by simp only [Control.weight]; omega)

theorem invoke_under (hw : 3 < w) {e : Method} {receiver : Option Handle} :
    (s.invoke env e receiver args).Under limit s.stack w := by
  unfold State.invoke
  split
  · exact under_raise (by omega) _
  · split
    · exact under_await rfl hw (by simp only [Control.weight]; omega)
    · exact under_goto (by simp only [Control.weight]; omega)

theorem invokeStatic_under (hw : 3 < w) {name : String} :
    (s.invokeStatic env c name args).Under limit s.stack w :=
  under_proceed (by omega) fun _ => invoke_under hw

theorem invokeVirtual_under (hw : 3 < w) {receiver : Value} {name : String} :
    (s.invokeVirtual env receiver name args).Under limit s.stack w :=
  under_proceed (by omega) fun _ => invoke_under hw

theorem getStatic_under (hw : 1 < w) {name : String} : (s.getStatic env c name).Under limit s.stack w := by
  unfold State.getStatic
  split
  · exact under_raise (by omega) _
  · exact under_await rfl hw hw

theorem putStatic_under (hw : 1 < w) {name : String} {v : Value} :
    (s.putStatic env c name v).Under limit s.stack w := by
  unfold State.putStatic
  split
  · exact under_raise (by omega) _
  · exact under_await rfl hw hw

theorem callSuper_under (hw : 3 < w) {name : String} :
    (s.callSuper env f name args).Under limit s.stack w := by
  unfold State.callSuper
  split
  · exact under_raise (by omega) _
  · split
    · exact under_raise (by omega) _
    · exact under_proceed (by omega) fun _ => invoke_under hw

theorem superInit_under (hd : s.depth = activations s.stack) (hw : 3 * Stmt.sizeList f.code + 1 < w) :
    (s.superInit env f args).Under env.options.maxCallDepth s.stack w := by
  refine under_proceed (by omega) fun ref => ?_
  split
  · exact under_raise (by omega) _
  · exact under_proceed (by omega) fun k => under_activate hd rfl hw

theorem call_under (hd : s.depth = activations s.stack) (hw : 3 * Stmt.sizeList f.code + 1 < w)
    (target : CallTarget) : (s.call env target args f).Under env.options.maxCallDepth s.stack w := by
  have hpos := Stmt.sizeList_pos f.code
  have hw3 : 3 < w := by omega
  cases target with
  | create cls => exact under_proceed (by omega) fun _ => construct_under hw3
  | static cls method => exact under_proceed (by omega) fun _ => invokeStatic_under hw3
  | virtual receiver method => exact invokeVirtual_under hw3
  | superMethod method => exact callSuper_under hw3
  | superInit => exact superInit_under hd hw

theorem arguments_under (hd : s.depth = activations s.stack) {after : List Expr}
    (hw : 3 * (Expr.sizeList after + Stmt.sizeList f.code) ≤ w) (target : CallTarget) (before : List Value) :
    (s.arguments env target before after f).Under env.options.maxCallDepth s.stack w := by
  cases after with
  | nil =>
    simp only [Expr.sizeList] at hw
    exact call_under hd (by omega) target
  | cons e rest =>
    simp only [Expr.sizeList] at hw
    refine under_await rfl ?_ ?_
    · simp only [Cont.weight]; omega
    · simp only [Control.weight]; omega

theorem eval_under (hd : s.depth = activations s.stack) (e : Expr) :
    (s.eval env f e).Under env.options.maxCallDepth s.stack (3 * (e.size + Stmt.sizeList f.code)) := by
  have hpos := Stmt.sizeList_pos f.code
  cases e with
  | literal l => exact under_goto (by simp only [Control.weight]; omega)
  | slot i =>
    simp only [State.eval]
    split
    · exact under_goto (by simp only [Control.weight]; omega)
    · exact under_raise (by omega) _
  | this =>
    exact under_proceed (by omega) fun _ => under_goto (by simp only [Control.weight]; omega)
  | getStatic cls field => exact under_proceed (by omega) fun _ => getStatic_under (by omega)
  | getField | unary | binary | invokeVirtual =>
    refine under_await rfl ?_ ?_
    · simp only [Cont.weight, Expr.size]; omega
    · simp only [Control.weight, Expr.size]; omega
  | create | invokeStatic | invokeSuper =>
    exact arguments_under hd (by simp only [Expr.size]; omega) _ _

theorem exec_under (hd : s.depth = activations s.stack) (hfree : ∀ st ∈ f.code, st.loopFree = true) :
    (s.exec env f).Under env.options.maxCallDepth s.stack (3 * Stmt.sizeList f.code) := by
  unfold State.exec
  cases hcode : f.code with
  | nil => exact under_goto (by simp [Control.weight, Stmt.sizeList])
  | cons stmt rest =>
    have hstmt : stmt.loopFree = true := hfree stmt (hcode ▸ List.mem_cons_self)
    simp only [Stmt.sizeList]
    cases stmt with
    | loop cond body => simp [Stmt.loopFree] at hstmt
    | superInit args => exact arguments_under hd (by simp only [Stmt.size]; omega) _ _
    | giveBack value =>
      cases value with
      | none => exact under_goto (by simp only [Control.weight, Stmt.size]; omega)
      | some e =>
        refine under_await rfl ?_ ?_
        · simp only [Cont.weight, Stmt.size]; omega
        · simp only [Control.weight, Stmt.size, Option.map_some, Option.getD_some]; omega
    | _ =>
      refine under_await rfl ?_ ?_
      · simp only [Cont.weight, Stmt.size]; omega
      · simp only [Control.weight, Stmt.size]; omega

theorem readField_under (hw : 0 < w) {owner field : String} {target : Value} :
    (s.readField env owner field f target).Under limit s.stack w := by
  refine under_proceed hw fun c => under_proceed hw fun ⟨ref, slot⟩ => ?_
  simp only
  split
  · exact under_goto hw
  · exact under_raise hw _

theorem writeField_under (hw : 3 * Stmt.sizeList f.code < w) {owner field : String} {target v : Value} :
    (s.writeField env owner field f target v).Under limit s.stack w := by
  have hpos : 0 < w := Nat.zero_lt_of_lt hw
  refine under_proceed hpos fun c => under_proceed hpos fun ⟨ref, slot⟩ => ?_
  simp only
  split
  · exact under_raise hpos _
  · split
    · split
      · exact under_control hw
      · exact under_raise hpos _
    · exact under_raise hpos _

theorem decide_under {answer : Value} {yes no : Frame} (hyes : 3 * Stmt.sizeList yes.code < w)
    (hno : 3 * Stmt.sizeList no.code < w) : (s.decide answer yes no).Under limit s.stack w := by
  unfold State.decide
  split
  · exact under_goto hyes
  · exact under_goto hno
  · exact under_raise (Nat.zero_lt_of_lt hyes) _

/-- What goes on after an answer is smaller than the continuation that waited for it. -/
theorem resume_under {k : Cont} (hd : s.depth = activations (k :: s.stack)) (hk : k.In loopFreeRealm)
    {answer : Option Value} :
    (s.resume env k answer).Under env.options.maxCallDepth s.stack k.weight := by
  have hpass (h : k.isActivation = false) : s.depth = activations s.stack := hd.trans (activations_pass h)
  cases k with
  | unary op => exact under_proceed Nat.one_pos fun _ => under_goto Nat.one_pos
  | binaryRight op lhs => exact under_proceed Nat.one_pos fun _ => under_goto Nat.one_pos
  | binaryLeft op rhs f =>
    have hpos := Stmt.sizeList_pos f.code
    refine under_await rfl ?_ ?_
    · simp only [Cont.weight]; omega
    · simp only [Control.weight, Cont.weight]; omega
  | readField owner field f => exact readField_under (by simp only [Cont.weight]; omega)
  | receiver method args f => exact arguments_under (hpass rfl) (by simp only [Cont.weight]; omega) _ _
  | argument target before after f => exact arguments_under (hpass rfl) le_rfl _ _
  | putObject owner field value f =>
    refine under_await rfl ?_ ?_
    · simp only [Cont.weight]; omega
    · simp only [Control.weight, Cont.weight]; omega
  | putValue owner field object f => exact writeField_under (by simp only [Cont.weight]; omega)
  | putStatic cls field f =>
    refine under_proceed (by simp [Cont.weight]) fun c => ?_
    have hpos := Stmt.sizeList_pos f.code
    have h : (State.putStatic env { s with stack := .resume f :: s.stack } c field (answer.getD .null)).Under
        env.options.maxCallDepth (.resume f :: s.stack) (3 * Stmt.sizeList f.code + 2) :=
      putStatic_under (by omega)
    refine h.below rfl ?_ le_rfl
    simp only [Cont.weight]; omega
  | branch yes no f =>
    have happend (sts : List Stmt) := Stmt.sizeList_append sts f.code
    have hyes := happend yes
    have hno := happend no
    refine decide_under ?_ ?_
    · simp only [Cont.weight]; omega
    · simp only [Cont.weight]; omega
  | loop cond body f => exact absurd hk.2 (by simp [loopFreeRealm, Stmt.loopFree])
  | store slot f | discard f | resume f | superDone f => exact under_control (Nat.lt_succ_self _)
  | giveBack f => exact under_control (Nat.succ_pos _)
  | returning returns => exact under_proceed Nat.one_pos fun _ => under_control Nat.one_pos
  | ownStatics c => exact under_goto (by simp only [Control.weight, Cont.weight]; omega)
  | staticValue c slot type rest =>
    simp only [State.resume]
    split
    · exact under_control (by simp [Control.weight, Cont.weight, State.goto])
    · exact under_raise (by simp [Cont.weight]) _
  | thenCreate | thenInvoke => exact under_goto (by simp [Control.weight, Cont.weight])
  | thenRead owner slot name =>
    simp only [State.resume]
    split
    · exact under_goto Nat.one_pos
    · exact under_raise Nat.one_pos _
  | thenWrite owner slot name v =>
    simp only [State.resume]
    split
    · exact under_raise Nat.one_pos _
    · split
      · exact under_control Nat.one_pos
      · exact under_raise Nat.one_pos _
  | constructing | hostCall | initializing | staticBlock => exact under_control Nat.one_pos

/-- An error goes on alone. -/
theorem unwind_under (k : Cont) (e : Failure) : (s.unwind k e).Under limit s.stack k.weight := by
  have hpos : 0 < k.weight := by
    cases k with
    | argument target before after f =>
      have hpos := Stmt.sizeList_pos f.code
      simp only [Cont.weight]; omega
    | _ => exact Nat.succ_pos _
  unfold State.unwind
  split
  · exact under_control hpos
  · split
    · exact under_control hpos
    · exact under_control hpos

theorem allocate_under (hd : s.depth = activations s.stack) :
    (s.allocate env c args).Under env.options.maxCallDepth s.stack 2 := by
  refine under_proceed (by decide) fun k => ?_
  obtain ⟨heap, -, hroom⟩ := makeRoom_eq env s
  rw [hroom]
  exact under_activate hd rfl Nat.one_lt_two

theorem enterMethod_under (hd : s.depth = activations s.stack) {e : Method} {receiver : Option Handle} :
    (s.enterMethod env e c receiver args).Under env.options.maxCallDepth s.stack 2 := by
  unfold State.enterMethod
  simp only
  split
  · exact under_activate hd rfl Nat.one_lt_two
  · exact under_activate hd rfl Nat.one_lt_two

theorem beginInit_under (h : s.store.statics.state c ≠ .pending) : (s.beginInit env c).Under limit s.stack 1 := by
  unfold State.beginInit
  split
  · exact under_goto Nat.one_pos
  · exact under_goto Nat.one_pos
  · exact under_raise Nat.one_pos _
  · rename_i hp
    exact absurd hp h

theorem initializeFields_under (slot : Nat) (rest : List StaticDecl) :
    (s.initializeFields c slot rest).Under limit s.stack (3 * c.staticsSize rest) := by
  unfold State.initializeFields
  cases rest with
  | cons decl rest =>
    simp only [Class.staticsSize]
    split
    · exact under_goto (by simp only [Control.weight]; omega)
    · rename_i e he
      rw [he]
      refine under_await rfl ?_ ?_
      · simp only [Cont.weight]; omega
      · simp [Control.weight, Frame.initializer, Frame.enter, Stmt.sizeList]
  | nil =>
    simp only [Class.staticsSize]
    split
    · exact under_goto (by simp only [Control.weight]; omega)
    · rename_i block hb
      rw [hb]
      refine under_await rfl ?_ ?_
      · simp only [Cont.weight]; omega
      · simp [Control.weight, Frame.enter]

end Steps

/-! ## Less work -/

section Below

variable {env : Env} {s t : State} {K : List Cont} {w : Nat}

/-- A registered class does not wait any more once its initialization has begun, and no class waits
that did not wait before. -/
theorem pending_subset (h : Transition env s t) : t.pending env ⊆ s.pending env := by
  intro id hid
  obtain ⟨hlt, hpend⟩ := Finset.mem_filter.1 hid
  refine Finset.mem_filter.2 ⟨hlt, ?_⟩
  by_contra hbegun
  exact h.begun hbegun hpend

theorem pending_lt (h : Transition env s t) {c : Class} (hc : env.registry.Has c)
    (hs : s.store.statics.state c = .pending) (ht : t.store.statics.state c ≠ .pending) :
    (t.pending env).card < (s.pending env).card := by
  refine Finset.card_lt_card ⟨pending_subset h, fun hsub => ?_⟩
  have hmem : c.id ∈ s.pending env := Finset.mem_filter.2 ⟨Finset.mem_range.2 (Registry.class?_lt hc), hs⟩
  exact ht (Finset.mem_filter.1 (hsub hmem)).2

theorem beginInit_begins {c : Class} (h : s.store.statics.state c = .pending) :
    (s.beginInit env c).store.statics.state c = .running := by
  have hrun : (s.store.statics.setState c .running).state c = .running := by
    simp [Statics.state]
  unfold State.beginInit
  rw [h]
  simp only
  split
  · exact hrun
  · exact hrun

/-- A state whose work contains that of `K` and a piece of weight `w` above `K` has more work than one
that is under them. -/
theorem Under.below_of {limit : Nat} (h : t.Under limit K w) (rest : Multiset Work)
    (hs : s.work limit = stackWork limit K + (.above limit K w ::ₘ rest)) :
    Multiset.IsDershowitzMannaLT (t.work limit) (s.work limit) := by
  obtain ⟨new, heq, hnew⟩ := h
  refine ⟨stackWork limit K, new, .above limit K w ::ₘ rest, Multiset.cons_ne_zero, ?_, hs, fun y hy => ?_⟩
  · rw [heq, add_comm]
  · exact ⟨_, Multiset.mem_cons_self _ _, hnew y hy⟩

theorem below_of_work (h : Transition env s t)
    (hwork : Multiset.IsDershowitzMannaLT (t.work env.options.maxCallDepth) (s.work env.options.maxCallDepth)) :
    t.Below env s := by
  rcases (Finset.card_le_card (pending_subset h)).lt_or_eq with hlt | heq
  · exact Prod.Lex.left _ _ hlt
  · show Prod.Lex _ _ (_, _) (_, _)
    rw [heq]
    exact Prod.Lex.right _ hwork

/-- A step that does its work right above the stack. -/
theorem below_of_control (h : Transition env s t) (hu : t.Under env.options.maxCallDepth s.stack s.control.weight) :
    t.Below env s := by
  refine below_of_work h (hu.below_of 0 ?_)
  rw [Multiset.add_cons, add_zero]
  rfl

/-- A step that takes a continuation off the stack. -/
theorem below_of_top (h : Transition env s t) {k : Cont} (hK : s.stack = k :: K)
    (hu : t.Under env.options.maxCallDepth K k.weight) : t.Below env s := by
  refine below_of_work h (hu.below_of {.above env.options.maxCallDepth (k :: K) s.control.weight} ?_)
  unfold State.work
  rw [hK, stackWork, Multiset.add_cons, Multiset.cons_swap, add_comm]
  rfl

/-- Every step of a run without loops, outside host functions, leaves less work. -/
theorem step_below (hfit : s.Fits env) (hcount : s.Counts env) (hin : s.In loopFreeRealm)
    (hhost : ∀ e args p, s.control ≠ .host e args p) (hout : s.outcome? = none) :
    (s.step env).Below env s := by
  have htrans := step_transition env s
  have hd := hcount.depth
  have hcontrol := hin.control
  have hfits := hfit.control
  cases hc : s.control with
  | eval f e =>
    have hstep : s.step env = s.eval env f e := by simp only [State.step, hc]
    rw [hstep] at htrans ⊢
    exact below_of_control htrans (hc ▸ eval_under hd e)
  | exec f =>
    have hstep : s.step env = s.exec env f := by simp only [State.step, hc]
    rw [hc] at hcontrol
    rw [hstep] at htrans ⊢
    exact below_of_control htrans (hc ▸ exec_under hd hcontrol.code)
  | answer v =>
    cases hK : s.stack with
    | nil => simp [State.outcome?, hc, hK] at hout
    | cons k K =>
      have hstep : s.step env = State.resume env { s with stack := K } k v := by
        simp only [State.step, hc, hK]
      have hk : k.In loopFreeRealm := hin.stack k (hK ▸ List.mem_cons_self)
      have hu : (State.resume env { s with stack := K } k v).Under env.options.maxCallDepth K k.weight :=
        resume_under (hK ▸ hd) hk
      rw [hstep] at htrans ⊢
      exact below_of_top htrans hK hu
  | raise e =>
    cases hK : s.stack with
    | nil => simp [State.outcome?, hc, hK] at hout
    | cons k K =>
      have hstep : s.step env = State.unwind { s with stack := K } k e := by
        simp only [State.step, hc, hK]
      rw [hstep] at htrans ⊢
      exact below_of_top htrans hK (unwind_under k e)
  | init c =>
    have hstep : s.step env = s.beginInit env c := by simp only [State.step, hc]
    rw [hc] at hfits
    rw [hstep] at htrans ⊢
    by_cases hp : s.store.statics.state c = .pending
    · refine Prod.Lex.left _ _ (pending_lt htrans hfits hp ?_)
      rw [beginInit_begins hp]
      exact InitState.noConfusion
    · exact below_of_control htrans (hc ▸ beginInit_under hp)
  | statics c slot rest =>
    have hstep : s.step env = s.initializeFields c slot rest := by simp only [State.step, hc]
    rw [hstep] at htrans ⊢
    exact below_of_control htrans (hc ▸ initializeFields_under slot rest)
  | create c args =>
    have hstep : s.step env = s.allocate env c args := by simp only [State.step, hc]
    rw [hstep] at htrans ⊢
    exact below_of_control htrans (hc ▸ allocate_under hd)
  | enter e declaring receiver args =>
    have hstep : s.step env = s.enterMethod env e declaring receiver args := by simp only [State.step, hc]
    rw [hstep] at htrans ⊢
    exact below_of_control htrans (hc ▸ enterMethod_under hd)
  | host e args p => exact absurd hc (hhost e args p)

theorem Below.congr {u : State} (h : u.Below env t) (hpending : t.pending env = s.pending env)
    (hwork : t.work env.options.maxCallDepth = s.work env.options.maxCallDepth) : u.Below env s := by
  show Prod.Lex _ _ (_, _) (_, _)
  rw [← hpending, ← hwork]
  exact h

/-- A service of a host function costs no work. -/
theorem Below.of_service {e : Method} {args : List Value} {p p' : HostProgram} (hs : s.control = .host e args p)
    (ht : t.control = .host e args p' ∧ t.stack = s.stack ∧ t.store.statics = s.store.statics) {u : State}
    (h : u.Below env t) : u.Below env s := by
  obtain ⟨hc, hK, hst⟩ := ht
  refine h.congr ?_ ?_
  · unfold State.pending
    rw [hst]
  · unfold State.work
    rw [hc, hK, hs]
    rfl

/-- A host function comes to its reply, which leaves less work. -/
theorem host_below {e : Method} {args : List Value} (p : HostProgram) :
    ∀ {s : State}, s.control = .host e args p → ∃ n, ((State.step env)^[n] s).Below env s := by
  induction p with
  | reply r =>
    intro s hc
    have hstep : s.step env = s.hostStep env e args (.reply r) := by simp only [State.step, hc]
    have hu : (s.step env).Under env.options.maxCallDepth s.stack s.control.weight := by
      rw [hstep, hc]
      exact under_proceed Nat.one_pos fun _ => under_goto Nat.one_pos
    exact ⟨1, below_of_control (step_transition env s) hu⟩
  | write stream v next ih =>
    intro s hc
    have hstep : s.step env = s.hostStep env e args (.write stream v next) := by simp only [State.step, hc]
    obtain ⟨outcome, ht⟩ : ∃ outcome, (s.step env).control = .host e args (next outcome) ∧
        (s.step env).stack = s.stack ∧ (s.step env).store.statics = s.store.statics := by
      rw [hstep]
      exact ⟨_, rfl, rfl, rfl⟩
    obtain ⟨n, hn⟩ := ih outcome ht.1
    exact ⟨n + 1, hn.of_service hc ht⟩
  | collect next ih =>
    intro s hc
    obtain ⟨swept, ht⟩ : ∃ swept, (s.step env).control = .host e args (next swept) ∧
        (s.step env).stack = s.stack ∧ (s.step env).store.statics = s.store.statics := by
      simp only [State.step, hc, State.hostStep]
      split
      · exact ⟨_, rfl, rfl, rfl⟩
      · exact ⟨0, rfl, rfl, rfl⟩
    obtain ⟨n, hn⟩ := ih swept ht.1
    exact ⟨n + 1, hn.of_service hc ht⟩
  | clock next ih =>
    intro s hc
    have hstep : s.step env = s.hostStep env e args (.clock next) := by simp only [State.step, hc]
    obtain ⟨now, ht⟩ : ∃ now, (s.step env).control = .host e args (next now) ∧
        (s.step env).stack = s.stack ∧ (s.step env).store.statics = s.store.statics := by
      rw [hstep]
      exact ⟨_, rfl, rfl, rfl⟩
    obtain ⟨n, hn⟩ := ih now ht.1
    exact ⟨n + 1, hn.of_service hc ht⟩

end Below

end State

/-! ## Termination -/

section Termination

variable {allowed : Act → Prop} {m : Machine} {past : List State}

/-- From every moment of a run without loops, less work is left at some later moment, if the run is
not over. -/
theorem Machine.below_later (h : History allowed m past) (hfree : ∀ c, m.registry.Has c → c.source.LoopFree)
    {op : Operation} (ha : allowed (.perform op)) (hop : op.In loopFreeRealm m.env) {n : Nat}
    (hout : (m.moment op n).outcome? = none) : ∃ i, (m.moment op (i + n)).Below m.env (m.moment op n) := by
  have hσ : m.store.In loopFreeRealm := ⟨fun _ _ _ _ _ _ => trivial, fun _ _ _ _ _ _ => trivial, fun _ _ => trivial⟩
  have hin := h.moment_in (loopFreeRealm_covers hfree) ha hop hσ n
  by_cases hhost : ∃ e args p, (m.moment op n).control = .host e args p
  · obtain ⟨e, args, p, hc⟩ := hhost
    obtain ⟨i, hi⟩ := State.host_below p hc
    refine ⟨i, ?_⟩
    unfold moment
    rw [Function.iterate_add_apply]
    exact hi
  · refine ⟨1, ?_⟩
    rw [Nat.add_comm, moment_succ]
    exact State.step_below (fits_invariant.moment h ha n) (counts_invariant.moment h ha n) hin
      (fun e args p hc => hhost ⟨e, args, p, hc⟩) hout

/-- An operation of the host without loops of its own. -/
def Operation.LoopFree : Operation → Prop
  | .run _ _ body _ => ∀ st ∈ body.code, st.loopFree = true
  | _ => True

/-- Programs without loops come to an end. Whatever the limit on the call depth is, and whatever calls
and initializations of classes lead back to themselves: if no loaded class has a loop in a method, a
constructor or its static block, every operation after every history ends after finitely many steps,
with an answer or an error. -/
theorem loopFree_ends (h : History (fun _ => True) m past)
    (hfree : ∀ c, m.registry.Has c → c.source.LoopFree) {op : Operation} (hop : op.LoopFree) :
    ∃ fuel r m', m.perform fuel op = some (r, m') := by
  have hin : op.In loopFreeRealm m.env := by
    cases op with
    | run u cls body locals => exact ⟨fun _ _ _ _ => trivial, fun _ _ => hop⟩
    | construct | invokeStatic => exact fun _ _ _ _ => trivial
    | invokeVirtual => exact ⟨fun _ _ => trivial, fun _ _ _ _ => trivial⟩
    | putStatic => exact fun _ _ => trivial
    | getStatic | prepare | eval => trivial
  -- by induction on the work that is left
  have hends : ∀ s : State, ∀ n, m.moment op n = s → ∃ k r, (m.moment op k).outcome? = some r := by
    intro s
    induction s using (State.below_wellFounded m.env).induction with
    | _ s ih =>
      intro n hn
      cases hout : (m.moment op n).outcome? with
      | some r => exact ⟨n, r, hout⟩
      | none =>
        obtain ⟨i, hi⟩ := Machine.below_later h hfree trivial hin hout
        exact ih _ (hn ▸ hi) (i + n) rfl
  obtain ⟨k, r, hr⟩ := hends _ 0 rfl
  exact ⟨k, r, _, Machine.perform_of_outcome? le_rfl hr⟩

end Termination

/-- A class whose method, constructor and static field all lead on to those of a partner. -/
def rallying (name partner : String) : ClassDecl :=
  { name
    statics := [⟨"ball", .int, some (.getStatic partner "ball")⟩]
    constructors := [{ body := { code := [.expr (.create partner [])] } }]
    methods := [.static "play" [] .int { code := [.giveBack (some (.invokeStatic partner "play" []))] }] }

/-- Two classes that play each other the ball for ever. -/
def rally : CompilationUnit :=
  { name := "rally", classes := [rallying "Ping" "Pong", rallying "Pong" "Ping"] }

theorem loopFree_ends_rally : ∃ m past, History (fun _ => True) m past ∧
    (∀ c, m.registry.Has c → c.source.LoopFree) ∧
    (m.registry.lookup 1 "Ping").toOption.isSome ∧
    ∃ fuel r m', m.perform fuel (.construct 1 "Ping" []) = some (r, m') := by
  let m : Machine := (Machine.load (.boot {} {}) rally).2
  have hboot : History (fun _ => True) (.boot {} {}) [] := .boot
  have h : History (fun _ => True) m ([] ++ []) := hboot.act trivial .load
  have hall : ∀ c ∈ m.registry.classes.toList, ∀ body ∈ c.source.bodies, ∀ st ∈ body.code,
      st.loopFree = true := by decide +kernel
  have hfree : ∀ c, m.registry.Has c → c.source.LoopFree := fun c hc =>
    hall c (List.mem_of_getElem? ((Registry.class?_toList _ _).symm.trans hc))
  exact ⟨m, _, h, hfree, by decide +kernel, loopFree_ends h hfree trivial⟩

end ObjectMachine
