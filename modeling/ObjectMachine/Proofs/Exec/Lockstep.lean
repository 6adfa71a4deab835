/-
Changes of the store that the code of a program cannot notice. What a step looks at in the store is the
objects and the static areas; the tracking of the heap is looked at by allocations and collections only,
and the sink and the clock by host functions only. So a change that leaves the objects and the static
areas alone, and that can be made before or after a cell is set (`Unnoticed`), commutes with every function
that the other steps are made of, and two runs that differ by it take their steps side by side until one
of them allocates or is in the middle of a host function.
-/
import ObjectMachine.Proofs.Exec.History

namespace ObjectMachine

/-! ## Definitions -/

/-- A change of the store, along with one of the environment, that is noticed by allocations and host
functions at most. -/
structure Unnoticed (env env' : Env) (φ : Store → Store) : Prop where
  registry : env'.registry = env.registry
  maxCallDepth : env'.options.maxCallDepth = env.options.maxCallDepth
  objects : ∀ σ, (φ σ).heap.objects = σ.heap.objects
  statics : ∀ σ, (φ σ).statics = σ.statics
  setStatics : ∀ σ t, φ { σ with statics := t } = { φ σ with statics := t }
  setCell : ∀ σ ref slot v,
    φ { σ with heap := σ.heap.setCell ref slot v } = { φ σ with heap := (φ σ).heap.setCell ref slot v }

/-- The state with another store. -/
def State.change (s : State) (φ : Store → Store) : State := { s with store := φ s.store }

/-! ## What is read from the store -/

namespace Unnoticed

variable {env env' : Env} {φ : Store → Store} {s : State}

theorem get? (h : Unnoticed env env' φ) (σ : Store) (ref : Handle) :
    (φ σ).heap.get? ref = σ.heap.get? ref := by
  unfold Heap.get?
  rw [h.objects]

theorem cell? (h : Unnoticed env env' φ) (σ : Store) (ref : Handle) (slot : Nat) :
    (φ σ).heap.cell? ref slot = σ.heap.cell? ref slot := by
  unfold Heap.cell?
  rw [h.get?]

theorem classOf? (h : Unnoticed env env' φ) (σ : Store) :
    (φ σ).classOf? env'.registry = σ.classOf? env.registry := by
  funext ref
  unfold Store.classOf?
  rw [h.get?, h.registry]

theorem nameOf (h : Unnoticed env env' φ) (σ : Store) :
    (φ σ).nameOf env'.registry = σ.nameOf env.registry := by
  funext ref
  unfold Store.nameOf
  rw [h.classOf?]

theorem text (h : Unnoticed env env' φ) (σ : Store) (v : Value) :
    (φ σ).text env'.registry v = σ.text env.registry v := by
  unfold Store.text
  rw [h.nameOf]

theorem fieldByName? (h : Unnoticed env env' φ) (σ : Store) :
    (φ σ).fieldByName? env'.registry = σ.fieldByName? env.registry := by
  funext ref name
  unfold Store.fieldByName?
  rw [h.classOf?]
  simp only [h.cell?]

theorem hostView (h : Unnoticed env env' φ) (s : State) : (s.change φ).hostView env' = s.hostView env := by
  have hallocated : (φ s.store).heap.allocated = s.store.heap.allocated := by
    unfold Heap.allocated
    rw [h.objects]
  unfold State.hostView State.change
  rw [h.fieldByName?, hallocated, h.maxCallDepth]

end Unnoticed

/-! ## Calls -/

namespace State

@[simp] theorem change_control (s : State) (φ : Store → Store) : (s.change φ).control = s.control := rfl

@[simp] theorem change_stack (s : State) (φ : Store → Store) : (s.change φ).stack = s.stack := rfl

@[simp] theorem change_depth (s : State) (φ : Store → Store) : (s.change φ).depth = s.depth := rfl

@[simp] theorem change_store (s : State) (φ : Store → Store) : (s.change φ).store = φ s.store := rfl

section Steps

variable {env env' : Env} {φ : Store → Store} {s : State}

theorem proceed_change {α : Type} {r : Except Failure α} {next next' : α → State}
    (h : ∀ a, next' a = (next a).change φ) :
    (s.change φ).proceed r next' = (s.proceed r next).change φ := by
  cases r with
  | error e => rfl
  | ok a => exact h a

/-- A class is found by its name either way. -/
theorem lookup_change (h : Unnoticed env env' φ) {f : Frame} {name : String} {next next' : Class → State}
    (hnext : ∀ c, next' c = (next c).change φ) :
    (s.change φ).proceed (lookup env' f name) next' = (s.proceed (lookup env f name) next).change φ := by
  unfold lookup
  rw [h.registry]
  exact proceed_change hnext

theorem activate_change (h : Unnoticed env env' φ) (k : Cont) (c : Control) :
    (s.change φ).activate env' k c = (s.activate env k c).change φ := by
  unfold activate
  rw [h.maxCallDepth, change_depth]
  split <;> rfl

theorem invoke_change (h : Unnoticed env env' φ) (e : Method) (receiver : Option Handle) (args : List Value) :
    (s.change φ).invoke env' e receiver args = (s.invoke env e receiver args).change φ := by
  unfold invoke
  rw [h.registry]
  cases env.registry.class? e.declaring with
  | none => rfl
  | some declaring =>
    dsimp only
    split <;> rfl

theorem invokeStatic_change (h : Unnoticed env env' φ) (c : Class) (name : String) (args : List Value) :
    (s.change φ).invokeStatic env' c name args = (s.invokeStatic env c name args).change φ :=
  proceed_change fun e => invoke_change h e none args

theorem invokeVirtual_change (h : Unnoticed env env' φ) (receiver : Value) (name : String)
    (args : List Value) :
    (s.change φ).invokeVirtual env' receiver name args = (s.invokeVirtual env receiver name args).change φ := by
  unfold invokeVirtual
  rw [change_store, h.classOf?]
  exact proceed_change fun selected => invoke_change h selected.2 (some selected.1) args

theorem getStatic_change (h : Unnoticed env env' φ) (c : Class) (name : String) :
    (s.change φ).getStatic env' c name = (s.getStatic env c name).change φ := by
  unfold getStatic
  rw [h.registry]
  cases env.registry.findStatic? c name <;> rfl

theorem putStatic_change (h : Unnoticed env env' φ) (c : Class) (name : String) (v : Value) :
    (s.change φ).putStatic env' c name v = (s.putStatic env c name v).change φ := by
  unfold putStatic
  rw [h.registry]
  cases env.registry.findStatic? c name <;> rfl

theorem callSuper_change (h : Unnoticed env env' φ) (f : Frame) (name : String) (args : List Value) :
    (s.change φ).callSuper env' f name args = (s.callSuper env f name args).change φ := by
  unfold callSuper
  cases f.this with
  | none => rfl
  | some ref =>
    rw [h.registry]
    cases env.registry.parent? f.cls with
    | none => rfl
    | some parent => exact proceed_change fun e => invoke_change h e (some ref) args

theorem superInit_change (h : Unnoticed env env' φ) (f : Frame) (args : List Value) :
    (s.change φ).superInit env' f args = (s.superInit env f args).change φ := by
  refine proceed_change fun ref => ?_
  rw [h.registry]
  cases env.registry.parent? f.cls with
  | none => rfl
  | some parent => exact proceed_change fun k => activate_change h _ _

theorem call_change (h : Unnoticed env env' φ) (target : CallTarget) (args : List Value) (f : Frame) :
    (s.change φ).call env' target args f = (s.call env target args f).change φ := by
  cases target with
  | create cls => exact lookup_change h fun c => rfl
  | static cls method => exact lookup_change h fun c => invokeStatic_change h c method args
  | virtual receiver method => exact invokeVirtual_change h receiver method args
  | superMethod method => exact callSuper_change h f method args
  | superInit => exact superInit_change h f args

theorem arguments_change (h : Unnoticed env env' φ) (target : CallTarget) (before : List Value)
    (after : List Expr) (f : Frame) :
    (s.change φ).arguments env' target before after f = (s.arguments env target before after f).change φ := by
  cases after with
  | nil => exact call_change h target before.reverse f
  | cons e rest => rfl

/-! ## The code of a frame -/

theorem eval_change (h : Unnoticed env env' φ) (f : Frame) (e : Expr) :
    (s.change φ).eval env' f e = (s.eval env f e).change φ := by
  cases e with
  | create | invokeStatic | invokeSuper => exact arguments_change h _ _ _ f
  | slot i =>
    unfold eval
    dsimp only
    split <;> rfl
  | this => exact proceed_change fun ref => rfl
  | getStatic cls field => exact lookup_change h fun c => getStatic_change h c field
  | _ => rfl

theorem exec_change (h : Unnoticed env env' φ) (f : Frame) :
    (s.change φ).exec env' f = (s.exec env f).change φ := by
  unfold exec
  cases f.code with
  | nil => rfl
  | cons stmt rest =>
    cases stmt with
    | superInit args => exact arguments_change h _ _ _ { f with code := rest }
    | giveBack value => cases value <;> rfl
    | _ => rfl

theorem readField_change (h : Unnoticed env env' φ) (owner field : String) (f : Frame) (target : Value) :
    (s.change φ).readField env' owner field f target = (s.readField env owner field f target).change φ := by
  refine lookup_change h fun c => ?_
  rw [change_store, h.classOf?]
  refine proceed_change fun (ref, slot) => ?_
  dsimp only
  rw [h.cell?]
  cases s.store.heap.cell? ref slot <;> rfl

theorem writeField_change (h : Unnoticed env env' φ) (owner field : String) (f : Frame) (target v : Value) :
    (s.change φ).writeField env' owner field f target v =
      (s.writeField env owner field f target v).change φ := by
  refine lookup_change h fun c => ?_
  rw [change_store, h.classOf?]
  refine proceed_change fun (ref, slot) => ?_
  dsimp only
  cases c.fields[slot]? with
  | none => rfl
  | some decl =>
    dsimp only
    split
    · rw [h.cell?, ← h.setCell]
      cases s.store.heap.cell? ref slot <;> rfl
    · rfl

theorem decide_change (answer : Value) (yes no : Frame) :
    (s.change φ).decide answer yes no = (s.decide answer yes no).change φ := by
  unfold decide
  split <;> rfl

/-! ## Static initialization -/

theorem setInitState_change (h : Unnoticed env env' φ) (c : Class) (st : InitState) :
    (s.change φ).setInitState c st = (s.setInitState c st).change φ := by
  have hstore : φ { s.store with statics := s.store.statics.setState c st } =
      { φ s.store with statics := (φ s.store).statics.setState c st } := by rw [h.setStatics, h.statics]
  exact congrArg (State.mk s.control s.stack s.depth) hstore.symm

theorem setStatic_change (h : Unnoticed env env' φ) (c : Class) (slot : Nat) (v : Value) :
    (s.change φ).setStatic c slot v = (s.setStatic c slot v).change φ := by
  have hstore : φ { s.store with statics := s.store.statics.setCell c slot v } =
      { φ s.store with statics := (φ s.store).statics.setCell c slot v } := by rw [h.setStatics, h.statics]
  exact congrArg (State.mk s.control s.stack s.depth) hstore.symm

theorem beginInit_change (h : Unnoticed env env' φ) (c : Class) :
    (s.change φ).beginInit env' c = (s.beginInit env c).change φ := by
  unfold beginInit
  rw [change_store, h.statics, h.registry]
  cases s.store.statics.state c with
  | pending =>
    dsimp only
    rw [← h.setStatics]
    cases env.registry.parent? c <;> rfl
  | _ => rfl

theorem initializeFields_change (c : Class) (slot : Nat) (rest : List StaticDecl) :
    (s.change φ).initializeFields c slot rest = (s.initializeFields c slot rest).change φ := by
  unfold initializeFields
  cases rest with
  | nil =>
    dsimp only
    split <;> rfl
  | cons decl rest =>
    dsimp only
    split <;> rfl

/-! ## Answers and errors -/

theorem resume_change (h : Unnoticed env env' φ) (k : Cont) (answer : Option Value) :
    (s.change φ).resume env' k answer = (s.resume env k answer).change φ := by
  unfold resume
  cases k with
  | receiver method args f => exact arguments_change h _ _ args f
  | argument target before after f => exact arguments_change h target _ after f
  | unary => exact proceed_change fun v => rfl
  | binaryRight =>
    dsimp only
    rw [change_store, h.nameOf]
    exact proceed_change fun v => rfl
  | readField owner field f => exact readField_change h owner field f _
  | putValue owner field object f => exact writeField_change h owner field f object _
  | putStatic cls field f =>
    exact lookup_change h fun c => putStatic_change (s := { s with stack := .resume f :: s.stack }) h c field _
  | branch yes no f => exact decide_change _ _ _
  | loop cond body f => exact decide_change _ _ f
  | returning returns => exact proceed_change (s := s.leave) fun v => rfl
  | initializing c =>
    dsimp only
    rw [setInitState_change h]
    rfl
  | staticValue c slot type rest =>
    dsimp only
    rw [setStatic_change h]
    split <;> rfl
  | thenRead owner slot name =>
    dsimp only
    rw [change_store, h.statics]
    cases s.store.statics.cell? owner slot <;> rfl
  | thenWrite owner slot name v =>
    dsimp only
    rw [setStatic_change h]
    cases owner.statics[slot]? with
    | none => rfl
    | some decl =>
      dsimp only
      split <;> rfl
  | _ => rfl

theorem unwind_change (h : Unnoticed env env' φ) (k : Cont) (e : Failure) :
    (s.change φ).unwind k e = (s.unwind k e).change φ := by
  unfold unwind
  cases k with
  | initializing c =>
    dsimp only
    rw [setInitState_change h]
    rfl
  | _ => rfl

theorem enterMethod_change (h : Unnoticed env env' φ) (e : Method) (declaring : Class)
    (receiver : Option Handle) (args : List Value) :
    (s.change φ).enterMethod env' e declaring receiver args =
      (s.enterMethod env e declaring receiver args).change φ := by
  unfold enterMethod
  rw [h.hostView]
  cases e.impl with
  | managed body => exact activate_change h _ _
  | native f => exact activate_change h _ _

/-- The reply of a host function does not depend on the store. -/
theorem reply_change (φ : Store → Store) (e : Method) (args : List Value) (r : HostReply) :
    (s.change φ).hostStep env' e args (.reply r) = (s.hostStep env e args (.reply r)).change φ :=
  proceed_change fun _ => rfl

/-- A step that neither allocates nor runs a host function does not notice the change. -/
theorem step_change (h : Unnoticed env env' φ) (hcreate : ∀ c args, s.control ≠ .create c args)
    (hhost : ∀ e args p, s.control ≠ .host e args p) :
    (s.change φ).step env' = (s.step env).change φ := by
  unfold step
  rw [change_control]
  cases hc : s.control with
  | eval f e => exact eval_change h f e
  | exec f => exact exec_change h f
  | answer v =>
    simp only [change_stack]
    cases s.stack with
    | nil => rfl
    | cons k K => exact resume_change (s := { s with stack := K }) h k v
  | raise e =>
    simp only [change_stack]
    cases s.stack with
    | nil => rfl
    | cons k K => exact unwind_change (s := { s with stack := K }) h k e
  | init c => exact beginInit_change h c
  | statics c slot rest => exact initializeFields_change c slot rest
  | create c args => exact absurd hc (hcreate c args)
  | enter e declaring receiver args => exact enterMethod_change h e declaring receiver args
  | host e args p => exact absurd hc (hhost e args p)

end Steps

end State

/-! ## Operations -/

/-- Nor does the start of an operation. -/
theorem Operation.start_change {env env' : Env} {φ : Store → Store} (h : Unnoticed env env' φ)
    (op : Operation) (σ : Store) : op.start env' (φ σ) = (op.start env σ).change φ := by
  let s : State := .idle σ
  unfold Operation.start
  rw [h.registry]
  cases op with
  | construct | prepare | eval | run => exact State.proceed_change (s := s) fun c => rfl
  | invokeStatic u cls method args =>
    exact State.proceed_change (s := s) fun c => State.invokeStatic_change (s := s) h c method args
  | invokeVirtual receiver method args => exact State.invokeVirtual_change (s := s) h receiver method args
  | getStatic u cls field =>
    exact State.proceed_change (s := s) fun c => State.getStatic_change (s := s) h c field
  | putStatic u cls field v =>
    exact State.proceed_change (s := s) fun c => State.putStatic_change (s := s) h c field v

end ObjectMachine
