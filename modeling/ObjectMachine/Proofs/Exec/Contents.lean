/-
What a run holds. A `Realm` is a set of handles, with a set of statements for the code of each class.
A state is in a realm when every value that its control, its stack and the static cells hold is, and
every frame holds only statements of the realm for its class, those that wait for a value included.
Objects of the realm refer only to objects of the realm, and objects that do not exist yet are in it.

A step stays in the realm if the bodies that classes declare are in it, and host functions reply
with nothing but what they can reach: there is no other source of handles and of code.
-/
import ObjectMachine.Proofs.Exec.Registered
import ObjectMachine.Proofs.Heap
import ObjectMachine.Proofs.Registry.Bodies

namespace ObjectMachine

/-! ## Realms -/

/-- Handles, and statements for the code of each class. -/
structure Realm where
  handle : Handle → Prop
  stmt : Class → Stmt → Prop

def Value.In (R : Realm) (v : Value) : Prop := ∀ ref ∈ v.handles, R.handle ref

/-- The receiver, the local slots and the code of a frame. -/
structure Frame.In (R : Realm) (f : Frame) : Prop where
  this : ∀ ref, f.this = some ref → R.handle ref
  locals : ∀ v ∈ f.locals.toList, v.In R
  code : ∀ st ∈ f.code, R.stmt f.cls st

def CallTarget.In (R : Realm) : CallTarget → Prop
  | .virtual receiver _ => receiver.In R
  | _ => True

def Cont.In (R : Realm) : Cont → Prop
  | .binaryLeft _ _ f | .readField _ _ f | .receiver _ _ f | .discard f | .store _ f => f.In R
  | .putStatic _ _ f | .giveBack f | .resume f | .superDone f => f.In R
  | .putObject owner field value f => f.In R ∧ ∃ object, R.stmt f.cls (.putField object owner field value)
  | .branch yes no f => f.In R ∧ ∀ st ∈ yes ++ no, R.stmt f.cls st
  | .loop cond body f => f.In R ∧ R.stmt f.cls (.loop cond body)
  | .binaryRight _ lhs => lhs.In R
  | .argument target before _ f => target.In R ∧ (∀ v ∈ before, v.In R) ∧ f.In R
  | .putValue owner field object f =>
    object.In R ∧ f.In R ∧ ∃ target value, R.stmt f.cls (.putField target owner field value)
  | .constructing ref => R.handle ref
  | .thenCreate _ args | .thenInvoke _ _ args => ∀ v ∈ args, v.In R
  | .thenWrite _ _ _ v => v.In R
  | _ => True

/-- Whatever a host function is answered, it replies with a value of the realm. -/
def HostProgram.In (R : Realm) : HostProgram → Prop
  | .reply (.value v) => v.In R
  | .reply _ => True
  | .write _ _ next => ∀ outcome, (next outcome).In R
  | .collect next => ∀ swept, (next swept).In R
  | .clock next => ∀ now, (next now).In R

def Control.In (R : Realm) : Control → Prop
  | .eval f _ | .exec f => f.In R
  | .answer v => (v.getD .null).In R
  | .create _ args => ∀ v ∈ args, v.In R
  | .enter _ _ receiver args => (∀ ref, receiver = some ref → R.handle ref) ∧ ∀ v ∈ args, v.In R
  | .host _ _ p => p.In R
  | _ => True

/-- The objects of a realm and the static cells refer only to objects of the realm. -/
structure Store.In (R : Realm) (σ : Store) : Prop where
  cells : ∀ ref, R.handle ref → ∀ v ∈ σ.heap.cells ref, v.In R
  statics : ∀ entry ∈ σ.statics.areas, ∀ v ∈ entry.2.cells, v.In R
  fresh : ∀ ref, σ.heap.allocated ≤ ref.index → R.handle ref

/-- What waits on the stack, and the store. -/
structure State.Rest (R : Realm) (s : State) : Prop where
  stack : ∀ k ∈ s.stack, k.In R
  store : s.store.In R

structure State.In (R : Realm) (s : State) : Prop extends s.Rest R where
  control : s.control.In R

/-- A host function that is given values of a realm, and sees only values of the realm in the fields
of its objects, replies with a value of the realm. -/
def HostFunction.Keeps (R : Realm) (f : HostFunction) : Prop :=
  ∀ (view : HostView) (args : List Value),
    (∀ ref, R.handle ref → ∀ name v, view.field ref name = some v → v.In R) →
    (∀ v ∈ args, v.In R) → (f view args).In R

/-- The bodies that the classes of a registry declare are in the realm, with what they nest, and
their host functions keep to it. -/
structure Realm.Covers (R : Realm) (r : Registry) : Prop where
  branch : ∀ {c cond yes no}, R.stmt c (.branch cond yes no) → ∀ st ∈ yes ++ no, R.stmt c st
  loop : ∀ {c cond body}, R.stmt c (.loop cond body) → ∀ st ∈ body, R.stmt c st
  bodies : ∀ c, r.Has c → ∀ body ∈ c.source.bodies, ∀ st ∈ body.code, R.stmt c st
  hosts : ∀ e, r.Lists e → ∀ f, e.impl = .native f → f.Keeps R

/-! ## Values, host functions and frames -/

section Values

variable {R : Realm}

theorem Value.in_object {ref : Handle} : (Value.object ref).In R ↔ R.handle ref := by
  simp [Value.In, Value.handles, Value.asObject?]

theorem Value.in_of_handles {v : Value} (h : v.handles = []) : v.In R := by
  intro ref hm
  rw [h] at hm
  cases hm

theorem Value.in_default (ty : Ty) : ty.default.In R := by
  cases ty <;> exact in_of_handles rfl

theorem Literal.value_in (l : Literal) : l.value.In R := by
  cases l <;> exact Value.in_of_handles rfl

theorem Frame.In.withCode {f : Frame} (h : f.In R) {code : List Stmt}
    (hcode : ∀ st ∈ code, R.stmt f.cls st) : Frame.In R { f with code } :=
  ⟨h.this, h.locals, hcode⟩

theorem Frame.In.setLocal {f : Frame} (h : f.In R) {v : Value} (hv : v.In R) (slot : Nat) :
    (f.setLocal slot v).In R := by
  refine ⟨h.this, fun w hw => ?_, h.code⟩
  have hmem : w ∈ f.locals.toList ∨ w = .null ∨ w = v := by
    unfold Frame.setLocal at hw
    simp only at hw
    split at hw
    · rw [Array.toList_setIfInBounds] at hw
      exact (List.mem_or_eq_of_mem_set hw).imp_right .inr
    · simp only [Array.toList_push, Array.toList_append, Array.toList_replicate, List.mem_append,
        List.mem_replicate, List.mem_singleton] at hw
      tauto
  rcases hmem with hw | rfl | rfl
  · exact h.locals w hw
  · exact Value.in_of_handles rfl
  · exact hv

theorem Frame.in_enter {c : Class} {this : Option Handle} {args : List Value} {body : Body}
    (hthis : ∀ ref, this = some ref → R.handle ref) (hargs : ∀ v ∈ args, v.In R)
    (hcode : ∀ st ∈ body.code, R.stmt c st) : (Frame.enter c this args body).In R := by
  refine ⟨hthis, fun v hv => ?_, hcode⟩
  have hmem : v ∈ args ∨ v = .null := by
    simp only [Frame.enter, Array.toList_append, List.mem_append, Array.toList_replicate,
      List.mem_replicate] at hv
    exact hv.imp id And.right
  rcases hmem with hv | rfl
  · exact hargs v hv
  · exact Value.in_of_handles rfl

theorem Frame.in_initializer (c : Class) : (Frame.initializer c).In R :=
  Frame.in_enter nofun (by simp) (by simp)

/-- Where every object is in the realm, a host function cannot leave it. -/
theorem HostProgram.in_of_all (hall : ∀ ref, R.handle ref) (p : HostProgram) : p.In R := by
  induction p with
  | reply r =>
    cases r with
    | value w => exact fun ref _ => hall ref
    | _ => trivial
  | write _ _ next ih | collect next ih | clock next ih => exact ih

theorem HostProgram.withArg_in {α : Type} {a : Except HostFault α} {next : α → HostProgram}
    (h : ∀ x, (next x).In R) : (HostProgram.withArg a next).In R := by
  cases a with
  | ok x => exact h x
  | error e => trivial

/-- The code of a body that was selected for a class. -/
theorem Realm.Covers.constructor {r : Registry} (hcov : R.Covers r) (hwf : r.Sound) {c : Class}
    (hc : r.Has c) {args : List Value} {k : Constructor} (hk : c.selectConstructor args = .ok k) :
    ∀ st ∈ k.body.code, R.stmt c st := by
  rcases hwf.constructor_body hc (Class.selectConstructor_mem hk) with hb | hb
  · exact hcov.bodies c hc _ hb
  · simp [hb]

theorem Realm.Covers.method {r : Registry} (hcov : R.Covers r) (hwf : r.Sound) {e : Method}
    (he : r.Lists e) {c : Class} (hc : r.class? e.declaring = some c) {body : Body}
    (hb : e.impl = .managed body) : ∀ st ∈ body.code, R.stmt c st := by
  obtain ⟨d, hd, hm⟩ := he
  obtain ⟨owner, ho, hbody⟩ := hwf.entry_body hd hm hb
  rw [hc] at ho
  cases ho
  exact hcov.bodies c (hwf.has_of_class? hc) body hbody

end Values

/-! ## Stores -/

section Stores

variable {R : Realm} {σ : Store}

/-- Only the objects and the static cells count. -/
theorem Store.In.congr (h : σ.In R) {σ' : Store} (hobj : σ'.heap.objects = σ.heap.objects)
    (hst : σ'.statics = σ.statics) : σ'.In R := by
  refine ⟨fun ref hr v hv => ?_, by rw [hst]; exact h.statics, fun ref hr => ?_⟩
  · unfold Heap.cells Heap.get? at hv
    rw [hobj] at hv
    exact h.cells ref hr v hv
  · unfold Heap.allocated at hr
    rw [hobj] at hr
    exact h.fresh ref hr

theorem Store.In.cell (h : σ.In R) {ref : Handle} (hr : R.handle ref) {slot : Nat} {v : Value}
    (hv : σ.heap.cell? ref slot = some v) : v.In R := by
  obtain ⟨o, ho, hget⟩ := Option.bind_eq_some_iff.1 hv
  exact h.cells ref hr v (Heap.mem_cells.2 ⟨o, ho, List.mem_of_getElem? hget⟩)

/-- The cells of the area of a class. -/
theorem Store.In.area (h : σ.In R) (c : Class) : ∀ v ∈ (σ.statics.area c).cells, v.In R := by
  rcases σ.statics.area_mem c with hm | heq
  · exact h.statics _ hm
  · rw [heq]
    intro v hv
    obtain ⟨d, -, rfl⟩ := List.mem_map.1 hv
    exact Value.in_default d.type

theorem Store.In.setArea (h : σ.In R) (c : Class) {a : StaticArea} (ha : ∀ v ∈ a.cells, v.In R) :
    Store.In R { σ with statics := σ.statics.setArea c a } := by
  refine ⟨h.cells, fun entry hm => ?_, h.fresh⟩
  rcases Statics.mem_put hm with rfl | hm
  · exact ha
  · exact h.statics entry hm

theorem Store.In.setState (h : σ.In R) (c : Class) (st : InitState) :
    Store.In R { σ with statics := σ.statics.setState c st } := h.setArea c (h.area c)

theorem Store.In.setStatic (h : σ.In R) (c : Class) (slot : Nat) {v : Value} (hv : v.In R) :
    Store.In R { σ with statics := σ.statics.setCell c slot v } := by
  refine h.setArea c fun w hw => ?_
  rcases List.mem_or_eq_of_mem_set hw with hw | rfl
  · exact h.area c w hw
  · exact hv

theorem Store.In.add (h : σ.In R) (c : Class) : Store.In R { σ with heap := σ.heap.add c } := by
  refine ⟨fun ref hr v hv => ?_, h.statics, fun ref hr => h.fresh ref ?_⟩
  · obtain ⟨o, ho, hv⟩ := Heap.mem_cells.1 hv
    rw [Heap.get?_add] at ho
    split at ho
    · cases ho
      obtain ⟨d, -, rfl⟩ := List.mem_map.1 hv
      exact Value.in_default d.type
    · exact h.cells ref hr v (Heap.mem_cells.2 ⟨o, ho, hv⟩)
  · simp only [Heap.allocated, Heap.add, Array.size_push] at hr ⊢
    omega

theorem Store.In.setField (h : σ.In R) (ref : Handle) (slot : Nat) {v : Value} (hv : v.In R) :
    Store.In R { σ with heap := σ.heap.setCell ref slot v } := by
  refine ⟨fun other hr w hw => ?_, h.statics, fun other hr => h.fresh other ?_⟩
  · obtain ⟨o, ho, hw⟩ := Heap.mem_cells.1 hw
    rw [Heap.get?_setCell] at ho
    split at ho
    · obtain ⟨o', ho', rfl⟩ := Option.map_eq_some_iff.1 ho
      rcases List.mem_or_eq_of_mem_set hw with hw | rfl
      · exact h.cells other hr w (Heap.mem_cells.2 ⟨o', ho', hw⟩)
      · exact hv
    · exact h.cells other hr w (Heap.mem_cells.2 ⟨o, ho, hw⟩)
  · simpa only [Heap.allocated, Heap.setCell, Array.size_modify] using hr

end Stores

/-! ## Steps -/

namespace State

section Steps

variable {env : Env} {s : State} {R : Realm} {f : Frame} {c : Class} {args : List Value}

theorem Rest.goto (h : s.Rest R) {c : Control} (hc : c.In R) : (s.goto c).In R :=
  ⟨⟨h.stack, h.store⟩, hc⟩

theorem Rest.raise (h : s.Rest R) (e : Failure) : (s.raise e).In R := h.goto trivial

theorem Rest.await (h : s.Rest R) {k : Cont} {c : Control} (hk : k.In R) (hc : c.In R) :
    (s.await k c).In R := ⟨⟨List.forall_mem_cons.2 ⟨hk, h.stack⟩, h.store⟩, hc⟩

theorem Rest.proceed (h : s.Rest R) {α : Type} {r : Except Failure α} {next : α → State}
    (hnext : ∀ a, r = .ok a → (next a).In R) : (s.proceed r next).In R := by
  cases r with
  | error e => exact h.raise e
  | ok a => exact hnext a rfl

theorem Rest.activate (h : s.Rest R) {k : Cont} {c : Control} (hk : k.In R) (hc : c.In R) :
    (s.activate env k c).In R := by
  unfold State.activate
  split
  · exact h.raise _
  · exact ⟨⟨List.forall_mem_cons.2 ⟨hk, h.stack⟩, h.store⟩, hc⟩

theorem construct_in (h : s.Rest R) (hargs : ∀ v ∈ args, v.In R) : (s.construct c args).In R :=
  h.await hargs trivial

theorem invoke_in (h : s.Rest R) {e : Method} {receiver : Option Handle}
    (hreceiver : ∀ ref, receiver = some ref → R.handle ref) (hargs : ∀ v ∈ args, v.In R) :
    (s.invoke env e receiver args).In R := by
  unfold invoke
  split
  · exact h.raise _
  · split
    · exact h.await hargs trivial
    · exact h.goto ⟨hreceiver, hargs⟩

theorem invokeStatic_in (h : s.Rest R) {name : String} (hargs : ∀ v ∈ args, v.In R) :
    (s.invokeStatic env c name args).In R :=
  h.proceed fun _ _ => invoke_in h nofun hargs

theorem invokeVirtual_in (h : s.Rest R) {receiver : Value} {name : String} (hreceiver : receiver.In R)
    (hargs : ∀ v ∈ args, v.In R) : (s.invokeVirtual env receiver name args).In R := by
  refine h.proceed fun ⟨ref, e⟩ hsel => invoke_in h ?_ hargs
  obtain ⟨rfl, -⟩ := selectVirtual_ok hsel
  intro ref' heq
  cases heq
  exact Value.in_object.1 hreceiver

theorem getStatic_in (h : s.Rest R) {name : String} : (s.getStatic env c name).In R := by
  unfold getStatic
  split
  · exact h.raise _
  · exact h.await trivial trivial

theorem putStatic_in (h : s.Rest R) {name : String} {v : Value} (hv : v.In R) :
    (s.putStatic env c name v).In R := by
  unfold putStatic
  split
  · exact h.raise _
  · exact h.await hv trivial

theorem callSuper_in (h : s.Rest R) (hf : f.In R) {name : String} (hargs : ∀ v ∈ args, v.In R) :
    (s.callSuper env f name args).In R := by
  unfold callSuper
  split
  · exact h.raise _
  · rename_i ref hthis
    split
    · exact h.raise _
    · refine h.proceed fun e _ => invoke_in h ?_ hargs
      intro ref' heq
      cases heq
      exact hf.this ref hthis

theorem receiverOf_in (hf : f.In R) {ref : Handle} (h : receiverOf f = .ok ref) : R.handle ref := by
  unfold receiverOf at h
  split at h
  · rename_i this hthis
    cases h
    exact hf.this _ hthis
  · cases h

/-- The arguments of a constructor with the new object in front. -/
theorem in_withReceiver {ref : Handle} (hr : R.handle ref) (hargs : ∀ v ∈ args, v.In R) :
    ∀ v ∈ Value.object ref :: args, v.In R :=
  List.forall_mem_cons.2 ⟨Value.in_object.2 hr, hargs⟩

variable (hwf : env.registry.Sound) (hcov : R.Covers env.registry)

include hwf hcov

theorem superInit_in (h : s.Rest R) (hf : f.In R) (hcls : env.registry.Has f.cls)
    (hargs : ∀ v ∈ args, v.In R) : (s.superInit env f args).In R := by
  refine h.proceed fun ref hthis => ?_
  have hr := receiverOf_in hf hthis
  split
  · exact h.raise _
  · rename_i parent hp
    refine h.proceed fun k hk => ?_
    have hcode := hcov.constructor hwf (hwf.parent_before hcls hp).1 hk
    refine h.activate hf (Frame.in_enter ?_ (in_withReceiver hr hargs) hcode)
    intro ref' heq
    cases heq
    exact hr

theorem call_in (h : s.Rest R) {target : CallTarget} (htarget : target.In R) (hf : f.In R)
    (hcls : env.registry.Has f.cls) (hargs : ∀ v ∈ args, v.In R) : (s.call env target args f).In R := by
  cases target with
  | create cls => exact h.proceed fun _ _ => construct_in h hargs
  | static cls method => exact h.proceed fun _ _ => invokeStatic_in h hargs
  | virtual receiver method => exact invokeVirtual_in h htarget hargs
  | superMethod method => exact callSuper_in h hf hargs
  | superInit => exact superInit_in hwf hcov h hf hcls hargs

theorem arguments_in (h : s.Rest R) (target : CallTarget) (htarget : target.In R) (hf : f.In R)
    (hcls : env.registry.Has f.cls) {before : List Value} (hbefore : ∀ v ∈ before, v.In R)
    (after : List Expr) : (s.arguments env target before after f).In R := by
  cases after with
  | nil => exact call_in hwf hcov h htarget hf hcls fun v hv => hbefore v (List.mem_reverse.1 hv)
  | cons e rest => exact h.await ⟨htarget, hbefore, hf⟩ hf

theorem eval_in (h : s.Rest R) (hf : f.In R) (hcls : env.registry.Has f.cls) (e : Expr) :
    (s.eval env f e).In R := by
  cases e with
  | literal l => exact h.goto (Literal.value_in l)
  | slot i =>
    simp only [eval]
    split
    · rename_i v hv
      rw [← Array.getElem?_toList] at hv
      exact h.goto (hf.locals v (List.mem_of_getElem? hv))
    · exact h.raise _
  | this => exact h.proceed fun ref hthis => h.goto (Value.in_object.2 (receiverOf_in hf hthis))
  | getField object owner field => exact h.await hf hf
  | getStatic cls field => exact h.proceed fun _ _ => getStatic_in h
  | unary op operand => exact h.await trivial hf
  | binary op lhs rhs => exact h.await hf hf
  | create cls args => exact arguments_in hwf hcov h (.create cls) trivial hf hcls (by simp) args
  | invokeStatic cls method args => exact arguments_in hwf hcov h (.static cls method) trivial hf hcls (by simp) args
  | invokeVirtual receiver method args => exact h.await hf hf
  | invokeSuper method args => exact arguments_in hwf hcov h (.superMethod method) trivial hf hcls (by simp) args

/-- The rest of the code of a frame, and what a statement nests, are code of the same frame. -/
theorem exec_in (h : s.Rest R) (hf : f.In R) (hcls : env.registry.Has f.cls) : (s.exec env f).In R := by
  unfold exec
  split
  · exact h.goto (Value.in_of_handles rfl)
  · rename_i stmt rest hcode
    have hall : ∀ st ∈ stmt :: rest, R.stmt f.cls st := hcode ▸ hf.code
    obtain ⟨hstmt, hrest⟩ := List.forall_mem_cons.1 hall
    have hf' : Frame.In R { f with code := rest } := hf.withCode hrest
    cases stmt with
    | expr e => exact h.await hf' hf'
    | store slot value => exact h.await hf' hf'
    | putField object owner field value => exact h.await ⟨hf', object, hstmt⟩ hf'
    | putStatic cls field value => exact h.await hf' hf'
    | branch cond yes no => exact h.await ⟨hf', hcov.branch hstmt⟩ hf'
    | loop cond body => exact h.await ⟨hf', hstmt⟩ hf'
    | giveBack value =>
      cases value with
      | none => exact h.goto (Value.in_of_handles rfl)
      | some e => exact h.await hf' hf'
    | superInit args =>
      have hcls' : env.registry.Has { f with code := rest }.cls := hcls
      exact arguments_in hwf hcov h .superInit trivial hf' hcls' (by simp) args

omit hwf hcov in
theorem readField_in (h : s.Rest R) {owner field : String} {target : Value} (htarget : target.In R) :
    (s.readField env owner field f target).In R := by
  refine h.proceed fun c _ => h.proceed fun ⟨ref, slot⟩ hloc => ?_
  obtain ⟨rfl, -⟩ := locateField_ok hloc
  simp only
  split
  · rename_i v hv
    exact h.goto (h.store.cell (Value.in_object.1 htarget) hv)
  · exact h.raise _

omit hwf hcov in
theorem writeField_in (h : s.Rest R) (hf : f.In R) {owner field : String} {target v : Value}
    (hv : v.In R) : (s.writeField env owner field f target v).In R := by
  refine h.proceed fun c _ => h.proceed fun ⟨ref, slot⟩ _ => ?_
  simp only
  split
  · exact h.raise _
  · split
    · split
      · exact ⟨⟨h.stack, h.store.setField ref slot hv⟩, hf⟩
      · exact h.raise _
    · exact h.raise _

omit hwf hcov in
theorem decide_in (h : s.Rest R) {answer : Value} {yes no : Frame} (hyes : yes.In R) (hno : no.In R) :
    (s.decide answer yes no).In R := by
  unfold State.decide
  split
  · exact h.goto hyes
  · exact h.goto hno
  · exact h.raise _

/-- The statements that a condition selects go before the rest of the code. -/
theorem resume_in (h : s.Rest R) {k : Cont} (hk : k.In R) (hfit : k.Fits env.registry)
    {answer : Option Value} (ha : (answer.getD .null).In R) : (s.resume env k answer).In R := by
  have hleave : s.leave.Rest R := ⟨h.stack, h.store⟩
  cases k with
  | unary op => exact h.proceed fun v hv => h.goto (Value.in_of_handles (UnaryOp.apply_ok hv))
  | binaryLeft op rhs f => exact h.await ha hk
  | binaryRight op lhs => exact h.proceed fun v hv => h.goto (Value.in_of_handles (BinaryOp.apply_ok hv))
  | readField owner field f => exact readField_in h ha
  | receiver method args f =>
    exact arguments_in hwf hcov h (.virtual _ method) ha hk (hfit f rfl) (by simp) args
  | argument target before after f =>
    obtain ⟨htarget, hbefore, hf⟩ := hk
    exact arguments_in hwf hcov h target htarget hf (hfit f rfl) (List.forall_mem_cons.2 ⟨ha, hbefore⟩) after
  | discard f => exact h.goto hk
  | store slot f => exact h.goto (hk.setLocal ha slot.toNat)
  | putObject owner field value f =>
    obtain ⟨hf, object, hstmt⟩ := hk
    exact h.await ⟨ha, hf, object, value, hstmt⟩ hf
  | putValue owner field object f => exact writeField_in h hk.2.1 ha
  | putStatic cls field f =>
    have h' : State.Rest R { s with stack := .resume f :: s.stack } :=
      ⟨List.forall_mem_cons.2 ⟨hk, h.stack⟩, h.store⟩
    exact h.proceed fun c _ => putStatic_in h' ha
  | branch yes no f =>
    obtain ⟨hf, hnested⟩ := hk
    obtain ⟨hyes, hno⟩ := List.forall_mem_append.1 hnested
    exact decide_in h (hf.withCode (List.forall_mem_append.2 ⟨hyes, hf.code⟩))
      (hf.withCode (List.forall_mem_append.2 ⟨hno, hf.code⟩))
  | loop cond body f =>
    obtain ⟨hf, hloop⟩ := hk
    have hagain := List.forall_mem_cons.2 ⟨hloop, hf.code⟩
    exact decide_in h (hf.withCode (List.forall_mem_append.2 ⟨hcov.loop hloop, hagain⟩)) hf
  | giveBack f => exact h.goto ha
  | resume f => exact h.goto hk
  | returning returns =>
    refine hleave.proceed fun v hv => hleave.goto ?_
    rw [methodResult_value hv]
    exact ha
  | constructing ref => exact hleave.goto (Value.in_object.2 hk)
  | superDone f => exact hleave.goto hk
  | hostCall => exact hleave.goto ha
  | initializing c => exact ⟨⟨h.stack, h.store.setState c .done⟩, Value.in_of_handles rfl⟩
  | ownStatics c => exact h.goto trivial
  | staticValue c slot type rest =>
    simp only [State.resume]
    split
    · exact ⟨⟨h.stack, h.store.setStatic c slot ha⟩, trivial⟩
    · exact h.raise _
  | staticBlock => exact h.goto (Value.in_of_handles rfl)
  | thenCreate c args => exact h.goto hk
  | thenInvoke e declaring args => exact h.goto ⟨nofun, hk⟩
  | thenRead owner slot name =>
    simp only [State.resume]
    split
    · rename_i v hv
      exact h.goto (h.store.area owner v (List.mem_of_getElem? hv))
    · exact h.raise _
  | thenWrite owner slot name v =>
    simp only [State.resume]
    split
    · exact h.raise _
    · split
      · exact ⟨⟨h.stack, h.store.setStatic owner slot hk⟩, Value.in_of_handles rfl⟩
      · exact h.raise _

omit hwf hcov in
theorem unwind_in (h : s.Rest R) (k : Cont) (e : Failure) : (s.unwind k e).In R := by
  unfold State.unwind
  split
  · rename_i c
    exact ⟨⟨h.stack, h.store.setState c _⟩, trivial⟩
  · split
    · exact ⟨⟨h.stack, h.store⟩, trivial⟩
    · exact h.raise e

/-- The new object does not exist before, and so it is in the realm. -/
theorem allocate_in (h : s.Rest R) (hc : env.registry.Has c) (hargs : ∀ v ∈ args, v.In R) :
    (s.allocate env c args).In R := by
  refine h.proceed fun k hk => ?_
  have hr : R.handle s.store.heap.next := h.store.fresh _ le_rfl
  obtain ⟨heap, hobj, hroom⟩ := makeRoom_eq env s
  have h' : ((s.makeRoom env).addObject c).Rest R := by
    have hσ : Store.In R { s.store with heap } := h.store.congr hobj rfl
    rw [hroom]
    exact ⟨h.stack, hσ.add c⟩
  refine h'.activate hr (Frame.in_enter ?_ (in_withReceiver hr hargs) (hcov.constructor hwf hc hk))
  intro ref heq
  cases heq
  exact hr

theorem enterMethod_in (h : s.Rest R) {e : Method} (he : env.registry.Lists e)
    (hc : env.registry.class? e.declaring = some c) {receiver : Option Handle}
    (hreceiver : ∀ ref, receiver = some ref → R.handle ref) (hargs : ∀ v ∈ args, v.In R) :
    (s.enterMethod env e c receiver args).In R := by
  have hall : ∀ v ∈ (receiver.map Value.object).toList ++ args, v.In R := by
    refine List.forall_mem_append.2 ⟨fun v hv => ?_, hargs⟩
    obtain ⟨ref, href, rfl⟩ := Option.map_eq_some_iff.1 (Option.mem_toList.1 hv)
    exact Value.in_object.2 (hreceiver ref href)
  unfold State.enterMethod
  simp only
  split
  · rename_i body hb
    exact h.activate trivial (Frame.in_enter hreceiver hall (hcov.method hwf he hc hb))
  · rename_i f hb
    refine h.activate trivial (hcov.hosts e he f hb _ _ (fun ref hr name v hv => ?_) hall)
    obtain ⟨d, -, hv⟩ := Option.bind_eq_some_iff.1 hv
    obtain ⟨slot, -, hv⟩ := Option.bind_eq_some_iff.1 hv
    exact h.store.cell hr hv

omit hwf hcov in
theorem beginInit_in (h : s.Rest R) (c : Class) : (s.beginInit env c).In R := by
  unfold State.beginInit
  split
  · exact h.goto (Value.in_of_handles rfl)
  · exact h.goto (Value.in_of_handles rfl)
  · exact h.raise _
  · have h' := h.store.setState c .running
    simp only
    split
    · have hstack : ∀ k ∈ .ownStatics c :: .initializing c :: s.stack, k.In R :=
        List.forall_mem_cons.2 ⟨trivial, List.forall_mem_cons.2 ⟨trivial, h.stack⟩⟩
      exact ⟨⟨hstack, h'⟩, trivial⟩
    · exact ⟨⟨List.forall_mem_cons.2 ⟨trivial, h.stack⟩, h'⟩, trivial⟩

omit hwf in
theorem initializeFields_in (h : s.Rest R) (hc : env.registry.Has c) (slot : Nat)
    (rest : List StaticDecl) : (s.initializeFields c slot rest).In R := by
  unfold State.initializeFields
  split
  · split
    · exact h.goto trivial
    · exact h.await trivial (Frame.in_initializer c)
  · split
    · exact h.goto (Value.in_of_handles rfl)
    · rename_i block hb
      have hcode := hcov.bodies c hc block (ClassDecl.staticBlock_mem_bodies hb)
      exact h.await trivial (Frame.in_enter nofun (by simp) hcode)

omit hwf hcov in
theorem hostStep_in (h : s.Rest R) {e : Method} {p : HostProgram} (hp : p.In R) :
    (s.hostStep env e args p).In R := by
  unfold State.hostStep
  split
  · rename_i r
    refine h.proceed fun v hv => h.goto ?_
    rcases HostReply.result_value hv with rfl | rfl
    · exact Value.in_of_handles rfl
    · exact hp
  · exact ⟨⟨h.stack, h.store.congr rfl rfl⟩, hp _⟩
  · split
    · exact ⟨⟨h.stack, h.store.congr rfl rfl⟩, hp _⟩
    · exact h.goto (hp _)
  · exact ⟨⟨h.stack, h.store.congr rfl rfl⟩, hp _⟩

/-- A step stays in the realm. -/
theorem step_in (hfit : s.Fits env) (hlist : s.Listed env) (h : s.In R) : (s.step env).In R := by
  have hrest : s.Rest R := h.toRest
  have hcontrol := h.control
  have hfits := hfit.control
  unfold State.step
  split
  · rename_i f e hc
    rw [hc] at hcontrol hfits
    exact eval_in hwf hcov hrest hcontrol hfits e
  · rename_i f hc
    rw [hc] at hcontrol hfits
    exact exec_in hwf hcov hrest hcontrol hfits
  · rename_i v hc
    rw [hc] at hcontrol
    split
    · exact h
    · rename_i k K hK
      have hstack : ∀ k' ∈ k :: K, k'.In R := hK ▸ hrest.stack
      obtain ⟨hk, hstack⟩ := List.forall_mem_cons.1 hstack
      have hkfit : k.Fits env.registry := hfit.stack k (hK ▸ List.mem_cons_self)
      have hrest' : State.Rest R { s with stack := K } := ⟨hstack, hrest.store⟩
      exact resume_in hwf hcov hrest' hk hkfit hcontrol
  · split
    · exact h
    · rename_i k K hK
      have hstack : ∀ k' ∈ k :: K, k'.In R := hK ▸ hrest.stack
      have hrest' : State.Rest R { s with stack := K } := ⟨(List.forall_mem_cons.1 hstack).2, hrest.store⟩
      exact unwind_in hrest' k _
  · exact beginInit_in hrest _
  · rename_i c slot rest hc
    rw [hc] at hfits
    exact initializeFields_in hcov hrest hfits.1 slot rest
  · rename_i c args hc
    rw [hc] at hcontrol hfits
    exact allocate_in hwf hcov hrest hfits hcontrol
  · rename_i e declaring receiver args hc
    rw [hc] at hcontrol hfits
    exact enterMethod_in hwf hcov hrest (hlist.control e (by rw [hc]; rfl)) hfits.1 hcontrol.1 hcontrol.2
  · rename_i e args p hc
    rw [hc] at hcontrol
    exact hostStep_in hrest hcontrol

end Steps

end State

/-! ## Runs -/

/-- What an operation brings with it: arguments, and code that the host supplies itself. -/
def Operation.In (R : Realm) (env : Env) : Operation → Prop
  | .construct _ _ args | .invokeStatic _ _ _ args => ∀ v ∈ args, v.In R
  | .invokeVirtual receiver _ args => receiver.In R ∧ ∀ v ∈ args, v.In R
  | .putStatic _ _ _ v => v.In R
  | .run u cls body locals => (∀ v ∈ locals, v.In R) ∧
      ∀ c, env.registry.lookup u cls = .ok c → ∀ st ∈ body.code, R.stmt c st
  | _ => True

theorem Operation.start_in {R : Realm} {env : Env} {op : Operation} {σ : Store} (hop : op.In R env)
    (hσ : σ.In R) : (op.start env σ).In R := by
  have h : (State.idle σ).Rest R := ⟨by simp, hσ⟩
  cases op with
  | construct u cls args => exact h.proceed fun c _ => State.construct_in h hop
  | invokeStatic u cls method args => exact h.proceed fun c _ => State.invokeStatic_in h hop
  | invokeVirtual receiver method args => exact State.invokeVirtual_in h hop.1 hop.2
  | getStatic u cls field => exact h.proceed fun c _ => State.getStatic_in h
  | putStatic u cls field v => exact h.proceed fun c _ => State.putStatic_in h hop
  | prepare u cls => exact h.proceed fun c _ => h.goto trivial
  | eval u cls e => exact h.proceed fun c _ => h.goto (Frame.in_initializer c)
  | run u cls body locals =>
    exact h.proceed fun c hc => h.goto (Frame.in_enter nofun hop.1 (hop.2 c hc))

/-- A run that starts in a realm stays in it. -/
theorem History.moment_in {allowed : Act → Prop} {m : Machine} {past : List State}
    (h : History allowed m past) {R : Realm} (hcov : R.Covers m.registry) {op : Operation}
    (ha : allowed (.perform op)) (hop : op.In R m.env) (hσ : m.store.In R) (n : Nat) :
    (m.moment op n).In R := by
  induction n with
  | zero => exact Operation.start_in hop hσ
  | succ n ih =>
    rw [Machine.moment_succ]
    exact State.step_in h.sound hcov (fits_invariant.moment h ha n) (listed_invariant.moment h ha n) ih

end ObjectMachine
