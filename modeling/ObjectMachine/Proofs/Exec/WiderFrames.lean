/-
Runs in wider frames. A body that reserves more local slots is entered with more nulls after its locals,
and that is all: the frame has the same slots at the beginning and nulls behind them. A store puts the
value into the same slot of both frames, one of which may have to grow for it, and leaves nulls behind
again; a null holds no object, so that a sweep finds the same roots. Only reading a slot that the
narrower frame does not have tells the two apart, and there the narrower run fails with an error that
nothing takes back. So a run without that error and the run in wider frames go side by side to the same
end.
-/
import ObjectMachine.Proofs.Exec.Unwinding
import ObjectMachine.Proofs.Registry.WiderBodies

namespace ObjectMachine

/-! ## Definitions -/

/-- The frame with nulls after its locals, in code of a class with wider bodies. -/
structure Frame.Widened (f f' : Frame) : Prop where
  cls : f.cls.Widened f'.cls
  this : f'.this = f.this
  code : f'.code = f.code
  locals : ∃ k, f'.locals.toList = f.locals.toList ++ List.replicate k .null

/-- The continuation in wider frames and wider classes. -/
inductive Cont.Widened : Cont → Cont → Prop where
  | unary {op} : Widened (.unary op) (.unary op)
  | binaryLeft {op rhs f f'} : f.Widened f' → Widened (.binaryLeft op rhs f) (.binaryLeft op rhs f')
  | binaryRight {op lhs} : Widened (.binaryRight op lhs) (.binaryRight op lhs)
  | readField {owner field f f'} : f.Widened f' →
      Widened (.readField owner field f) (.readField owner field f')
  | receiver {method args f f'} : f.Widened f' →
      Widened (.receiver method args f) (.receiver method args f')
  | argument {target before after f f'} : f.Widened f' →
      Widened (.argument target before after f) (.argument target before after f')
  | discard {f f'} : f.Widened f' → Widened (.discard f) (.discard f')
  | store {slot f f'} : f.Widened f' → Widened (.store slot f) (.store slot f')
  | putObject {owner field value f f'} : f.Widened f' →
      Widened (.putObject owner field value f) (.putObject owner field value f')
  | putValue {owner field object f f'} : f.Widened f' →
      Widened (.putValue owner field object f) (.putValue owner field object f')
  | putStatic {cls field f f'} : f.Widened f' → Widened (.putStatic cls field f) (.putStatic cls field f')
  | branch {yes no f f'} : f.Widened f' → Widened (.branch yes no f) (.branch yes no f')
  | loop {cond body f f'} : f.Widened f' → Widened (.loop cond body f) (.loop cond body f')
  | giveBack {f f'} : f.Widened f' → Widened (.giveBack f) (.giveBack f')
  | resume {f f'} : f.Widened f' → Widened (.resume f) (.resume f')
  | returning {returns} : Widened (.returning returns) (.returning returns)
  | constructing {ref} : Widened (.constructing ref) (.constructing ref)
  | superDone {f f'} : f.Widened f' → Widened (.superDone f) (.superDone f')
  | hostCall : Widened .hostCall .hostCall
  | initializing {c c'} : c.Widened c' → Widened (.initializing c) (.initializing c')
  | ownStatics {c c'} : c.Widened c' → Widened (.ownStatics c) (.ownStatics c')
  | staticValue {c c' slot type rest} : c.Widened c' →
      Widened (.staticValue c slot type rest) (.staticValue c' slot type rest)
  | staticBlock : Widened .staticBlock .staticBlock
  | thenCreate {c c' args} : c.Widened c' → Widened (.thenCreate c args) (.thenCreate c' args)
  | thenInvoke {e e' c c' args} : e.Widened e' → c.Widened c' →
      Widened (.thenInvoke e c args) (.thenInvoke e' c' args)
  | thenRead {c c' slot name} : c.Widened c' → Widened (.thenRead c slot name) (.thenRead c' slot name)
  | thenWrite {c c' slot name v} : c.Widened c' →
      Widened (.thenWrite c slot name v) (.thenWrite c' slot name v)

/-- The control in wider frames and wider classes. -/
inductive Control.Widened : Control → Control → Prop where
  | eval {f f' e} : f.Widened f' → Widened (.eval f e) (.eval f' e)
  | exec {f f'} : f.Widened f' → Widened (.exec f) (.exec f')
  | answer {v} : Widened (.answer v) (.answer v)
  | raise {e} : Widened (.raise e) (.raise e)
  | init {c c'} : c.Widened c' → Widened (.init c) (.init c')
  | statics {c c' slot rest} : c.Widened c' → Widened (.statics c slot rest) (.statics c' slot rest)
  | create {c c' args} : c.Widened c' → Widened (.create c args) (.create c' args)
  | enter {e e' c c' receiver args} : e.Widened e' → c.Widened c' →
      Widened (.enter e c receiver args) (.enter e' c' receiver args)
  | host {e e' args p} : e.Widened e' → Widened (.host e args p) (.host e' args p)

structure Env.Widened (env env' : Env) : Prop where
  registry : env.registry.Widened env'.registry
  options : env'.options = env.options
  pinned : env'.pinned = env.pinned

/-- The states are alike but for what is being done. -/
structure State.Beside (s s' : State) : Prop where
  stack : List.Forall₂ Cont.Widened s.stack s'.stack
  depth : s'.depth = s.depth
  store : s'.store = s.store

/-- The state in wider frames, with the very same store. -/
structure State.Widened (s s' : State) : Prop extends State.Beside s s' where
  control : s.control.Widened s'.control

/-- The machine with the bodies of its classes widened, in the same state. -/
structure Machine.Widened (m m' : Machine) : Prop where
  registry : m.registry.Widened m'.registry
  options : m'.options = m.options
  natives : m'.natives = m.natives
  store : m'.store = m.store
  pinned : m'.pinned = m.pinned

/-- The error is that of a local slot which the frame does not have, or was raised because of it. -/
def Failure.IsNoLocal (e : Failure) : Prop := ∃ slot size, e.root = .noSuchLocal slot size

/-- Operations performed one after the other, each to its end, with the result of each and the store
that it leaves behind. -/
inductive Machine.Performs : Machine → List (Operation × Except Failure (Option Value) × Store) → Prop where
  | nil {m} : Performs m []
  | cons {m fuel op r m' log} : m.perform fuel op = some (r, m') → Performs m' log →
      Performs m ((op, r, m'.store) :: log)

/-! ## Frames -/

/-- A frame grows with nulls up to the slot, and then holds the value there. -/
theorem Frame.setLocal_toList (f : Frame) (slot : Nat) (v : Value) :
    (f.setLocal slot v).locals.toList =
      (f.locals.toList ++ List.replicate (slot + 1 - f.locals.size) Value.null).set slot v := by
  unfold setLocal
  dsimp only
  split
  · rename_i hlt
    rw [Nat.sub_eq_zero_of_le hlt]
    simp
  · rename_i hge
    have hlen : (f.locals.toList ++ List.replicate (slot - f.locals.size) Value.null).length = slot := by
      simp
      omega
    rw [Nat.sub_add_comm (not_lt.1 hge), List.replicate_succ', ← List.append_assoc,
      List.set_append_right _ _ (le_of_eq hlen), hlen]
    simp

namespace Frame.Widened

variable {f f' : Frame}

theorem withCode (h : f.Widened f') (code : List Stmt) :
    Frame.Widened { f with code } { f' with code } :=
  ⟨h.cls, h.this, rfl, h.locals⟩

theorem enter {c c' : Class} (hc : c.Widened c') (this : Option Handle) (args : List Value)
    {body body' : Body} (hb : body.Widened body') :
    (Frame.enter c this args body).Widened (Frame.enter c' this args body') := by
  have hle : body.maxLocals.toNat ≤ body'.maxLocals.toNat := UInt16.le_iff_toNat_le.1 hb.maxLocals
  refine ⟨hc, rfl, hb.code, body'.maxLocals.toNat - args.length - (body.maxLocals.toNat - args.length), ?_⟩
  simp only [Frame.enter, Array.toList_append, Array.toList_replicate, List.append_assoc,
    List.replicate_append_replicate]
  congr 2
  omega

theorem initializer {c c' : Class} (hc : c.Widened c') :
    (Frame.initializer c).Widened (Frame.initializer c') :=
  .enter hc none [] (.refl {})

/-- The value goes to the same slot, and behind the slots of the narrower frame there are nulls. -/
theorem setLocal (h : f.Widened f') (slot : Nat) (v : Value) :
    (f.setLocal slot v).Widened (f'.setLocal slot v) := by
  obtain ⟨k, hk⟩ := h.locals
  have hsize : f'.locals.size = f.locals.size + k := by
    rw [← Array.length_toList, hk, List.length_append, List.length_replicate, Array.length_toList]
  refine ⟨h.cls, h.this, h.code, k + (slot + 1 - (f.locals.size + k)) - (slot + 1 - f.locals.size), ?_⟩
  have hlt : slot < (f.locals.toList ++
      List.replicate (slot + 1 - f.locals.size) Value.null).length := by
    simp
    omega
  rw [Frame.setLocal_toList, Frame.setLocal_toList, hk, hsize, ← List.set_append_left _ _ hlt,
    List.append_assoc, List.append_assoc, List.replicate_append_replicate,
    List.replicate_append_replicate]
  congr 3
  omega

theorem handles (h : f.Widened f') : f'.handles = f.handles := by
  obtain ⟨k, hk⟩ := h.locals
  have hnulls : (List.replicate k Value.null).flatMap Value.handles = [] := by
    rw [List.flatMap_eq_nil_iff]
    intro v hv
    rw [List.eq_of_mem_replicate hv]
    rfl
  rw [Frame.handles, Frame.handles, h.this, hk, List.flatMap_append, hnulls, List.append_nil]

/-- A slot of the narrower frame holds the same value in the wider one. -/
theorem get? (h : f.Widened f') {i : Nat} {v : Value} (hv : f.locals[i]? = some v) :
    f'.locals[i]? = some v := by
  obtain ⟨k, hk⟩ := h.locals
  rw [← Array.getElem?_toList] at hv ⊢
  obtain ⟨hi, -⟩ := List.getElem?_eq_some_iff.1 hv
  rw [hk, List.getElem?_append_left hi, hv]

end Frame.Widened

/-! ## Roots -/

theorem Cont.Widened.handles {k k' : Cont} (h : k.Widened k') : k'.handles = k.handles := by
  cases h with
  | unary | binaryRight | returning | constructing | hostCall | initializing | ownStatics | staticValue
  | staticBlock | thenCreate | thenInvoke | thenRead | thenWrite => rfl
  | binaryLeft hf | readField hf | receiver hf | discard hf | store hf | putObject hf | putStatic hf
  | branch hf | loop hf | giveBack hf | resume hf | superDone hf => exact hf.handles
  | argument hf | putValue hf => simp only [Cont.handles, hf.handles]

theorem Control.Widened.handles {c c' : Control} (h : c.Widened c') : c'.handles = c.handles := by
  cases h with
  | eval hf | exec hf => exact hf.handles
  | answer | raise | init | statics | create | enter | host => rfl

theorem State.Widened.roots {env env' : Env} {s s' : State} (h : s.Widened s') (he : env.Widened env') :
    s'.roots env' = s.roots env := by
  have hstack : s'.stack.flatMap Cont.handles = s.stack.flatMap Cont.handles := by
    rw [List.flatMap_def, List.flatMap_def, forall₂_map_eq (fun _ _ hk => Cont.Widened.handles hk) h.stack]
  rw [State.roots, State.roots, he.pinned, h.store, h.control.handles, hstack]

/-! ## What is read from the store -/

section Reading

variable {r r' : Registry} {c c' : Class}

theorem Statics.area_widened (h : c.Widened c') (t : Statics) : t.area c' = t.area c := by
  unfold Statics.area StaticArea.fresh
  rw [h.id, h.statics]

theorem Statics.state_widened (h : c.Widened c') (t : Statics) : t.state c' = t.state c := by
  rw [Statics.state, h.id, Statics.state]

theorem Statics.cell?_widened (h : c.Widened c') (t : Statics) (slot : Nat) :
    t.cell? c' slot = t.cell? c slot := by
  rw [Statics.cell?, area_widened h, Statics.cell?]

theorem Statics.setState_widened (h : c.Widened c') (t : Statics) (st : InitState) :
    t.setState c' st = t.setState c st := by
  unfold Statics.setState Statics.setArea
  rw [area_widened h, h.id]

theorem Statics.setCell_widened (h : c.Widened c') (t : Statics) (slot : Nat) (v : Value) :
    t.setCell c' slot v = t.setCell c slot v := by
  unfold Statics.setCell Statics.setArea
  rw [area_widened h, h.id]

theorem Store.classOf?_widened (h : r.Widened r') (σ : Store) (ref : Handle) :
    Option.Rel Class.Widened (σ.classOf? r ref) (σ.classOf? r' ref) := by
  unfold Store.classOf?
  cases σ.heap.get? ref with
  | none => exact Option.Rel.none
  | some o => exact h.class? o.cls

theorem Store.nameOf_widened (h : r.Widened r') (σ : Store) : σ.nameOf r' = σ.nameOf r := by
  funext ref
  unfold Store.nameOf
  rcases option_rel_cases (σ.classOf?_widened h ref) with ⟨hx, hy⟩ | ⟨c, c', hx, hy, hc⟩
  · rw [hx, hy]
  · simp only [hx, hy, hc.name]

theorem Store.text_widened (h : r.Widened r') (σ : Store) (v : Value) : σ.text r' v = σ.text r v := by
  rw [Store.text, nameOf_widened h, Store.text]

theorem Store.fieldByName?_widened (h : r.Widened r') (σ : Store) :
    σ.fieldByName? r' = σ.fieldByName? r := by
  funext ref name
  unfold Store.fieldByName?
  rcases option_rel_cases (σ.classOf?_widened h ref) with ⟨hx, hy⟩ | ⟨c, c', hx, hy, hc⟩
  · rw [hx, hy]
  · rw [hx, hy, Option.bind_some, Option.bind_some, hc.fieldIndex?]

/-- The receiver is the same, and the method that its class selects. -/
theorem selectVirtual_widened (h : r.Widened r') (σ : Store) (receiver : Value) (name : String)
    (args : List Value) :
    Alike (fun x y : Handle × Method => y.1 = x.1 ∧ x.2.Widened y.2)
      (selectVirtual (σ.classOf? r) receiver name args)
      (selectVirtual (σ.classOf? r') receiver name args) := by
  unfold selectVirtual
  cases receiver with
  | object ref =>
    rcases option_rel_cases (σ.classOf?_widened h ref) with ⟨hx, hy⟩ | ⟨c, c', hx, hy, hc⟩
    · simp only [hx, hy]
      exact .error
    · simp only [hx, hy]
      have hselect := hc.select .onInstance name args
      revert hselect
      generalize c.select .onInstance name args = x
      generalize c'.select .onInstance name args = x'
      intro hx
      cases hx with
      | ok he => exact .ok ⟨rfl, he⟩
      | error => exact .error
  | null | bool | int | long | text => exact .error

theorem unknownField_widened (hc : c.Widened c') (field : String) :
    unknownField c' field = unknownField c field := by
  rw [unknownField, hc.name, unknownField]

theorem locateField_widened (h : r.Widened r') (hc : c.Widened c') (σ : Store) (target : Value)
    (field access : String) :
    locateField (σ.classOf? r') c' target field access =
      locateField (σ.classOf? r) c target field access := by
  unfold locateField
  rw [hc.name, unknownField_widened hc]
  cases target with
  | object ref =>
    rcases option_rel_cases (σ.classOf?_widened h ref) with ⟨hx, hy⟩ | ⟨d, d', hx, hy, hd⟩
    · simp only [hx, hy]
    · simp only [hx, hy, hd.descendsFrom hc, hc.fieldIndex?, hd.name]
  | null | bool | int | long | text => rfl

theorem HostReply.result_widened {e e' : Method} (h : e.Widened e') (reply : HostReply) :
    reply.result e' = reply.result e := by
  unfold HostReply.result
  rw [h.returns, h.qualifiedName]

end Reading

/-! ## Calls -/

namespace State

theorem Widened.hostView {env env' : Env} {s s' : State} (h : s.Beside s') (he : env.Widened env') :
    s'.hostView env' = s.hostView env := by
  rw [State.hostView, State.hostView, h.store, he.options, Store.fieldByName?_widened he.registry]

namespace Beside

variable {env env' : Env} {s s' : State}

theorem goto (h : s.Beside s') {c c' : Control} (hc : c.Widened c') : (s.goto c).Widened (s'.goto c') :=
  ⟨⟨h.stack, h.depth, h.store⟩, hc⟩

theorem raise (h : s.Beside s') (e : Failure) : (s.raise e).Widened (s'.raise e) := h.goto .raise

theorem answer (h : s.Beside s') (v : Option Value) :
    (s.goto (.answer v)).Widened (s'.goto (.answer v)) := h.goto .answer

theorem push (h : s.Beside s') {k k' : Cont} (hk : k.Widened k') :
    State.Beside { s with stack := k :: s.stack } { s' with stack := k' :: s'.stack } :=
  ⟨.cons hk h.stack, h.depth, h.store⟩

theorem await (h : s.Beside s') {k k' : Cont} (hk : k.Widened k') {c c' : Control} (hc : c.Widened c') :
    (s.await k c).Widened (s'.await k' c') :=
  ⟨⟨.cons hk h.stack, h.depth, h.store⟩, hc⟩

theorem leave (h : s.Beside s') : s.leave.Beside s'.leave :=
  ⟨h.stack, congrArg (· - 1) h.depth, h.store⟩

/-- The same change of the store on both sides. -/
theorem withStore (h : s.Beside s') (σ : Store) : State.Beside { s with store := σ } { s' with store := σ } :=
  ⟨h.stack, h.depth, rfl⟩

theorem proceed (h : s.Beside s') {α β : Type} {R : α → β → Prop} {x : Except Failure α}
    {y : Except Failure β} (hxy : Alike R x y) {next : α → State} {next' : β → State}
    (hnext : ∀ a b, R a b → (next a).Widened (next' b)) :
    (s.proceed x next).Widened (s'.proceed y next') := by
  cases hxy with
  | ok hab => exact hnext _ _ hab
  | error => exact h.raise _

theorem proceed_same (h : s.Beside s') {α : Type} (x : Except Failure α) {next next' : α → State}
    (hnext : ∀ a, (next a).Widened (next' a)) : (s.proceed x next).Widened (s'.proceed x next') := by
  cases x with
  | ok a => exact hnext a
  | error e => exact h.raise e

theorem lookup (h : s.Beside s') (he : env.Widened env') {f f' : Frame} (hf : f.Widened f') (name : String)
    {next next' : Class → State} (hnext : ∀ c c', c.Widened c' → (next c).Widened (next' c')) :
    (s.proceed (lookup env f name) next).Widened (s'.proceed (State.lookup env' f' name) next') := by
  unfold State.lookup
  rw [hf.cls.scope]
  exact h.proceed (he.registry.lookup f.cls.scope name) hnext

theorem activate (h : s.Beside s') (he : env.Widened env') {k k' : Cont} (hk : k.Widened k')
    {c c' : Control} (hc : c.Widened c') : (s.activate env k c).Widened (s'.activate env' k' c') := by
  unfold State.activate
  rw [he.options, h.depth]
  split
  · exact h.raise _
  · exact ⟨⟨.cons hk h.stack, rfl, h.store⟩, hc⟩

theorem invoke (h : s.Beside s') (he : env.Widened env') {e e' : Method} (hm : e.Widened e')
    (receiver : Option Handle) (args : List Value) :
    (s.invoke env e receiver args).Widened (s'.invoke env' e' receiver args) := by
  unfold State.invoke
  rw [hm.declaring, hm.declaringName, hm.isStatic]
  rcases option_rel_cases (he.registry.class? e.declaring) with ⟨hx, hy⟩ | ⟨c, c', hx, hy, hc⟩
  · simp only [hx, hy]
    exact h.raise _
  · simp only [hx, hy]
    split
    · exact h.await (.thenInvoke hm hc) (.init hc)
    · exact h.goto (.enter hm hc)

theorem construct (h : s.Beside s') {c c' : Class} (hc : c.Widened c') (args : List Value) :
    (s.construct c args).Widened (s'.construct c' args) :=
  h.await (.thenCreate hc) (.init hc)

theorem invokeStatic (h : s.Beside s') (he : env.Widened env') {c c' : Class} (hc : c.Widened c')
    (name : String) (args : List Value) :
    (s.invokeStatic env c name args).Widened (s'.invokeStatic env' c' name args) :=
  h.proceed (hc.select .static name args) fun _ _ hm => h.invoke he hm none args

theorem invokeVirtual (h : s.Beside s') (he : env.Widened env') (receiver : Value) (name : String)
    (args : List Value) :
    (s.invokeVirtual env receiver name args).Widened (s'.invokeVirtual env' receiver name args) := by
  unfold State.invokeVirtual
  rw [h.store]
  refine h.proceed (selectVirtual_widened he.registry s.store receiver name args) fun x y hxy => ?_
  obtain ⟨ref, e⟩ := x
  obtain ⟨ref', e'⟩ := y
  obtain ⟨href, hm⟩ := hxy
  simp only at href hm
  subst href
  exact h.invoke he hm (some ref') args

theorem getStatic (h : s.Beside s') (he : env.Widened env') {c c' : Class} (hc : c.Widened c')
    (name : String) : (s.getStatic env c name).Widened (s'.getStatic env' c' name) := by
  unfold State.getStatic
  rw [unknownField_widened hc]
  rcases option_rel_cases (he.registry.findStatic? hc name) with ⟨hx, hy⟩ | ⟨x, y, hx, hy, ho, hslot⟩
  · simp only [hx, hy]
    exact h.raise _
  · simp only [hx, hy, hslot]
    exact h.await (.thenRead ho) (.init ho)

theorem putStatic (h : s.Beside s') (he : env.Widened env') {c c' : Class} (hc : c.Widened c')
    (name : String) (v : Value) : (s.putStatic env c name v).Widened (s'.putStatic env' c' name v) := by
  unfold State.putStatic
  rw [unknownField_widened hc]
  rcases option_rel_cases (he.registry.findStatic? hc name) with ⟨hx, hy⟩ | ⟨x, y, hx, hy, ho, hslot⟩
  · simp only [hx, hy]
    exact h.raise _
  · simp only [hx, hy, hslot]
    exact h.await (.thenWrite ho) (.init ho)

theorem callSuper (h : s.Beside s') (he : env.Widened env') {f f' : Frame} (hf : f.Widened f')
    (name : String) (args : List Value) :
    (s.callSuper env f name args).Widened (s'.callSuper env' f' name args) := by
  unfold State.callSuper
  rw [hf.this, hf.cls.name]
  cases f.this with
  | none => exact h.raise _
  | some ref =>
    simp only
    rcases option_rel_cases (he.registry.parent? hf.cls) with ⟨hx, hy⟩ | ⟨p, p', hx, hy, hp⟩
    · simp only [hx, hy]
      exact h.raise _
    · simp only [hx, hy]
      exact h.proceed (hp.select .onInstance name args) fun _ _ hm => h.invoke he hm (some ref) args

theorem superInit (h : s.Beside s') (he : env.Widened env') {f f' : Frame} (hf : f.Widened f')
    (args : List Value) : (s.superInit env f args).Widened (s'.superInit env' f' args) := by
  unfold State.superInit State.receiverOf
  rw [hf.this, hf.cls.name]
  refine h.proceed_same _ fun ref => ?_
  rcases option_rel_cases (he.registry.parent? hf.cls) with ⟨hx, hy⟩ | ⟨p, p', hx, hy, hp⟩
  · simp only [hx, hy]
    exact h.raise _
  · simp only [hx, hy]
    exact h.proceed (hp.selectConstructor args) fun _ _ hk =>
      h.activate he (.superDone hf) (.exec (.enter hp _ _ hk.body))

theorem call (h : s.Beside s') (he : env.Widened env') (target : CallTarget) (args : List Value)
    {f f' : Frame} (hf : f.Widened f') :
    (s.call env target args f).Widened (s'.call env' target args f') := by
  cases target with
  | create cls => exact h.lookup he hf cls fun _ _ hc => h.construct hc args
  | static cls method => exact h.lookup he hf cls fun _ _ hc => h.invokeStatic he hc method args
  | virtual receiver method => exact h.invokeVirtual he receiver method args
  | superMethod method => exact h.callSuper he hf method args
  | superInit => exact h.superInit he hf args

theorem arguments (h : s.Beside s') (he : env.Widened env') (target : CallTarget) (before : List Value)
    (after : List Expr) {f f' : Frame} (hf : f.Widened f') :
    (s.arguments env target before after f).Widened (s'.arguments env' target before after f') := by
  cases after with
  | nil => exact h.call he target before.reverse hf
  | cons e rest => exact h.await (.argument hf) (.eval hf)

/-! ## The code of a frame -/

/-- An expression begins alike, unless it is a slot that the narrower frame does not have. -/
theorem eval (h : s.Beside s') (he : env.Widened env') {f f' : Frame} (hf : f.Widened f') (e : Expr) :
    (s.eval env f e).Widened (s'.eval env' f' e) ∨
      ∃ slot size, (s.eval env f e).control = .raise (.noSuchLocal slot size) := by
  cases e with
  | slot i =>
    unfold State.eval
    cases hv : f.locals[i.toNat]? with
    | none =>
      refine .inr ⟨i.toNat, f.locals.size, ?_⟩
      simp only [hv]
      rfl
    | some v =>
      refine .inl ?_
      simp only [hv, hf.get? hv]
      exact h.answer v
  | literal l => exact .inl (h.answer l.value)
  | this =>
    refine .inl ?_
    unfold State.eval State.receiverOf
    rw [hf.this]
    exact h.proceed_same _ fun ref => h.answer _
  | getField object owner field => exact .inl (h.await (.readField hf) (.eval hf))
  | getStatic cls field => exact .inl (h.lookup he hf cls fun _ _ hc => h.getStatic he hc field)
  | unary op operand => exact .inl (h.await .unary (.eval hf))
  | binary op lhs rhs => exact .inl (h.await (.binaryLeft hf) (.eval hf))
  | create cls args => exact .inl (h.arguments he (.create cls) [] args hf)
  | invokeStatic cls method args => exact .inl (h.arguments he (.static cls method) [] args hf)
  | invokeVirtual receiver method args => exact .inl (h.await (.receiver hf) (.eval hf))
  | invokeSuper method args => exact .inl (h.arguments he (.superMethod method) [] args hf)

theorem run (h : s.Beside s') {f f' : Frame} (hf : f.Widened f') : (s.run f).Widened (s'.run f') :=
  h.goto (.exec hf)

theorem exec (h : s.Beside s') (he : env.Widened env') {f f' : Frame} (hf : f.Widened f') :
    (s.exec env f).Widened (s'.exec env' f') := by
  unfold State.exec
  rw [hf.code]
  cases f.code with
  | nil => exact h.answer none
  | cons stmt rest =>
    have hf := hf.withCode rest
    cases stmt with
    | expr e => exact h.await (.discard hf) (.eval hf)
    | store slot value => exact h.await (.store hf) (.eval hf)
    | putField object owner field value => exact h.await (.putObject hf) (.eval hf)
    | putStatic cls field value => exact h.await (.putStatic hf) (.eval hf)
    | branch cond yes no => exact h.await (.branch hf) (.eval hf)
    | loop cond body => exact h.await (.loop hf) (.eval hf)
    | giveBack value =>
      cases value with
      | none => exact h.answer none
      | some e => exact h.await (.giveBack hf) (.eval hf)
    | superInit args => exact h.arguments he .superInit [] args hf

theorem readField (h : s.Beside s') (he : env.Widened env') (owner field : String) {f f' : Frame}
    (hf : f.Widened f') (target : Value) :
    (s.readField env owner field f target).Widened (s'.readField env' owner field f' target) := by
  refine h.lookup he hf owner fun c c' hc => ?_
  rw [h.store, locateField_widened he.registry hc, unknownField_widened hc]
  refine h.proceed_same _ fun (ref, slot) => ?_
  dsimp only
  cases s.store.heap.cell? ref slot with
  | none => exact h.raise _
  | some v => exact h.answer v

theorem writeField (h : s.Beside s') (he : env.Widened env') (owner field : String) {f f' : Frame}
    (hf : f.Widened f') (target v : Value) :
    (s.writeField env owner field f target v).Widened (s'.writeField env' owner field f' target v) := by
  refine h.lookup he hf owner fun c c' hc => ?_
  rw [h.store, locateField_widened he.registry hc, unknownField_widened hc, hc.fields]
  refine h.proceed_same _ fun (ref, slot) => ?_
  dsimp only
  cases c.fields[slot]? with
  | none => exact h.raise _
  | some decl =>
    dsimp only
    split
    · cases s.store.heap.cell? ref slot with
      | none => exact h.raise _
      | some _ => exact (h.withStore _).run hf
    · exact h.raise _

theorem decide (h : s.Beside s') (answer : Value) {yes yes' no no' : Frame} (hyes : yes.Widened yes')
    (hno : no.Widened no') : (s.decide answer yes no).Widened (s'.decide answer yes' no') := by
  unfold State.decide
  split
  · exact h.run hyes
  · exact h.run hno
  · exact h.raise _

/-! ## Static initialization -/

theorem setInitState (h : s.Beside s') {c c' : Class} (hc : c.Widened c') (st : InitState) :
    (s.setInitState c st).Beside (s'.setInitState c' st) := by
  unfold State.setInitState
  rw [h.store, Statics.setState_widened hc]
  exact h.withStore _

theorem setStatic (h : s.Beside s') {c c' : Class} (hc : c.Widened c') (slot : Nat) (v : Value) :
    (s.setStatic c slot v).Beside (s'.setStatic c' slot v) := by
  unfold State.setStatic
  rw [h.store, Statics.setCell_widened hc]
  exact h.withStore _

theorem beginInit (h : s.Beside s') (he : env.Widened env') {c c' : Class} (hc : c.Widened c') :
    (s.beginInit env c).Widened (s'.beginInit env' c') := by
  unfold State.beginInit
  rw [h.store, Statics.state_widened hc, Statics.setState_widened hc, hc.name, hc.statics]
  cases s.store.statics.state c with
  | done | running => exact h.answer none
  | failed cause => exact h.raise _
  | pending =>
    have hrunning := h.withStore { s.store with statics := s.store.statics.setState c .running }
    dsimp only
    rcases option_rel_cases (he.registry.parent? hc) with ⟨hx, hy⟩ | ⟨p, p', hx, hy, hp⟩
    · simp only [hx, hy]
      exact hrunning.await (.initializing hc) (.statics hc)
    · simp only [hx, hy]
      exact (hrunning.push (.initializing hc)).await (.ownStatics hc) (.init hp)

theorem initializeFields (h : s.Beside s') {c c' : Class} (hc : c.Widened c') (slot : Nat)
    (rest : List StaticDecl) :
    (s.initializeFields c slot rest).Widened (s'.initializeFields c' slot rest) := by
  unfold State.initializeFields
  cases rest with
  | nil =>
    dsimp only
    rcases option_rel_cases hc.source.staticBlock with ⟨hx, hy⟩ | ⟨b, b', hx, hy, hb⟩
    · simp only [Class.staticBlock?, hx, hy]
      exact h.answer none
    · simp only [Class.staticBlock?, hx, hy]
      exact h.await .staticBlock (.exec (.enter hc none [] hb))
  | cons decl rest =>
    dsimp only
    cases decl.init with
    | none => exact h.goto (.statics hc)
    | some e => exact h.await (.staticValue hc) (.eval (.initializer hc))

/-! ## Answers, errors and host functions -/

theorem resume (h : s.Beside s') (he : env.Widened env') {k k' : Cont} (hk : k.Widened k')
    (answer : Option Value) : (s.resume env k answer).Widened (s'.resume env' k' answer) := by
  unfold State.resume
  cases hk with
  | unary => exact h.proceed_same _ fun v => h.answer v
  | binaryLeft hf => exact h.await .binaryRight (.eval hf)
  | binaryRight =>
    dsimp only
    rw [h.store, Store.nameOf_widened he.registry]
    exact h.proceed_same _ fun v => h.answer v
  | readField hf => exact h.readField he _ _ hf _
  | receiver hf => exact h.arguments he _ [] _ hf
  | argument hf => exact h.arguments he _ _ _ hf
  | discard hf | resume hf => exact h.run hf
  | store hf => exact h.run (hf.setLocal _ _)
  | putObject hf => exact h.await (.putValue hf) (.eval hf)
  | putValue hf => exact h.writeField he _ _ hf _ _
  | putStatic hf =>
    exact h.lookup he hf _ fun _ _ hc => (h.push (.resume hf)).putStatic he hc _ _
  | branch hf =>
    dsimp only
    rw [hf.code]
    exact h.decide _ (hf.withCode _) (hf.withCode _)
  | loop hf =>
    dsimp only
    rw [hf.code]
    exact h.decide _ (hf.withCode _) hf
  | giveBack | staticBlock => exact h.answer _
  | returning => exact h.leave.proceed_same _ fun v => h.leave.answer v
  | constructing => exact h.leave.answer _
  | superDone hf => exact h.leave.run hf
  | hostCall => exact h.leave.answer _
  | initializing hc => exact (h.setInitState hc .done).answer none
  | ownStatics hc =>
    dsimp only
    rw [hc.statics]
    exact h.goto (.statics hc)
  | staticValue hc =>
    dsimp only
    split
    · exact (h.setStatic hc _ _).goto (.statics hc)
    · exact h.raise _
  | thenCreate hc => exact h.goto (.create hc)
  | thenInvoke hm hc => exact h.goto (.enter hm hc)
  | @thenRead c c' slot name hc =>
    dsimp only
    rw [h.store, Statics.cell?_widened hc, unknownField_widened hc]
    cases s.store.statics.cell? c slot with
    | none => exact h.raise _
    | some v => exact h.answer v
  | @thenWrite c c' slot name v hc =>
    dsimp only
    rw [unknownField_widened hc, hc.statics]
    cases c.statics[slot]? with
    | none => exact h.raise _
    | some decl =>
      dsimp only
      split
      · exact (h.setStatic hc slot v).answer none
      · exact h.raise _

theorem unwind (h : s.Beside s') {k k' : Cont} (hk : k.Widened k') (e : Failure) :
    (s.unwind k e).Widened (s'.unwind k' e) := by
  unfold State.unwind
  cases hk with
  | initializing hc =>
    dsimp only
    rw [hc.name]
    exact (h.setInitState hc _).raise _
  | returning | constructing | superDone | hostCall => exact h.leave.raise e
  | _ => exact h.raise e

theorem enterMethod (h : s.Beside s') (he : env.Widened env') {e e' : Method} (hm : e.Widened e')
    {c c' : Class} (hc : c.Widened c') (receiver : Option Handle) (args : List Value) :
    (s.enterMethod env e c receiver args).Widened (s'.enterMethod env' e' c' receiver args) := by
  have himpl := hm.impl
  unfold State.enterMethod
  rw [Widened.hostView h he, hm.returns]
  revert himpl
  generalize e.impl = impl
  generalize e'.impl = impl'
  intro himpl
  cases himpl with
  | managed hb => exact h.activate he .returning (.exec (.enter hc receiver _ hb))
  | native => exact h.activate he .hostCall (.host hm)

end Beside

/-! ## Steps -/

section Steps

variable {env env' : Env} {s s' : State}

/-- The same handles are held outside the heap, and an instance looks the same. -/
theorem Widened.allocate (h : s.Widened s') (he : env.Widened env') {c c' : Class} (hc : c.Widened c')
    (args : List Value) : (s.allocate env c args).Widened (s'.allocate env' c' args) := by
  have hroom : (s.makeRoom env).Beside (s'.makeRoom env') := by
    unfold makeRoom
    rw [h.store, h.roots he]
    split
    · exact h.withStore _
    · exact h.toBeside
  have hadd : ((s.makeRoom env).addObject c).Beside ((s'.makeRoom env').addObject c') := by
    unfold addObject Heap.add
    rw [hroom.store, hc.id, hc.fields]
    exact hroom.withStore _
  refine h.proceed (hc.selectConstructor args) fun k k' hk => ?_
  rw [h.store]
  exact hadd.activate he .constructing (.exec (.enter hc _ _ hk.body))

theorem Widened.hostStep (h : s.Widened s') (he : env.Widened env') {e e' : Method} (hm : e.Widened e')
    (args : List Value) (p : HostProgram) :
    (s.hostStep env e args p).Widened (s'.hostStep env' e' args p) := by
  cases p with
  | reply r =>
    unfold State.hostStep
    dsimp only
    rw [HostReply.result_widened hm]
    exact h.proceed_same _ fun v => h.answer v
  | write stream v next =>
    unfold State.hostStep
    dsimp only
    rw [h.store, Store.text_widened he.registry]
    exact ⟨⟨h.stack, h.depth, rfl⟩, .host hm⟩
  | collect next =>
    unfold State.hostStep
    dsimp only
    rw [he.options, h.store, h.roots he]
    split
    · exact ⟨⟨h.stack, h.depth, rfl⟩, .host hm⟩
    · exact h.goto (.host hm)
  | clock next =>
    unfold State.hostStep
    dsimp only
    rw [h.store]
    exact ⟨⟨h.stack, h.depth, rfl⟩, .host hm⟩

/-- A step is the same in wider frames, unless it reads a slot that the narrower frame does not have. -/
theorem Widened.step (h : s.Widened s') (he : env.Widened env') :
    (s.step env).Widened (s'.step env') ∨
      ∃ slot size, (s.step env).control = .raise (.noSuchLocal slot size) := by
  obtain ⟨c, K, d, σ⟩ := s
  obtain ⟨c', K', d', σ'⟩ := s'
  have hcontrol := h.control
  have hstack := h.stack
  simp only at hcontrol hstack
  cases hcontrol with
  | eval hf => exact h.eval he hf _
  | exec hf => exact .inl (h.exec he hf)
  | @answer v =>
    cases hstack with
    | nil => exact .inl h
    | @cons k k' K K' hk hK =>
      have hrest : State.Beside ⟨.answer v, K, d, σ⟩ ⟨.answer v, K', d', σ'⟩ := ⟨hK, h.depth, h.store⟩
      exact .inl (hrest.resume he hk v)
  | @raise e =>
    cases hstack with
    | nil => exact .inl h
    | @cons k k' K K' hk hK =>
      have hrest : State.Beside ⟨.raise e, K, d, σ⟩ ⟨.raise e, K', d', σ'⟩ := ⟨hK, h.depth, h.store⟩
      exact .inl (hrest.unwind hk e)
  | init hc => exact .inl (h.beginInit he hc)
  | statics hc => exact .inl (h.initializeFields hc _ _)
  | create hc => exact .inl (h.allocate he hc _)
  | enter hm hc => exact .inl (h.enterMethod he hm hc _ _)
  | host hm => exact .inl (h.hostStep he hm _ _)

theorem Widened.outcome? (h : s.Widened s') : s'.outcome? = s.outcome? := by
  obtain ⟨c, K, d, σ⟩ := s
  obtain ⟨c', K', d', σ'⟩ := s'
  have hcontrol := h.control
  have hstack := h.stack
  simp only at hcontrol hstack
  cases hstack with
  | nil => cases hcontrol <;> rfl
  | cons => rfl

/-- A run that never reads a slot which its frames do not have ends in the same way in wider frames. -/
theorem Widened.finish (he : env.Widened env') {r : Except Failure (Option Value)} {σ : Store}
    (hr : ∀ e, r = .error e → ¬ e.IsNoLocal) {fuel : Nat} : ∀ {s s' : State}, s.Widened s' →
    s.finish env fuel = some (r, σ) → s'.finish env' fuel = some (r, σ) := by
  induction fuel with
  | zero =>
    intro s s' hs h
    unfold State.finish at h ⊢
    rw [hs.outcome?, hs.store]
    exact h
  | succ fuel ih =>
    intro s s' hs h
    unfold State.finish at h ⊢
    rw [hs.outcome?, hs.store]
    split at h
    · exact h
    · rcases hs.step he with hnext | ⟨slot, size, hc⟩
      · exact ih hnext h
      · obtain ⟨e, rfl, hroot⟩ := finish_raise hc h
        exact absurd ⟨slot, size, hroot⟩ (hr e rfl)

end Steps

end State

/-! ## Operations -/

theorem Operation.start_widened {env env' : Env} (he : env.Widened env') (op : Operation) (σ : Store) :
    (op.start env σ).Widened (op.start env' σ) := by
  have h : State.Beside (.idle σ) (.idle σ) := ⟨.nil, rfl, rfl⟩
  unfold Operation.start
  cases op with
  | construct u cls args => exact h.proceed (he.registry.lookup u cls) fun _ _ hc => h.construct hc args
  | invokeStatic u cls method args =>
    exact h.proceed (he.registry.lookup u cls) fun _ _ hc => h.invokeStatic he hc method args
  | invokeVirtual receiver method args => exact h.invokeVirtual he receiver method args
  | getStatic u cls field =>
    exact h.proceed (he.registry.lookup u cls) fun _ _ hc => h.getStatic he hc field
  | putStatic u cls field v =>
    exact h.proceed (he.registry.lookup u cls) fun _ _ hc => h.putStatic he hc field v
  | prepare u cls => exact h.proceed (he.registry.lookup u cls) fun _ _ hc => h.goto (.init hc)
  | eval u cls e =>
    exact h.proceed (he.registry.lookup u cls) fun _ _ hc => h.goto (.eval (.initializer hc))
  | run u cls body locals =>
    exact h.proceed (he.registry.lookup u cls) fun _ _ hc =>
      h.goto (.exec (.enter hc none locals (.refl body)))

namespace Machine.Widened

variable {m m' : Machine}

theorem refl (m : Machine) : m.Widened m := ⟨.refl m.registry, rfl, rfl, rfl, rfl⟩

theorem env (h : m.Widened m') : m.env.Widened m'.env := ⟨h.registry, h.options, h.pinned⟩

theorem perform (h : m.Widened m') {fuel : Nat} {op : Operation} {r : Except Failure (Option Value)}
    {m₁ : Machine} (hp : m.perform fuel op = some (r, m₁)) (hr : ∀ e, r = .error e → ¬ e.IsNoLocal) :
    ∃ m₁', m'.perform fuel op = some (r, m₁') ∧ m₁.Widened m₁' := by
  obtain ⟨⟨r', σ⟩, hf, heq⟩ := Option.map_eq_some_iff.1 hp
  cases heq
  have hstart : (op.start m.env m.store).Widened (op.start m'.env m'.store) := by
    rw [h.store]
    exact Operation.start_widened h.env op m.store
  exact ⟨{ m' with store := σ }, Option.map_eq_some_iff.2 ⟨_, hstart.finish h.env hr hf, rfl⟩,
    h.registry, h.options, h.natives, rfl, h.pinned⟩

/-- A unit and the widened unit are loaded into machines that stay alike. -/
theorem load (h : m.Widened m') {unit unit' : CompilationUnit} (hu : unit.Widened unit')
    {u u' : UnitId} {m₁ m₁' : Machine} (hm : m.load unit = (.ok u, m₁))
    (hm' : m'.load unit' = (.ok u', m₁')) : u' = u ∧ m₁.Widened m₁' := by
  have hopen : (m.registry.openUnit unit.name).2.Widened (m'.registry.openUnit unit'.name).2 := by
    refine ⟨h.registry.classes, h.registry.names, ?_⟩
    rw [Registry.openUnit, Registry.openUnit, h.registry.units, hu.rest]
  have hid : (m'.registry.openUnit unit'.name).1 = (m.registry.openUnit unit.name).1 := by
    rw [Registry.openUnit, Registry.openUnit, h.registry.units]
  unfold Machine.load at hm hm'
  dsimp only at hm hm'
  rw [hid, h.natives] at hm'
  rcases hr : (m.registry.openUnit unit.name).2.registerUnit (m.registry.openUnit unit.name).1 unit.classes
    m.natives with ⟨e | cs, r⟩
  · rw [hr] at hm
    cases hm
  · rcases hr' : (m'.registry.openUnit unit'.name).2.registerUnit (m.registry.openUnit unit.name).1
      unit'.classes m.natives with ⟨e | cs', r'⟩
    · rw [hr'] at hm'
      cases hm'
    · rw [hr] at hm
      rw [hr'] at hm'
      cases hm
      cases hm'
      exact ⟨rfl, Registry.registerUnit_widened hopen hu.classes hr hr', h.options, rfl, h.store, h.pinned⟩

end Machine.Widened

/-! ## Main statement -/

end ObjectMachine
