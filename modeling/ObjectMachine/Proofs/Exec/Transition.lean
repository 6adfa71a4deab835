/-
The steps of a run as a relation. `Transition` has one rule for each way a step can go on, with the
guard that let it: the rules for the code of a frame do not say which expression or statement it
was, only which frame it belongs to (`Runs`), what the frame becomes and what is put on the stack.
`step_transition` says that every step is one of the rules, and `start_starts` says the same of the
states in which operations start their runs. Whatever every rule keeps, every run keeps.
-/
import ObjectMachine.Machine
import ObjectMachine.Proofs.Exec.Checks

namespace ObjectMachine

/-! ## Classes of frames and continuations -/

/-- Two activations of the same class on the same receiver. -/
structure Frame.SameSite (f g : Frame) : Prop where
  cls : g.cls = f.cls
  this : g.this = f.this

theorem Frame.SameSite.rfl {f : Frame} : f.SameSite f := ⟨Eq.refl _, Eq.refl _⟩

theorem Frame.SameSite.trans {f g h : Frame} (h1 : f.SameSite g) (h2 : g.SameSite h) : f.SameSite h :=
  ⟨h2.cls.trans h1.cls, h2.this.trans h1.this⟩

namespace Cont

/-- The frame whose code goes on with the answer. -/
def frame? : Cont → Option Frame
  | .binaryLeft _ _ f | .readField _ _ f | .receiver _ _ f | .argument _ _ _ f => some f
  | .discard f | .store _ f | .putObject _ _ _ f | .putValue _ _ _ f | .putStatic _ _ f => some f
  | .branch _ _ f | .loop _ _ f | .giveBack f | .resume f | .superDone f => some f
  | _ => none

/-- An operand whose operator is applied to the answer. -/
def IsOperand : Cont → Prop
  | .unary _ | .binaryRight _ _ => True
  | _ => False

theorem IsOperand.isActivation {k : Cont} (h : k.IsOperand) : k.isActivation = false := by
  cases k <;> first | rfl | exact h.elim

/-- A piece of the code of a frame that is still to be done. -/
def IsCode (k : Cont) (f : Frame) : Prop := k.frame? = some f ∧ k.isActivation = false

end Cont

/-- The frame of the code that is next. -/
def Control.frame? : Control → Option Frame
  | .eval f _ | .exec f => some f
  | _ => none

/-- The frames of a state: of the code that is next, and of the code that waits. -/
def State.frames (s : State) : List Frame := s.control.frame?.toList ++ s.stack.filterMap Cont.frame?

/-- What holds of the frame of the control and of those of the continuations holds of all frames. -/
theorem State.forall_frames {s : State} {P : Frame → Prop} (hc : ∀ f, s.control.frame? = some f → P f)
    (hK : ∀ k ∈ s.stack, ∀ f, k.frame? = some f → P f) : ∀ f ∈ s.frames, P f := by
  intro f hf
  rcases List.mem_append.1 hf with hf | hf
  · exact hc f (Option.mem_toList.1 hf)
  · obtain ⟨k, hk, hkf⟩ := List.mem_filterMap.1 hf
    exact hK k hk f hkf

/-- The activation that the frame `f` belongs to goes on: in the control, or in the continuation on
top of the stack, which is given an answer. What lies below is the third argument. -/
inductive Runs (f : Frame) : Control → List Cont → List Cont → Prop where
  | eval {g : Frame} {e : Expr} {K : List Cont} : g.SameSite f → Runs f (.eval g e) K K
  | exec {g : Frame} {K : List Cont} : g.SameSite f → Runs f (.exec g) K K
  | resumed {g : Frame} {v : Option Value} {k : Cont} {K : List Cont} : k.IsCode g → g.SameSite f →
      Runs f (.answer v) (k :: K) K

theorem Runs.same {f g : Frame} {c : Control} {K K' : List Cont} (h : Runs f c K K')
    (hs : f.SameSite g) : Runs g c K K' := by
  cases h with
  | eval h => exact .eval (h.trans hs)
  | exec h => exact .exec (h.trans hs)
  | resumed hk h => exact .resumed hk (h.trans hs)

/-- The code of a frame takes its own continuation off the stack, if any. -/
theorem Runs.mem {f : Frame} {c : Control} {K K' : List Cont} (h : Runs f c K K') {k : Cont}
    (hk : k ∈ K') : k ∈ K := by
  cases h with
  | eval => exact hk
  | exec => exact hk
  | resumed => exact List.mem_cons_of_mem _ hk

/-- A frame whose code goes on is not held up by an initialization. -/
theorem Runs.ne_init {f : Frame} {c : Control} {K K' : List Cont} (h : Runs f c K K') (p : Class) :
    c ≠ .init p := by
  cases h <;> exact Control.noConfusion

/-! ## Ways to reach a class -/

/-- An access to the class `c`, made from the scope `u`: `k` waits until `c` is initialized. -/
inductive Access (env : Env) (u : UnitId) : Cont → Class → Prop where
  | create {name : String} {c : Class} {args : List Value} :
      env.registry.lookup u name = .ok c → Access env u (.thenCreate c args) c
  | invoke {name method : String} {named c : Class} {e : Method} {args : List Value} :
      env.registry.lookup u name = .ok named → named.select .static method args = .ok e →
      e.isStatic = true → env.registry.class? e.declaring = some c →
      Access env u (.thenInvoke e c args) c
  | read {name field : String} {named c : Class} {slot : Nat} :
      env.registry.lookup u name = .ok named → env.registry.findStatic? named field = some (c, slot) →
      Access env u (.thenRead c slot field) c
  | write {name field : String} {named c : Class} {slot : Nat} {v : Value} :
      env.registry.lookup u name = .ok named → env.registry.findStatic? named field = some (c, slot) →
      Access env u (.thenWrite c slot field v) c

/-- An instance method is selected by the class of its receiver. -/
structure SelectsVirtual (env : Env) (σ : Store) (ref : Handle) (args : List Value) (e : Method)
    (declaring : Class) : Prop where
  own : ∃ c name, σ.classOf? env.registry ref = some c ∧ c.select .onInstance name args = .ok e
  onInstance : e.isStatic = false
  registered : env.registry.class? e.declaring = some declaring

/-- An instance method is selected by the parent of the class whose code calls it. -/
structure SelectsSuper (env : Env) (f : Frame) (ref : Handle) (args : List Value) (e : Method)
    (declaring : Class) : Prop where
  receiver : f.this = some ref
  above : ∃ p name, env.registry.parent? f.cls = some p ∧ p.select .onInstance name args = .ok e
  onInstance : e.isStatic = false
  registered : env.registry.class? e.declaring = some declaring

namespace State

variable {env : Env} {s : State} {u : UnitId}

/-- `t` goes on from `s` with an access to a class made from the scope `u`, or with the error of a
check. -/
def Accesses (env : Env) (u : UnitId) (s t : State) : Prop :=
  (∃ e : Failure, e.IsCheck ∧ t = s.raise e) ∨ ∃ k c, Access env u k c ∧ t = s.await k (.init c)

theorem construct_accesses {name : String} {c : Class} (hc : env.registry.lookup u name = .ok c)
    (args : List Value) : s.Accesses env u (s.construct c args) := .inr ⟨_, _, .create hc, rfl⟩

theorem invokeStatic_accesses {name : String} {c : Class} (hc : env.registry.lookup u name = .ok c)
    (method : String) (args : List Value) :
    s.Accesses env u (s.invokeStatic env c method args) := by
  unfold State.invokeStatic
  cases he : c.select .static method args with
  | error e => exact .inl ⟨e, Class.select_isCheck he, rfl⟩
  | ok e =>
    have hstatic := Class.select_static he
    simp only [State.proceed, State.invoke]
    cases hd : env.registry.class? e.declaring with
    | none => exact .inl ⟨.classNotFound e.declaringName, trivial, rfl⟩
    | some declaring =>
      simp only [hstatic, if_true]
      exact .inr ⟨_, _, .invoke hc he hstatic hd, rfl⟩

theorem getStatic_accesses {name : String} {c : Class} (hc : env.registry.lookup u name = .ok c)
    (field : String) : s.Accesses env u (s.getStatic env c field) := by
  unfold State.getStatic
  cases ho : env.registry.findStatic? c field with
  | none => exact .inl ⟨unknownField c field, trivial, rfl⟩
  | some owner => exact .inr ⟨_, _, .read hc ho, rfl⟩

theorem putStatic_accesses {name : String} {c : Class} (hc : env.registry.lookup u name = .ok c)
    (field : String) (v : Value) : s.Accesses env u (s.putStatic env c field v) := by
  unfold State.putStatic
  cases ho : env.registry.findStatic? c field with
  | none => exact .inl ⟨unknownField c field, trivial, rfl⟩
  | some owner => exact .inr ⟨_, _, .write hc ho, rfl⟩

/-- An instance method that is selected is entered at once. -/
theorem invoke_onInstance_cases (env : Env) (s : State) {e : Method} (receiver : Option Handle)
    (args : List Value) (hinst : e.isStatic = false) :
    s.invoke env e receiver args = s.raise (.classNotFound e.declaringName) ∨
    ∃ declaring, env.registry.class? e.declaring = some declaring ∧
      s.invoke env e receiver args = s.goto (.enter e declaring receiver args) := by
  unfold State.invoke
  cases hd : env.registry.class? e.declaring with
  | none => exact .inl rfl
  | some declaring =>
    simp only [hinst, Bool.false_eq_true, if_false]
    exact .inr ⟨declaring, rfl, rfl⟩

theorem invokeVirtual_cases (env : Env) (s : State) (receiver : Value) (method : String)
    (args : List Value) :
    (∃ e : Failure, e.IsCheck ∧ s.invokeVirtual env receiver method args = s.raise e) ∨
    ∃ ref e declaring, SelectsVirtual env s.store ref args e declaring ∧
      s.invokeVirtual env receiver method args = s.goto (.enter e declaring (some ref) args) := by
  unfold State.invokeVirtual
  cases he : selectVirtual (s.store.classOf? env.registry) receiver method args with
  | error e => exact .inl ⟨e, selectVirtual_isCheck he, rfl⟩
  | ok selected =>
    obtain ⟨ref, e⟩ := selected
    obtain ⟨-, c, hc, hsel⟩ := selectVirtual_ok he
    have hinst := Class.select_onInstance hsel
    simp only [State.proceed]
    rcases invoke_onInstance_cases env s (some ref) args hinst with heq | ⟨declaring, hd, heq⟩
    · exact .inl ⟨.classNotFound e.declaringName, trivial, heq⟩
    · exact .inr ⟨ref, e, declaring, ⟨⟨c, method, hc, hsel⟩, hinst, hd⟩, heq⟩

end State

/-! ## The rules -/

/-- One step of a run: control, stack, depth and store before and after. -/
inductive Transition (env : Env) : State → State → Prop where
  -- the code of a frame
  | go {f c K K' d σ} : Runs f c K K' → Transition env ⟨c, K, d, σ⟩ ⟨.exec f, K', d, σ⟩
  | evaluate {f c k e K K' d σ} : Runs f c K K' → k.IsOperand ∨ k.IsCode f →
      Transition env ⟨c, K, d, σ⟩ ⟨.eval f e, k :: K', d, σ⟩
  | answer {f c v K K' d σ} :
      Runs f c K K' → Transition env ⟨c, K, d, σ⟩ ⟨.answer v, K', d, σ⟩
  | fail {f c e K K' d σ} :
      Runs f c K K' → e.IsCheck → Transition env ⟨c, K, d, σ⟩ ⟨.raise e, K', d, σ⟩
  | access {f c k cls K K' d σ} :
      Runs f c K K' → Access env f.cls.scope k cls →
      Transition env ⟨c, K, d, σ⟩ ⟨.init cls, k :: K', d, σ⟩
  | accessWrite {f a name field k cls K d σ} : Access env f.cls.scope k cls →
      Transition env ⟨.answer a, .putStatic name field f :: K, d, σ⟩ ⟨.init cls, k :: .resume f :: K, d, σ⟩
  | failWrite {f a name field e K d σ} : e.IsCheck →
      Transition env ⟨.answer a, .putStatic name field f :: K, d, σ⟩ ⟨.raise e, .resume f :: K, d, σ⟩
  | callVirtual {f c e declaring ref args K K' d σ} :
      Runs f c K K' → SelectsVirtual env σ ref args e declaring →
      Transition env ⟨c, K, d, σ⟩ ⟨.enter e declaring (some ref) args, K', d, σ⟩
  | callSuper {f c e declaring ref args K K' d σ} :
      Runs f c K K' → SelectsSuper env f ref args e declaring →
      Transition env ⟨c, K, d, σ⟩ ⟨.enter e declaring (some ref) args, K', d, σ⟩
  | enterSuper {f c p k ref args K K' d σ} :
      Runs f c K K' → f.this = some ref → env.registry.parent? f.cls = some p →
      p.selectConstructor args = .ok k → d < env.options.maxCallDepth →
      Transition env ⟨c, K, d, σ⟩
        ⟨.exec (.enter p (some ref) (.object ref :: args) k.body), .superDone f :: K', d + 1, σ⟩
  | superOverflow {f c p k ref args K K' d σ} :
      Runs f c K K' → f.this = some ref → env.registry.parent? f.cls = some p →
      p.selectConstructor args = .ok k → env.options.maxCallDepth ≤ d →
      Transition env ⟨c, K, d, σ⟩ ⟨.raise (.stackOverflow env.options.maxCallDepth), K', d, σ⟩
  | putField {f a owner field target v c ref slot decl K d σ} :
      env.registry.lookup f.cls.scope owner = .ok c →
      locateField (σ.classOf? env.registry) c target field "write" = .ok (ref, slot) →
      c.fields[slot]? = some decl → v.conformsTo decl.type = true → a.getD .null = v →
      Transition env ⟨.answer a, .putValue owner field target f :: K, d, σ⟩
        ⟨.exec f, K, d, { σ with heap := σ.heap.setCell ref slot v }⟩
  -- operands
  | operate {k a v K d σ} :
      k.IsOperand → Transition env ⟨.answer a, k :: K, d, σ⟩ ⟨.answer v, K, d, σ⟩
  | operateFail {k a e K d σ} :
      k.IsOperand → e.IsCheck → Transition env ⟨.answer a, k :: K, d, σ⟩ ⟨.raise e, K, d, σ⟩
  -- bodies and host functions
  | enterBody {e declaring receiver args body K d σ} :
      e.impl = .managed body → d < env.options.maxCallDepth →
      Transition env ⟨.enter e declaring receiver args, K, d, σ⟩
        ⟨.exec (.enter declaring receiver ((receiver.map Value.object).toList ++ args) body),
          .returning e.returns :: K, d + 1, σ⟩
  | enterHost {e declaring receiver args f view K d σ} :
      e.impl = .native f → d < env.options.maxCallDepth →
      Transition env ⟨.enter e declaring receiver args, K, d, σ⟩
        ⟨.host e ((receiver.map Value.object).toList ++ args)
          (f view ((receiver.map Value.object).toList ++ args)), .hostCall :: K, d + 1, σ⟩
  | enterOverflow {e declaring receiver args K d σ} : env.options.maxCallDepth ≤ d →
      Transition env ⟨.enter e declaring receiver args, K, d, σ⟩
        ⟨.raise (.stackOverflow env.options.maxCallDepth), K, d, σ⟩
  | give {ty a v K d σ} :
      methodResult ty a = .ok v →
      Transition env ⟨.answer a, .returning ty :: K, d, σ⟩ ⟨.answer (some v), K, d - 1, σ⟩
  | giveFail {ty a e K d σ} :
      methodResult ty a = .error e → e.IsCheck →
      Transition env ⟨.answer a, .returning ty :: K, d, σ⟩ ⟨.raise e, K, d - 1, σ⟩
  | constructed {ref a K d σ} :
      Transition env ⟨.answer a, .constructing ref :: K, d, σ⟩
        ⟨.answer (some (.object ref)), K, d - 1, σ⟩
  | superReturned {f a K d σ} :
      Transition env ⟨.answer a, .superDone f :: K, d, σ⟩ ⟨.exec f, K, d - 1, σ⟩
  | hostReturned {a K d σ} :
      Transition env ⟨.answer a, .hostCall :: K, d, σ⟩ ⟨.answer (some (a.getD .null)), K, d - 1, σ⟩
  | hostService {e args p p' K d σ σ'} : σ'.statics = σ.statics → σ'.heap.objects = σ.heap.objects →
      Transition env ⟨.host e args p, K, d, σ⟩ ⟨.host e args p', K, d, σ'⟩
  | hostReply {e args r v K d σ} : r.result e = .ok v →
      Transition env ⟨.host e args (.reply r), K, d, σ⟩ ⟨.answer (some v), K, d, σ⟩
  | hostFail {e args r err K d σ} : r.result e = .error err → err.IsCheck →
      Transition env ⟨.host e args (.reply r), K, d, σ⟩ ⟨.raise err, K, d, σ⟩
  -- new objects
  | create {c args k K d σ} {h : Heap} :
      c.selectConstructor args = .ok k → h.objects = σ.heap.objects →
      d < env.options.maxCallDepth →
      Transition env ⟨.create c args, K, d, σ⟩
        ⟨.exec (.enter c (some σ.heap.next) (.object σ.heap.next :: args) k.body),
          .constructing σ.heap.next :: K, d + 1, { σ with heap := h.add c }⟩
  | createOverflow {c args k K d σ} {h : Heap} :
      c.selectConstructor args = .ok k → h.objects = σ.heap.objects →
      env.options.maxCallDepth ≤ d →
      Transition env ⟨.create c args, K, d, σ⟩
        ⟨.raise (.stackOverflow env.options.maxCallDepth), K, d, { σ with heap := h.add c }⟩
  | createFail {c args e K d σ} :
      c.selectConstructor args = .error e → e.IsCheck →
      Transition env ⟨.create c args, K, d, σ⟩ ⟨.raise e, K, d, σ⟩
  -- static initialization
  | initReady {c K d σ} :
      σ.statics.state c = .done ∨ σ.statics.state c = .running →
      Transition env ⟨.init c, K, d, σ⟩ ⟨.answer none, K, d, σ⟩
  | initFailed {c cause K d σ} :
      σ.statics.state c = .failed cause →
      Transition env ⟨.init c, K, d, σ⟩ ⟨.raise (.staticInitFailed c.name cause), K, d, σ⟩
  | initParent {c p K d σ} :
      σ.statics.state c = .pending → env.registry.parent? c = some p →
      Transition env ⟨.init c, K, d, σ⟩ ⟨.init p, .ownStatics c :: .initializing c :: K, d,
        { σ with statics := σ.statics.setState c .running }⟩
  | initRoot {c K d σ} :
      σ.statics.state c = .pending → env.registry.parent? c = none →
      Transition env ⟨.init c, K, d, σ⟩ ⟨.statics c 0 c.statics, .initializing c :: K, d,
        { σ with statics := σ.statics.setState c .running }⟩
  | parentDone {c a K d σ} :
      Transition env ⟨.answer a, .ownStatics c :: K, d, σ⟩ ⟨.statics c 0 c.statics, K, d, σ⟩
  | skipStatic {c slot decl rest K d σ} : decl.init = none →
      Transition env ⟨.statics c slot (decl :: rest), K, d, σ⟩ ⟨.statics c (slot + 1) rest, K, d, σ⟩
  | evalStatic {c slot decl rest e K d σ} : decl.init = some e →
      Transition env ⟨.statics c slot (decl :: rest), K, d, σ⟩
        ⟨.eval (.initializer c) e, .staticValue c slot decl.type rest :: K, d, σ⟩
  | storeStatic {c slot ty rest a v K d σ} : a.getD .null = v → v.conformsTo ty = true →
      Transition env ⟨.answer a, .staticValue c slot ty rest :: K, d, σ⟩
        ⟨.statics c (slot + 1) rest, K, d, { σ with statics := σ.statics.setCell c slot v }⟩
  | staticFail {c slot ty rest a e K d σ} : e.IsCheck →
      Transition env ⟨.answer a, .staticValue c slot ty rest :: K, d, σ⟩ ⟨.raise e, K, d, σ⟩
  | enterBlock {c slot block K d σ} :
      c.staticBlock? = some block →
      Transition env ⟨.statics c slot [], K, d, σ⟩
        ⟨.exec (.enter c none [] block), .staticBlock :: K, d, σ⟩
  | noBlock {c slot K d σ} :
      c.staticBlock? = none → Transition env ⟨.statics c slot [], K, d, σ⟩ ⟨.answer none, K, d, σ⟩
  | blockDone {a K d σ} :
      Transition env ⟨.answer a, .staticBlock :: K, d, σ⟩ ⟨.answer none, K, d, σ⟩
  | initDone {c a K d σ} :
      Transition env ⟨.answer a, .initializing c :: K, d, σ⟩
        ⟨.answer none, K, d, { σ with statics := σ.statics.setState c .done }⟩
  -- accesses to an initialized class
  | thenCreate {c args a K d σ} :
      Transition env ⟨.answer a, .thenCreate c args :: K, d, σ⟩ ⟨.create c args, K, d, σ⟩
  | thenInvoke {e c args a K d σ} :
      Transition env ⟨.answer a, .thenInvoke e c args :: K, d, σ⟩ ⟨.enter e c none args, K, d, σ⟩
  | thenRead {c slot field a v K d σ} : σ.statics.cell? c slot = some v →
      Transition env ⟨.answer a, .thenRead c slot field :: K, d, σ⟩ ⟨.answer (some v), K, d, σ⟩
  | thenReadFail {c slot field a e K d σ} : e.IsCheck →
      Transition env ⟨.answer a, .thenRead c slot field :: K, d, σ⟩ ⟨.raise e, K, d, σ⟩
  | thenWrite {c slot field a v decl K d σ} : c.statics[slot]? = some decl →
      v.conformsTo decl.type = true →
      Transition env ⟨.answer a, .thenWrite c slot field v :: K, d, σ⟩
        ⟨.answer none, K, d, { σ with statics := σ.statics.setCell c slot v }⟩
  | thenWriteFail {c slot field a v e K d σ} : e.IsCheck →
      Transition env ⟨.answer a, .thenWrite c slot field v :: K, d, σ⟩ ⟨.raise e, K, d, σ⟩
  -- errors on their way up
  | unwindInit {c e K d σ} :
      Transition env ⟨.raise e, .initializing c :: K, d, σ⟩
        ⟨.raise (.staticInitFailed c.name e), K, d,
          { σ with statics := σ.statics.setState c (.failed e) }⟩
  | unwindActivation {k e K d σ} :
      k.isActivation = true → Transition env ⟨.raise e, k :: K, d, σ⟩ ⟨.raise e, K, d - 1, σ⟩
  | unwind {k e K d σ} :
      k.isActivation = false → (∀ c, k ≠ .initializing c) →
      Transition env ⟨.raise e, k :: K, d, σ⟩ ⟨.raise e, K, d, σ⟩
  -- the end of a run
  | ended {c d σ} :
      (∃ v, c = .answer v) ∨ (∃ e, c = .raise e) → Transition env ⟨c, [], d, σ⟩ ⟨c, [], d, σ⟩

/-! ## Code that enters no body -/

/-- The expressions of a frame `f` go on in a state, or one of them has its value: nothing is written, and
no body is entered. -/
inductive CodeStep (env : Env) (f : Frame) (s : State) : State → Prop where
  | answer {v} : CodeStep env f s (s.goto (.answer v))
  | fail {e : Failure} : e.IsCheck → CodeStep env f s (s.raise e)
  | evaluate {k e} : k.IsOperand ∨ k.IsCode f → CodeStep env f s (s.await k (.eval f e))
  | access {k c} : Access env f.cls.scope k c → CodeStep env f s (s.await k (.init c))
  | callVirtual {ref e declaring args} : SelectsVirtual env s.store ref args e declaring →
      CodeStep env f s (s.goto (.enter e declaring (some ref) args))
  | callSuper {ref e declaring args} : SelectsSuper env f ref args e declaring →
      CodeStep env f s (s.goto (.enter e declaring (some ref) args))

section Code

variable {env : Env} {s t : State} {f : Frame}

namespace State

theorem proceed_codeStep {α : Type} {r : Except Failure α} {next : α → State}
    (herr : ∀ e, r = .error e → e.IsCheck) (hok : ∀ a, r = .ok a → CodeStep env f s (next a)) :
    CodeStep env f s (s.proceed r next) := by
  cases r with
  | error e => exact .fail (herr e rfl)
  | ok a => exact hok a rfl

/-- Looking a name up in the scope of the running code. -/
theorem lookup_codeStep {name : String} {next : Class → State}
    (hok : ∀ c, env.registry.lookup f.cls.scope name = .ok c → CodeStep env f s (next c)) :
    CodeStep env f s (s.proceed (lookup env f name) next) :=
  proceed_codeStep (fun _ he => Registry.lookup_isCheck he) hok

theorem Accesses.codeStep (h : s.Accesses env f.cls.scope t) : CodeStep env f s t := by
  rcases h with ⟨e, he, rfl⟩ | ⟨k, c, hk, rfl⟩
  · exact .fail he
  · exact .access hk

theorem invokeVirtual_codeStep {receiver : Value} {method : String} {args : List Value} :
    CodeStep env f s (s.invokeVirtual env receiver method args) := by
  rcases invokeVirtual_cases env s receiver method args with
    ⟨e, he, heq⟩ | ⟨ref, e, declaring, hsel, heq⟩
  · rw [heq]; exact .fail he
  · rw [heq]; exact .callVirtual hsel

theorem callSuper_codeStep {method : String} {args : List Value} :
    CodeStep env f s (s.callSuper env f method args) := by
  unfold State.callSuper
  cases hthis : f.this with
  | none => exact .fail trivial
  | some ref =>
    cases hp : env.registry.parent? f.cls with
    | none => exact .fail trivial
    | some p =>
      refine proceed_codeStep (fun _ he => Class.select_isCheck he) fun e he => ?_
      have hinst := Class.select_onInstance he
      rcases invoke_onInstance_cases env s (some ref) args hinst with heq | ⟨declaring, hd, heq⟩
      · rw [heq]; exact .fail trivial
      · rw [heq]; exact .callSuper ⟨hthis, ⟨p, method, hp, he⟩, hinst, hd⟩

/-- Every call but that of a parent's constructor enters its body later. -/
theorem call_codeStep {target : CallTarget} (h : target ≠ .superInit) (args : List Value) :
    CodeStep env f s (s.call env target args f) := by
  cases target with
  | create cls => exact lookup_codeStep fun c hc => .access (.create hc)
  | static cls method => exact lookup_codeStep fun c hc => (invokeStatic_accesses hc _ _).codeStep
  | virtual receiver method => exact invokeVirtual_codeStep
  | superMethod method => exact callSuper_codeStep
  | superInit => exact absurd rfl h

theorem arguments_codeStep {target : CallTarget} {before : List Value} {after : List Expr}
    (h : target ≠ .superInit ∨ after ≠ []) : CodeStep env f s (s.arguments env target before after f) := by
  cases after with
  | nil => exact call_codeStep (h.resolve_right fun hne => hne rfl) before.reverse
  | cons e rest => exact .evaluate (.inr ⟨rfl, rfl⟩)

theorem eval_codeStep (e : Expr) : CodeStep env f s (s.eval env f e) := by
  cases e with
  | literal l => exact .answer
  | slot i =>
    simp only [State.eval]
    split
    · exact .answer
    · exact .fail trivial
  | this =>
    simp only [State.eval, receiverOf]
    cases f.this with
    | none => exact .fail trivial
    | some ref => exact .answer
  | getField object owner field => exact .evaluate (.inr ⟨rfl, rfl⟩)
  | getStatic cls field => exact lookup_codeStep fun c hl => (getStatic_accesses hl _).codeStep
  | unary op operand => exact .evaluate (.inl trivial)
  | binary op lhs rhs => exact .evaluate (.inr ⟨rfl, rfl⟩)
  | create cls args => exact arguments_codeStep (.inl CallTarget.noConfusion)
  | invokeStatic cls method args => exact arguments_codeStep (.inl CallTarget.noConfusion)
  | invokeVirtual receiver method args => exact .evaluate (.inr ⟨rfl, rfl⟩)
  | invokeSuper method args => exact arguments_codeStep (.inl CallTarget.noConfusion)

theorem readField_codeStep {owner field : String} {target : Value} :
    CodeStep env f s (s.readField env owner field f target) := by
  unfold State.readField
  refine lookup_codeStep fun c hl => ?_
  refine proceed_codeStep (fun _ he => locateField_isCheck he) fun ⟨ref, slot⟩ hloc => ?_
  simp only
  split
  · exact .answer
  · exact .fail trivial

end State

end Code

/-! ## Every step is a transition -/

section Steps

variable {env : Env} {s t : State} {f : Frame} {K : List Cont}

/-- What an expression does in the state without its own continuation is a step of the run. -/
theorem CodeStep.transition (ht : CodeStep env f { s with stack := K } t)
    (h : Runs f s.control s.stack K) : Transition env s t := by
  cases ht with
  | answer => exact .answer h
  | fail he => exact .fail h he
  | evaluate hk => exact .evaluate h hk
  | access hk => exact .access h hk
  | callVirtual hsel => exact .callVirtual h hsel
  | callSuper hsel => exact .callSuper h hsel

namespace State

/-- A check with its two outcomes. -/
theorem proceed_transition {α : Type} {t : State} {r : Except Failure α} {next : α → State}
    (herr : ∀ e, r = .error e → Transition env s (t.raise e))
    (hok : ∀ a, r = .ok a → Transition env s (next a)) : Transition env s (t.proceed r next) := by
  cases r with
  | error e => exact herr e rfl
  | ok a => exact hok a rfl

/-- Looking a name up in the scope of the running code. -/
theorem lookup_transition (h : Runs f s.control s.stack K) {name : String} {next : Class → State}
    (hok : ∀ c, env.registry.lookup f.cls.scope name = .ok c → Transition env s (next c)) :
    Transition env s ({ s with stack := K }.proceed (lookup env f name) next) :=
  proceed_transition (fun _ he => .fail h (Registry.lookup_isCheck he)) hok

theorem superInit_transition (h : Runs f s.control s.stack K) {args : List Value} :
    Transition env s (State.superInit env { s with stack := K } f args) := by
  unfold State.superInit receiverOf
  cases hthis : f.this with
  | none => exact .fail h trivial
  | some ref =>
    simp only [State.proceed]
    cases hp : env.registry.parent? f.cls with
    | none => exact .fail h trivial
    | some p =>
      refine proceed_transition (fun _ he => .fail h (Class.selectConstructor_isCheck he)) fun k hk => ?_
      unfold State.activate
      split
      · rename_i hd; exact .superOverflow h hthis hp hk hd
      · rename_i hd; exact .enterSuper h hthis hp hk (Nat.lt_of_not_le hd)

theorem arguments_transition (h : Runs f s.control s.stack K) (target : CallTarget)
    (before : List Value) (after : List Expr) :
    Transition env s (State.arguments env { s with stack := K } target before after f) := by
  by_cases hsuper : target = .superInit ∧ after = []
  · obtain ⟨rfl, rfl⟩ := hsuper
    exact superInit_transition h
  · exact (arguments_codeStep (not_and_or.1 hsuper)).transition h

theorem eval_transition {e : Expr} (hc : s.control = .eval f e) : Transition env s (s.eval env f e) :=
  (eval_codeStep e).transition (hc ▸ .eval .rfl)

theorem exec_transition (hc : s.control = .exec f) : Transition env s (s.exec env f) := by
  have h : Runs f s.control s.stack s.stack := hc ▸ .exec .rfl
  unfold State.exec
  split
  · exact .answer h
  · rename_i stmt rest hcode
    -- what comes after the statement is code of the same activation
    have hrest : Runs { f with code := rest } s.control s.stack s.stack := h.same ⟨rfl, rfl⟩
    cases stmt with
    | giveBack value =>
      cases value with
      | none => exact .answer h
      | some e => exact .evaluate hrest (.inr ⟨rfl, rfl⟩)
    | superInit args => exact arguments_transition hrest _ _ _
    | _ => exact .evaluate hrest (.inr ⟨rfl, rfl⟩)

theorem decide_transition (h : Runs f s.control s.stack K) {answer : Value} {yes no : List Stmt} :
    Transition env s ({ s with stack := K }.decide answer { f with code := yes } { f with code := no }) := by
  unfold State.decide
  split
  · exact .go (h.same ⟨rfl, rfl⟩)
  · exact .go (h.same ⟨rfl, rfl⟩)
  · exact .fail h trivial

theorem writeField_transition {owner field : String} {target : Value} {a : Option Value}
    (hc : s.control = .answer a) (hK : s.stack = .putValue owner field target f :: K) :
    Transition env s (State.writeField env { s with stack := K } owner field f target (a.getD .null)) := by
  have h : Runs f s.control s.stack K := by
    rw [hc, hK]; exact .resumed ⟨rfl, rfl⟩ .rfl
  obtain ⟨c, K', d, σ⟩ := s
  simp only at hc hK h
  subst hc hK
  unfold State.writeField
  refine lookup_transition h fun c hl => ?_
  refine proceed_transition (fun _ he => .fail h (locateField_isCheck he)) fun ⟨ref, slot⟩ hloc => ?_
  simp only
  split
  · exact .fail h trivial
  · rename_i decl hdecl
    split
    · rename_i hconf
      split
      · exact .putField hl hloc hdecl hconf rfl
      · exact .fail h trivial
    · exact .fail h trivial

theorem resume_transition {a : Option Value} {k : Cont} (hc : s.control = .answer a)
    (hK : s.stack = k :: K) : Transition env s (State.resume env { s with stack := K } k a) := by
  have hcode : ∀ f, k.IsCode f → Runs f s.control s.stack K := fun f hk => by
    rw [hc, hK]; exact .resumed hk .rfl
  have hwrite : ∀ owner field target f, k = .putValue owner field target f →
      Transition env s (State.writeField env { s with stack := K } owner field f target (a.getD .null)) :=
    fun owner field target f hk => writeField_transition hc (hk ▸ hK)
  obtain ⟨c, K', d, σ⟩ := s
  simp only at hc hK hcode hwrite
  subst hc hK
  unfold State.resume
  simp only
  cases k with
  | unary op =>
    have hop : (Cont.unary op).IsOperand := trivial
    refine proceed_transition (fun _ he => ?_) fun v _ => ?_
    · exact .operateFail hop (UnaryOp.apply_isCheck he)
    · exact .operate hop
  | binaryRight op lhs =>
    have hop : (Cont.binaryRight op lhs).IsOperand := trivial
    refine proceed_transition (fun _ he => ?_) fun v _ => ?_
    · exact .operateFail hop (BinaryOp.apply_isCheck he)
    · exact .operate hop
  | binaryLeft op rhs f => exact .evaluate (hcode f ⟨rfl, rfl⟩) (.inl trivial)
  | readField owner field f => exact readField_codeStep.transition (hcode f ⟨rfl, rfl⟩)
  | receiver method args f => exact arguments_transition (hcode f ⟨rfl, rfl⟩) _ _ _
  | argument target before after f => exact arguments_transition (hcode f ⟨rfl, rfl⟩) _ _ _
  | discard f => exact .go (hcode f ⟨rfl, rfl⟩)
  | store slot f => exact .go ((hcode f ⟨rfl, rfl⟩).same ⟨rfl, rfl⟩)
  | putObject owner field value f => exact .evaluate (hcode f ⟨rfl, rfl⟩) (.inr ⟨rfl, rfl⟩)
  | putValue owner field object f => exact hwrite owner field object f rfl
  | putStatic cls field f =>
    refine lookup_transition (hcode f ⟨rfl, rfl⟩) fun c hl => ?_
    rcases putStatic_accesses (s := ⟨.answer a, .resume f :: K, d, σ⟩) hl field (a.getD .null) with
      ⟨e, he, heq⟩ | ⟨k, c, hk, heq⟩
    · rw [heq]; exact .failWrite he
    · rw [heq]; exact .accessWrite hk
  | branch yes no f => exact decide_transition (hcode f ⟨rfl, rfl⟩)
  | loop cond body f => exact decide_transition (hcode f ⟨rfl, rfl⟩)
  | giveBack f => exact .answer (hcode f ⟨rfl, rfl⟩)
  | resume f => exact .go (hcode f ⟨rfl, rfl⟩)
  | returning returns =>
    refine proceed_transition (fun _ he => ?_) fun v hv => ?_
    · exact .giveFail he (methodResult_isCheck he)
    · exact .give hv
  | constructing ref => exact .constructed
  | superDone f => exact .superReturned
  | hostCall => exact .hostReturned
  | initializing c => exact .initDone
  | ownStatics c => exact .parentDone
  | staticValue c slot type rest =>
    simp only
    split
    · rename_i hconf; exact .storeStatic rfl hconf
    · exact .staticFail trivial
  | staticBlock => exact .blockDone
  | thenCreate c args => exact .thenCreate
  | thenInvoke e declaring args => exact .thenInvoke
  | thenRead owner slot name =>
    simp only
    split
    · rename_i v hv; exact .thenRead hv
    · exact .thenReadFail trivial
  | thenWrite owner slot name v =>
    simp only
    split
    · exact .thenWriteFail trivial
    · rename_i decl hdecl
      split
      · rename_i hconf; exact .thenWrite hdecl hconf
      · exact .thenWriteFail trivial

theorem unwind_transition {e : Failure} {k : Cont} (hc : s.control = .raise e) (hK : s.stack = k :: K) :
    Transition env s (State.unwind { s with stack := K } k e) := by
  obtain ⟨c, K', d, σ⟩ := s
  simp only at hc hK
  subst hc hK
  unfold State.unwind
  split
  · exact .unwindInit
  · rename_i k hk
    split
    · rename_i hact; exact .unwindActivation hact
    · rename_i hact; exact .unwind (Bool.not_eq_true _ ▸ hact) fun c hkc => hk c hkc

/-- Making room for an object touches the heap alone. -/
theorem makeRoom_eq (env : Env) (s : State) : ∃ heap : Heap, heap.objects = s.store.heap.objects ∧
    s.makeRoom env = { s with store := { s.store with heap } } := by
  unfold makeRoom
  split
  · exact ⟨(s.store.heap.sweep (s.roots env)).2, rfl, rfl⟩
  · exact ⟨s.store.heap, rfl, rfl⟩

/-- A request to collect leaves the objects alone, and tells the host function some number. -/
theorem hostStep_collect (env : Env) (s : State) (e : Method) (args : List Value)
    (next : Nat → HostProgram) : ∃ swept, ∃ heap : Heap, heap.objects = s.store.heap.objects ∧
      s.hostStep env e args (.collect next) =
        { s with store := { s.store with heap }, control := .host e args (next swept) } := by
  unfold hostStep
  dsimp only
  split
  · exact ⟨_, (s.store.heap.collect (s.roots env)).2, rfl, rfl⟩
  · exact ⟨0, s.store.heap, rfl, rfl⟩

theorem allocate_transition {c : Class} {args : List Value} (hc : s.control = .create c args) :
    Transition env s (State.allocate env s c args) := by
  obtain ⟨_, K, d, σ⟩ := s
  simp only at hc
  subst hc
  unfold State.allocate
  refine proceed_transition (fun _ he => .createFail he (Class.selectConstructor_isCheck he)) fun k hk => ?_
  obtain ⟨h, hobj, hroom⟩ := makeRoom_eq env ⟨.create c args, K, d, σ⟩
  rw [hroom]
  simp only [State.addObject]
  unfold State.activate
  split
  · rename_i hd; exact .createOverflow hk hobj hd
  · rename_i hd; exact .create hk hobj (Nat.lt_of_not_le hd)

theorem enterMethod_transition {e : Method} {declaring : Class} {receiver : Option Handle}
    {args : List Value} (hc : s.control = .enter e declaring receiver args) :
    Transition env s (State.enterMethod env s e declaring receiver args) := by
  obtain ⟨_, K, d, σ⟩ := s
  simp only at hc
  subst hc
  unfold State.enterMethod
  simp only
  split
  · rename_i body hb
    unfold State.activate
    split
    · rename_i hd; exact .enterOverflow hd
    · rename_i hd; exact .enterBody hb (Nat.lt_of_not_le hd)
  · rename_i host hb
    unfold State.activate
    split
    · rename_i hd; exact .enterOverflow hd
    · rename_i hd; exact .enterHost hb (Nat.lt_of_not_le hd)

theorem beginInit_transition {c : Class} (hc : s.control = .init c) :
    Transition env s (State.beginInit env s c) := by
  obtain ⟨_, K, d, σ⟩ := s
  simp only at hc
  subst hc
  unfold State.beginInit
  simp only
  split
  · rename_i hs; exact .initReady (.inl hs)
  · rename_i hs; exact .initReady (.inr hs)
  · rename_i cause hs; exact .initFailed hs
  · rename_i hs
    split
    · rename_i p hp; exact .initParent hs hp
    · rename_i hp; exact .initRoot hs hp

theorem initializeFields_transition {c : Class} {slot : Nat} {rest : List StaticDecl}
    (hc : s.control = .statics c slot rest) : Transition env s (s.initializeFields c slot rest) := by
  obtain ⟨_, K, d, σ⟩ := s
  simp only at hc
  subst hc
  unfold State.initializeFields
  split
  · split
    · rename_i hi; exact .skipStatic hi
    · rename_i e hi; exact .evalStatic hi
  · split
    · rename_i hb; exact .noBlock hb
    · rename_i block hb; exact .enterBlock hb

theorem hostStep_transition {e : Method} {args : List Value} {p : HostProgram}
    (hc : s.control = .host e args p) : Transition env s (State.hostStep env s e args p) := by
  obtain ⟨_, K, d, σ⟩ := s
  simp only at hc
  subst hc
  unfold State.hostStep
  split
  · exact proceed_transition (fun _ he => .hostFail he (HostReply.result_isCheck he)) fun v hv =>
      .hostReply hv
  · exact .hostService rfl rfl
  · split
    · exact .hostService rfl rfl
    · exact .hostService rfl rfl
  · exact .hostService rfl rfl

/-- Every step is one of the rules. -/
theorem step_transition (env : Env) (s : State) : Transition env s (s.step env) := by
  unfold State.step
  split
  · rename_i f e hc; exact eval_transition hc
  · rename_i f hc; exact exec_transition hc
  · rename_i v hc
    split
    · rename_i hK
      obtain ⟨c, K, d, σ⟩ := s
      simp only at hc hK
      subst hc hK
      exact .ended (.inl ⟨v, rfl⟩)
    · rename_i k K hK; exact resume_transition hc hK
  · rename_i e hc
    split
    · rename_i hK
      obtain ⟨c, K, d, σ⟩ := s
      simp only at hc hK
      subst hc hK
      exact .ended (.inr ⟨e, rfl⟩)
    · rename_i k K hK; exact unwind_transition hc hK
  · rename_i c hc; exact beginInit_transition hc
  · rename_i c slot rest hc; exact initializeFields_transition hc
  · rename_i c args hc; exact allocate_transition hc
  · rename_i e declaring receiver args hc; exact enterMethod_transition hc
  · rename_i e args p hc; exact hostStep_transition hc

end State

/-- What a step does to the objects: nothing, or it adds a fresh one, or it stores a checked value. -/
theorem Transition.objects {s' : State} (h : Transition env s s') :
    s'.store.heap.objects = s.store.heap.objects ∨
    (∃ (c : Class) (args : List Value) (h : Heap), s.control = .create c args ∧
      h.objects = s.store.heap.objects ∧ s'.store.heap = h.add c) ∨
    ∃ (f : Frame) (owner field : String) (target v : Value) (c : Class) (ref : Handle) (slot : Nat)
      (decl : FieldCell), env.registry.lookup f.cls.scope owner = .ok c ∧
      locateField (s.store.classOf? env.registry) c target field "write" = .ok (ref, slot) ∧
      c.fields[slot]? = some decl ∧ v.conformsTo decl.type = true ∧
      s'.store.heap = s.store.heap.setCell ref slot v := by
  cases h with
  | create _ hobj | createOverflow _ hobj => exact .inr (.inl ⟨_, _, _, rfl, hobj, rfl⟩)
  | putField hl hloc hdecl hconf => exact .inr (.inr ⟨_, _, _, _, _, _, _, _, _, hl, hloc, hdecl, hconf, rfl⟩)
  | hostService _ hobj => exact .inl hobj
  | _ => exact .inl rfl

end Steps

/-! ## Where operations start -/

/-- Code that a host supplies itself and has evaluated in the static context of a class. -/
def Operation.IsHostCode : Operation → Prop
  | .eval _ _ _ | .run _ _ _ _ => True
  | _ => False

/-- The states in which operations start: control and stack, in front of a store. -/
inductive Starts (env : Env) : Operation → Store → State → Prop where
  | failed {op e σ} : e.IsCheck → Starts env op σ ⟨.raise e, [], 0, σ⟩
  | access {op u k c σ} : Access env u k c → Starts env op σ ⟨.init c, [k], 0, σ⟩
  | virtual {op ref args e declaring σ} : SelectsVirtual env σ ref args e declaring →
      Starts env op σ ⟨.enter e declaring (some ref) args, [], 0, σ⟩
  | prepare {op u name c σ} :
      env.registry.lookup u name = .ok c → Starts env op σ ⟨.init c, [], 0, σ⟩
  | eval {op u name c e σ} : op.IsHostCode → env.registry.lookup u name = .ok c →
      Starts env op σ ⟨.eval (.initializer c) e, [], 0, σ⟩
  | run {op u name c locals body σ} : op.IsHostCode → env.registry.lookup u name = .ok c →
      Starts env op σ ⟨.exec (.enter c none locals body), [], 0, σ⟩

section Starts

variable {env : Env} {op : Operation} {σ : Store} {u : UnitId} {name : String}

/-- The state in which the host calls: nothing is active. -/
abbrev State.idle (σ : Store) : State := ⟨.answer none, [], 0, σ⟩

theorem State.Accesses.starts {t : State} (h : (State.idle σ).Accesses env u t) : Starts env op σ t := by
  rcases h with ⟨e, he, rfl⟩ | ⟨k, c, hk, rfl⟩
  · exact .failed he
  · exact .access hk

theorem lookup_starts {next : Class → State}
    (hok : ∀ c, env.registry.lookup u name = .ok c → Starts env op σ (next c)) :
    Starts env op σ ((State.idle σ).proceed (env.registry.lookup u name) next) := by
  cases hc : env.registry.lookup u name with
  | error e => exact .failed (Registry.lookup_isCheck hc)
  | ok c => exact hok c hc

/-- No operation starts in the middle of a host function. -/
theorem Starts.ne_host {s : State} (h : Starts env op σ s) (e : Method) (args : List Value)
    (p : HostProgram) : s.control ≠ .host e args p := by
  cases h <;> exact Control.noConfusion

/-- Every operation starts in one of these states. -/
theorem start_starts (env : Env) (op : Operation) (σ : Store) : Starts env op σ (op.start env σ) := by
  cases op with
  | construct u cls args => exact lookup_starts fun c hc => (State.construct_accesses hc args).starts
  | invokeStatic u cls method args =>
    exact lookup_starts fun c hc => (State.invokeStatic_accesses hc method args).starts
  | invokeVirtual receiver method args =>
    show Starts env _ σ ((State.idle σ).invokeVirtual env receiver method args)
    rcases State.invokeVirtual_cases env (.idle σ) receiver method args with
      ⟨e, he, heq⟩ | ⟨ref, e, declaring, hsel, heq⟩
    · rw [heq]; exact .failed he
    · rw [heq]; exact .virtual hsel
  | getStatic u cls field => exact lookup_starts fun c hc => (State.getStatic_accesses hc field).starts
  | putStatic u cls field v => exact lookup_starts fun c hc => (State.putStatic_accesses hc field v).starts
  | prepare u cls => exact lookup_starts fun c hc => .prepare hc
  | eval u cls e => exact lookup_starts fun c hc => .eval trivial hc
  | run u cls body locals => exact lookup_starts fun c hc => .run trivial hc

end Starts

end ObjectMachine
