/-
How the initialization of the bundled classes goes, from whatever state of whatever run it begins in.
Stream objects have no initial values and boxed integers constant ones, so these two initialize
everywhere. Their objects are boxes, with one field that a constructor fills, and a constructor takes
one level of call depth: it succeeds wherever one is left, and is refused where none is. So it is with
the initializer of the standard streams, which makes two stream objects.

What a run `Leads` to is composed along the code, one lemma for each piece of it. An expression
`Gives` a value when it leads to one on top of any stack; a class whose initial values are given is
initialized in the end (`leads_done`).
-/
import ObjectMachine.Proofs.Exec.Contents
import ObjectMachine.Proofs.Init.Failures
import ObjectMachine.Proofs.Library.Bundled

namespace ObjectMachine

/-! ## Definitions -/

/-- A run that is in the state `s` comes to the state `t`. -/
def State.Leads (env : Env) (s t : State) : Prop := ∃ n, (State.step env)^[n] s = t

/-- The next step begins the initialization of the class. -/
def State.Begins (s : State) (c : Class) : Prop :=
  s.control = .init c ∧ s.store.statics.state c = .pending

/-- Evaluated for a static field of the class at a depth, from a store of the kind `P`, the expression
comes to a value of the type and leaves such a store behind. -/
def Expr.Gives (env : Env) (c : Class) (depth : Nat) (P : Store → Prop) (ty : Ty) (e : Expr) : Prop :=
  ∀ K σ, P σ → ∃ v σ', v.conformsTo ty = true ∧ P σ' ∧
    State.Leads env ⟨.eval (.initializer c) e, K, depth, σ⟩ ⟨.answer (some v), K, depth, σ'⟩

/-- The body of a constructor that stores its argument into a field. -/
def Body.keeping (cls field : String) : Body := { code := [.putThis cls field (.slot 1)] }

/-- The class of boxes has one field, and a value of its type selects the constructor that stores the
argument there. -/
structure Registry.Boxes (r : Registry) (c : Class) (field : String) (ty : Ty) : Prop where
  has : r.Has c
  lookup : r.lookup c.scope c.name = .ok c
  fields : c.fields = [⟨field, ty, c.name⟩]
  selects : ∀ v : Value, v.type? = some ty → c.selectConstructor [v] = .ok ⟨[ty], .keeping c.name field⟩

/-- The store has the objects of a heap, and one more: a box of the class that holds the value. -/
structure Store.WithBox (σ : Store) (r : Registry) (c : Class) (v : Value) (h : Heap) : Prop where
  others : ∀ ref, ref ≠ h.next → σ.heap.get? ref = h.get? ref
  allocated : σ.heap.allocated = h.allocated + 1
  isBox : σ.classOf? r h.next = some c
  cell : σ.heap.cell? h.next 0 = some v

/-- The class with nothing to initialize but constants: it has no parent and no static block, and its
initial values are literals of the declared types. -/
structure ClassDecl.IsConstant (source : ClassDecl) : Prop where
  parent : source.parent = none
  block : source.staticBlock = none
  values : ∀ decl ∈ source.statics, ∀ e ∈ decl.init, ∃ l : Literal, e = .literal l ∧
    l.value.conformsTo decl.type = true

/-! ## Runs -/

namespace State

variable {env : Env} {s t u : State}

theorem Leads.trans (h : s.Leads env t) (h' : t.Leads env u) : s.Leads env u := by
  obtain ⟨n, rfl⟩ := h
  obtain ⟨k, rfl⟩ := h'
  exact ⟨k + n, Function.iterate_add_apply _ _ _ _⟩

/-- A state leads to what its next step is. -/
theorem Leads.of_eq (h : s.step env = t) : s.Leads env t := ⟨1, h⟩

theorem Leads.step (h : (s.step env).Leads env t) : s.Leads env t := (of_eq rfl).trans h

end State

/-! ## Initializing a class -/

section Initializing

variable {env : Env} {c : Class} {depth : Nat} {P : Store → Prop} {K : List Cont} {σ : Store}

/-- The static fields of a class, one after the other. -/
theorem leads_statics (hblock : c.staticBlock? = none)
    (hcell : ∀ σ slot v, P σ → P { σ with statics := σ.statics.setCell c slot v }) :
    ∀ (rest : List StaticDecl) (slot : Nat) (σ : Store), P σ →
      (∀ decl ∈ rest, ∀ e ∈ decl.init, e.Gives env c depth P decl.type) →
      ∃ σ', P σ' ∧ State.Leads env ⟨.statics c slot rest, K, depth, σ⟩ ⟨.answer none, K, depth, σ'⟩ := by
  intro rest
  induction rest with
  | nil =>
    intro slot σ hσ _
    refine ⟨σ, hσ, .of_eq ?_⟩
    simp only [State.step, State.initializeFields, hblock, State.goto]
  | cons decl rest ih =>
    intro slot σ hσ hgives
    obtain ⟨hdecl, hrest⟩ := List.forall_mem_cons.1 hgives
    cases hinit : decl.init with
    | none =>
      obtain ⟨σ', hσ', hleads⟩ := ih (slot + 1) σ hσ hrest
      refine ⟨σ', hσ', .step ?_⟩
      simpa only [State.step, State.initializeFields, hinit, State.goto] using hleads
    | some e =>
      -- the value is given on top of the field's own continuation, and stored
      obtain ⟨v, σ₁, hv, hσ₁, hvalue⟩ :=
        hdecl e (by rw [hinit]; rfl) (.staticValue c slot decl.type rest :: K) σ hσ
      obtain ⟨σ', hσ', hleads⟩ := ih (slot + 1) _ (hcell σ₁ slot v hσ₁) hrest
      have hstored : State.Leads env ⟨.answer (some v), .staticValue c slot decl.type rest :: K, depth, σ₁⟩
          ⟨.answer none, K, depth, σ'⟩ := by
        refine .step ?_
        simpa only [State.step, State.resume, Option.getD_some, hv, if_true, State.setStatic, State.goto]
          using hleads
      refine ⟨σ', hσ', .step ?_⟩
      simpa only [State.step, State.initializeFields, hinit, State.await] using hvalue.trans hstored

/-- The initialization of a class without a parent begins with its static fields. -/
theorem leads_begin (hroot : env.registry.parent? c = none) (hpend : σ.statics.state c = .pending) :
    State.Leads env ⟨.init c, K, depth, σ⟩ ⟨.statics c 0 c.statics, .initializing c :: K, depth,
      { σ with statics := σ.statics.setState c .running }⟩ := by
  refine .of_eq ?_
  simp only [State.step, State.beginInit, hpend, hroot, State.await]

/-- A class without a parent and a static block whose initial values are given is initialized in the
end. -/
theorem leads_done (hroot : env.registry.parent? c = none) (hblock : c.staticBlock? = none)
    (hcell : ∀ σ slot v, P σ → P { σ with statics := σ.statics.setCell c slot v })
    (hstate : ∀ σ st, P σ → P { σ with statics := σ.statics.setState c st })
    (hgives : ∀ decl ∈ c.statics, ∀ e ∈ decl.init, e.Gives env c depth P decl.type)
    (hpend : σ.statics.state c = .pending) (hσ : P σ) :
    ∃ σ', P σ' ∧ σ'.statics.state c = .done ∧
      State.Leads env ⟨.init c, K, depth, σ⟩ ⟨.answer none, K, depth, σ'⟩ := by
  obtain ⟨σ₁, hσ₁, hleads⟩ :=
    leads_statics hblock hcell c.statics 0 _ (hstate σ .running hσ) hgives (K := .initializing c :: K)
  refine ⟨{ σ₁ with statics := σ₁.statics.setState c .done }, hstate σ₁ .done hσ₁, ?_,
    (leads_begin hroot hpend).trans (hleads.trans (.of_eq rfl))⟩
  exact (Statics.stateOf_setState _ _ _ _).trans (if_pos rfl)

/-- A literal is given anywhere. -/
theorem Expr.gives_literal {l : Literal} {ty : Ty} (hl : l.value.conformsTo ty = true) :
    (Expr.literal l).Gives env c depth P ty :=
  fun _ σ hσ => ⟨l.value, σ, hl, hσ, .of_eq rfl⟩

end Initializing

/-! ## Classes with constants only -/

/-- A class whose source names no parent has none. -/
theorem Registry.WF.parent?_none {r : Registry} {came : ClassId → Bindings → Prop} (hwf : r.WF came)
    {c : Class} (hc : r.Has c) (hsource : c.source.parent = none) : r.parent? c = none := by
  obtain ⟨natives, -, hb⟩ := hwf.built_parent hc
  exact Option.map_eq_none_iff.1 (hb.named.symm.trans hsource)

section Constants

variable {env : Env} {c : Class} (depth : Nat) (K : List Cont) {σ : Store}

/-- A class with constants only is initialized wherever that begins, and allocates nothing. -/
theorem leads_constant (hwf : env.registry.Sound) (hc : env.registry.Has c) (hconst : c.source.IsConstant)
    (hpend : σ.statics.state c = .pending) : ∃ σ', σ'.heap = σ.heap ∧ σ'.statics.state c = .done ∧
      State.Leads env ⟨.init c, K, depth, σ⟩ ⟨.answer none, K, depth, σ'⟩ := by
  have hgives : ∀ decl ∈ c.statics, ∀ e ∈ decl.init,
      e.Gives env c depth (fun σ' => σ'.heap = σ.heap) decl.type := by
    intro decl hdecl e he
    obtain ⟨l, rfl, hl⟩ := hconst.values decl hdecl e he
    exact Expr.gives_literal hl
  exact leads_done (hwf.parent?_none hc hconst.parent) hconst.block
    (fun _ _ _ h => h) (fun _ _ h => h) hgives hpend rfl

/-- So it can be used, unless it has failed. -/
theorem leads_ready (hwf : env.registry.Sound) (hc : env.registry.Has c) (hconst : c.source.IsConstant)
    (husable : ¬ (σ.statics.state c).IsFailed) :
    ∃ σ', σ'.heap = σ.heap ∧ ¬ (σ'.statics.state c).IsFailed ∧
      State.Leads env ⟨.init c, K, depth, σ⟩ ⟨.answer none, K, depth, σ'⟩ := by
  cases hst : σ.statics.state c with
  | pending =>
    obtain ⟨σ', hheap, hdone, hleads⟩ := leads_constant depth K hwf hc hconst hst
    exact ⟨σ', hheap, by rw [hdone]; exact nofun, hleads⟩
  | failed cause => exact absurd ⟨cause, hst⟩ husable
  | running | done =>
    refine ⟨σ, rfl, husable, .of_eq ?_⟩
    simp only [State.step, State.beginInit, hst, State.goto]

/-- A call of a static method of such a class enters it. -/
theorem leads_static (hwf : env.registry.Sound) (hc : env.registry.Has c) (hconst : c.source.IsConstant)
    (husable : ¬ (σ.statics.state c).IsFailed) {name : String} {args : List Value} {e : Method}
    (hselect : c.select .static name args = .ok e) (hdeclaring : e.declaring = c.id) (ctrl : Control) :
    ∃ σ', σ'.heap = σ.heap ∧ ¬ (σ'.statics.state c).IsFailed ∧
      State.Leads env (State.invokeStatic env ⟨ctrl, K, depth, σ⟩ c name args)
        ⟨.enter e c none args, K, depth, σ'⟩ := by
  have hclass : env.registry.class? e.declaring = some c := by
    rw [hdeclaring]
    exact hc
  have hcall : State.invokeStatic env ⟨ctrl, K, depth, σ⟩ c name args =
      ⟨.init c, .thenInvoke e c args :: K, depth, σ⟩ := by
    simp only [State.invokeStatic, hselect, State.proceed, State.invoke, hclass, Class.select_static hselect,
      if_true, State.await]
  obtain ⟨σ', hheap, husable', hready⟩ := leads_ready depth (.thenInvoke e c args :: K) hwf hc hconst husable
  refine ⟨σ', hheap, husable', ?_⟩
  rw [hcall]
  exact hready.trans (.of_eq rfl)

theorem Library.printStream_isConstant : Library.printStream.IsConstant := ⟨rfl, rfl, nofun⟩

theorem Library.long_isConstant : Library.long.IsConstant := by
  refine ⟨rfl, rfl, fun decl hdecl e he => ?_⟩
  simp only [Library.long, List.mem_cons, List.not_mem_nil, or_false] at hdecl
  rcases hdecl with rfl | rfl | rfl | rfl <;> cases he <;> exact ⟨_, rfl, rfl⟩

end Constants

/-! ## Layout of the bundled classes -/

/-- A bundled class without a parent that declares one field has boxes, if for a value of the field's type
its declared constructors leave the one that stores it. -/
theorem Registry.Bundles.boxes {r : Registry} {source : ClassDecl} {c : Class} (hc : r.Bundles source c)
    (hwf : r.Sound) (hroot : source.parent = none) {field : String} {ty : Ty}
    (hfield : source.fields = [⟨field, ty⟩]) {ks : List Constructor} (hks : buildConstructors source = .ok ks)
    (haccepts : ∀ v : Value, v.type? = some ty →
      ks.filter (·.accepts [v]) = [⟨[ty], .keeping source.name field⟩]) : r.Boxes c field ty := by
  have hname : c.name = source.name := by rw [Class.name, hc.source_eq]
  obtain ⟨natives, -, hb⟩ := hwf.built_parent hc.has
  obtain ⟨-, -, -, -, hfields, -, hconstructors⟩ := Registry.build_ok hb.build
  rw [hwf.parent?_none hc.has (by rw [hc.source_eq]; exact hroot), hc.source_eq, hfield] at hfields
  rw [hc.source_eq, hks] at hconstructors
  obtain rfl := Except.ok.inj hconstructors
  refine ⟨hc.has, ?_, ?_, fun v hv => ?_⟩
  · rw [hc.scope, hname]
    exact hc.lookup
  · rw [hname]
    exact hfields
  · unfold Class.selectConstructor
    rw [haccepts v hv, hname]

/-- Stream objects hold the handle of their stream. -/
theorem Registry.Bundles.printStream {r : Registry} {ps : Class} (hps : r.Bundles Library.printStream ps)
    (hwf : r.Sound) : r.Boxes ps "fd" .int := by
  refine hps.boxes hwf rfl rfl rfl fun v hv => ?_
  cases v <;> cases hv
  rfl

/-- Boxed integers hold their number. -/
theorem Registry.Bundles.long {r : Registry} {long : Class} (hlong : r.Bundles Library.long long)
    (hwf : r.Sound) : r.Boxes long "value" .long := by
  refine hlong.boxes hwf rfl rfl rfl fun v hv => ?_
  cases v <;> cases hv
  rfl

/-- The standard streams belong to a class without a parent and a static block, and are stream objects. -/
theorem Registry.Bundles.system {r : Registry} {sys : Class} (hsys : r.Bundles Library.system sys)
    (hwf : r.Sound) : r.parent? sys = none ∧ sys.staticBlock? = none ∧
      sys.statics = [⟨"out", .reference, some (Library.streamObject .out)⟩,
        ⟨"err", .reference, some (Library.streamObject .err)⟩] := by
  unfold Class.staticBlock? Class.statics
  rw [hsys.source_eq]
  exact ⟨hwf.parent?_none hsys.has (by rw [hsys.source_eq]; rfl), rfl, rfl⟩

theorem Registry.Bundles.ne_system {r : Registry} {ps sys : Class}
    (hps : r.Bundles Library.printStream ps) (hsys : r.Bundles Library.system sys) : ps.id ≠ sys.id := by
  intro hid
  obtain rfl := hps.has.unique hsys.has hid
  have hname := congrArg ClassDecl.name (hps.source_eq.symm.trans hsys.source_eq)
  exact absurd hname (by decide)

/-! ## Boxes -/

/-- An allocation puts a new object on the heap and enters the constructor that the arguments select. -/
theorem State.allocate_eq (env : Env) (s : State) {c : Class} {args : List Value} {k : Constructor}
    (hk : c.selectConstructor args = .ok k) : ∃ heap : Heap, heap.objects = s.store.heap.objects ∧
      s.allocate env c args = State.activate env { s with store := { s.store with heap := heap.add c } }
        (.constructing s.store.heap.next) (.exec (.enter c (some s.store.heap.next)
          (.object s.store.heap.next :: args) k.body)) := by
  obtain ⟨heap, hobj, hroom⟩ := makeRoom_eq env s
  refine ⟨heap, hobj, ?_⟩
  simp only [allocate, hk, proceed]
  rw [hroom]
  rfl

/-- The field of a box is its only cell. -/
theorem Registry.Boxes.located {r : Registry} {c : Class} {field : String} {ty : Ty}
    (hc : r.Boxes c field ty) {classOf : Handle → Option Class} {ref : Handle} (hclass : classOf ref = some c)
    (access : String) : locateField classOf c (.object ref) field access = .ok (ref, 0) := by
  have hself : c.descendsFrom c = true := by simp [Class.descendsFrom, Class.lineage]
  have hindex : c.fieldIndex? field = some 0 := by
    unfold Class.fieldIndex?
    rw [hc.fields]
    simp
  simp only [locateField, hclass, hself, hindex, if_true]

section Boxes

variable {env : Env} {c : Class} {field : String} {ty : Ty} {depth : Nat}
  (hc : env.registry.Boxes c field ty) (K : List Cont) (σ : Store) {v : Value} (hv : v.type? = some ty)

include hc hv

/-- The constructor of a box stores the value and gives the object. -/
theorem leads_constructed {ref : Handle} (hclass : σ.classOf? env.registry ref = some c)
    (hcell : (σ.heap.cell? ref 0).isSome) :
    State.Leads env ⟨.exec (.enter c (some ref) [.object ref, v] (.keeping c.name field)),
        .constructing ref :: K, depth + 1, σ⟩
      ⟨.answer (some (.object ref)), K, depth, { σ with heap := σ.heap.setCell ref 0 v }⟩ := by
  let f : Frame := .enter c (some ref) [.object ref, v] {}
  let σ' : Store := { σ with heap := σ.heap.setCell ref 0 v }
  have hoperands : State.Leads env ⟨.exec (.enter c (some ref) [.object ref, v] (.keeping c.name field)),
        .constructing ref :: K, depth + 1, σ⟩
      ⟨.answer (some v), .putValue c.name field (.object ref) f :: .constructing ref :: K,
        depth + 1, σ⟩ := ⟨4, rfl⟩
  -- the receiver is an instance of the class that the code names, and has the cell
  have hlookup : State.lookup env f c.name = .ok c := hc.lookup
  have hlocate := hc.located hclass "write"
  have hdecl : c.fields[0]? = some ⟨field, ty, c.name⟩ := by rw [hc.fields]; rfl
  have hfits : v.conformsTo ty = true := by simp [Value.conformsTo, hv]
  obtain ⟨old, hold⟩ := Option.isSome_iff_exists.1 hcell
  have hstore : State.step env ⟨.answer (some v),
      .putValue c.name field (.object ref) f :: .constructing ref :: K, depth + 1, σ⟩ =
      ⟨.exec f, .constructing ref :: K, depth + 1, σ'⟩ := by
    simp only [State.step, State.resume, State.writeField, hlookup, State.proceed, Option.getD_some, hlocate,
      hdecl, hold, hfits, if_true, State.run, State.goto, σ']
  have hleave : State.Leads env ⟨.exec f, .constructing ref :: K, depth + 1, σ'⟩
      ⟨.answer (some (.object ref)), K, depth, σ'⟩ := ⟨2, rfl⟩
  exact hoperands.trans ((State.Leads.of_eq hstore).trans hleave)

/-- Where a level of call depth is left, a box is made. -/
theorem leads_created (hdepth : depth < env.options.maxCallDepth) :
    ∃ σ', σ'.statics = σ.statics ∧ σ'.WithBox env.registry c v σ.heap ∧
      State.Leads env ⟨.create c [v], K, depth, σ⟩ ⟨.answer (some (.object σ.heap.next)), K, depth, σ'⟩ := by
  obtain ⟨heap, hobj, halloc⟩ := State.allocate_eq env ⟨.create c [v], K, depth, σ⟩ (hc.selects v hv)
  have hnext : σ.heap.next.index = heap.allocated := congrArg Array.size hobj.symm
  -- the new object is an instance of the class, with one cell
  have hnew : (heap.add c).get? σ.heap.next = some ⟨c.id, [ty.default]⟩ := by
    rw [Heap.get?_add, if_pos hnext, hc.fields]
    rfl
  have hmade : ((heap.add c).setCell σ.heap.next 0 v).get? σ.heap.next = some ⟨c.id, [v]⟩ := by
    rw [Heap.get?_setCell, if_pos rfl, hnew]
    rfl
  have hclass : Store.classOf? { σ with heap := heap.add c } env.registry σ.heap.next = some c := by
    unfold Store.classOf?
    rw [hnew]
    exact hc.has
  have hcell : ((heap.add c).cell? σ.heap.next 0).isSome := by
    unfold Heap.cell?
    rw [hnew]
    rfl
  refine ⟨{ σ with heap := (heap.add c).setCell σ.heap.next 0 v }, rfl, ⟨fun ref hne => ?_, ?_, ?_, ?_⟩, .step ?_⟩
  · have hindex : σ.heap.next.index ≠ ref.index := fun heq => hne (congrArg Handle.mk heq.symm)
    rw [Heap.get?_setCell, if_neg hindex, Heap.get?_add, if_neg (hnext ▸ hindex.symm)]
    simp only [Heap.get?, hobj]
  · simp [Heap.allocated, Heap.setCell, Heap.add, hobj]
  · unfold Store.classOf?
    rw [hmade]
    exact hc.has
  · unfold Heap.cell?
    rw [hmade]
    rfl
  · show State.Leads env (State.allocate env _ c [v]) _
    rw [halloc, State.activate, if_neg (Nat.not_le.2 hdepth)]
    exact leads_constructed hc K _ hv hclass hcell

/-- Where none is left, the error of an exhausted call depth is raised. -/
theorem leads_refused (hdepth : env.options.maxCallDepth ≤ depth) : ∃ heap,
    State.Leads env ⟨.create c [v], K, depth, σ⟩
      ⟨.raise (.stackOverflow env.options.maxCallDepth), K, depth, { σ with heap }⟩ := by
  obtain ⟨heap, -, halloc⟩ := State.allocate_eq env ⟨.create c [v], K, depth, σ⟩ (hc.selects v hv)
  refine ⟨heap.add c, .of_eq ?_⟩
  show State.allocate env _ c [v] = _
  rw [halloc, State.activate, if_pos hdepth]
  rfl

end Boxes

/-! ## The standard streams -/

section Streams

variable {env : Env} {ps sys : Class} (hwf : env.registry.Sound)
  (hps : env.registry.Bundles Library.printStream ps) (hsys : env.registry.Bundles Library.system sys)
  {depth : Nat} (K : List Cont) {σ : Store}

include hwf hps hsys

/-- An initial value of the standard streams comes to making a stream object. -/
theorem leads_create (husable : ¬ (σ.statics.state ps).IsFailed) (stream : Stream) :
    ∃ σ', ¬ (σ'.statics.state ps).IsFailed ∧
      State.Leads env ⟨.eval (.initializer sys) (Library.streamObject stream), K, depth, σ⟩
        ⟨.create ps [.int stream.fd], K, depth, σ'⟩ := by
  have hlookup : State.lookup env (.initializer sys) "PrintStream" = .ok ps := by
    show env.registry.lookup sys.scope _ = _
    rw [hsys.scope]
    exact hps.lookup
  have hcall : State.step env ⟨.answer (some (.int stream.fd)),
      .argument (.create "PrintStream") [] [] (.initializer sys) :: K, depth, σ⟩ =
      ⟨.init ps, .thenCreate ps [.int stream.fd] :: K, depth, σ⟩ := by
    simp only [State.step, State.resume, State.arguments, State.call, hlookup, State.proceed]
    rfl
  have harguments : State.Leads env
      ⟨.eval (.initializer sys) (Library.streamObject stream), K, depth, σ⟩
      ⟨.init ps, .thenCreate ps [.int stream.fd] :: K, depth, σ⟩ :=
    .trans ⟨2, rfl⟩ (.of_eq hcall)
  obtain ⟨σ', -, husable', hready⟩ := leads_ready depth (.thenCreate ps [.int stream.fd] :: K) hwf
    hps.has (hps.source_eq ▸ Library.printStream_isConstant) husable
  exact ⟨σ', husable', harguments.trans (hready.trans (.of_eq rfl))⟩

/-- A stream object is given for a standard stream where a level of call depth is left. -/
theorem gives_streamObject (hdepth : depth < env.options.maxCallDepth) (stream : Stream) :
    (Library.streamObject stream).Gives env sys depth (fun σ => ¬ (σ.statics.state ps).IsFailed)
      .reference := by
  intro K σ husable
  obtain ⟨σ', husable', hcreate⟩ := leads_create hwf hps hsys K husable stream
  obtain ⟨σ'', hstatics, -, hmade⟩ := leads_created (hps.printStream hwf) K σ' (v := .int stream.fd) rfl hdepth
  refine ⟨.object σ'.heap.next, σ'', rfl, ?_, hcreate.trans hmade⟩
  rw [← hstatics] at husable'
  exact husable'

/-- The standard streams are initialized where a level of call depth is left. -/
theorem leads_streams (hdepth : depth < env.options.maxCallDepth) (husable : ¬ (σ.statics.state ps).IsFailed)
    (hpend : σ.statics.state sys = .pending) : ∃ σ', σ'.statics.state sys = .done ∧
      State.Leads env ⟨.init sys, K, depth, σ⟩ ⟨.answer none, K, depth, σ'⟩ := by
  obtain ⟨hroot, hblock, hstatics⟩ := hsys.system hwf
  have hgives : ∀ decl ∈ sys.statics, ∀ e ∈ decl.init,
      e.Gives env sys depth (fun σ => ¬ (σ.statics.state ps).IsFailed) decl.type := by
    intro decl hdecl e he
    simp only [hstatics, List.mem_cons, List.not_mem_nil, or_false] at hdecl
    rcases hdecl with rfl | rfl <;> cases he <;> exact gives_streamObject hwf hps hsys hdepth _
  obtain ⟨σ', -, hdone, hleads⟩ := leads_done hroot hblock
    (fun σ slot v h => by rwa [Statics.state, Statics.stateOf_setCell])
    (fun σ st h => by rwa [Statics.state, Statics.stateOf_setState, if_neg (hps.ne_system hsys)])
    hgives hpend husable
  exact ⟨σ', hdone, hleads⟩

/-- Where none is left, the class of the standard streams fails with the error of an exhausted call
depth. -/
theorem leads_spent (hdepth : env.options.maxCallDepth ≤ depth) (husable : ¬ (σ.statics.state ps).IsFailed)
    (hpend : σ.statics.state sys = .pending) :
    ∃ e σ', σ'.statics.state sys = .failed (.stackOverflow env.options.maxCallDepth) ∧
      State.Leads env ⟨.init sys, K, depth, σ⟩ ⟨.raise e, K, depth, σ'⟩ := by
  obtain ⟨hroot, -, hstatics⟩ := hsys.system hwf
  let σ₁ : Store := { σ with statics := σ.statics.setState sys .running }
  have husable₁ : ¬ (σ₁.statics.state ps).IsFailed := by
    rwa [Statics.state, Statics.stateOf_setState, if_neg (hps.ne_system hsys)]
  -- the first stream object is asked for, and refused
  let L : List Cont := .staticValue sys 0 .reference
    [⟨"err", .reference, some (Library.streamObject .err)⟩] :: .initializing sys :: K
  have hfirst : State.Leads env ⟨.init sys, K, depth, σ⟩
      ⟨.eval (.initializer sys) (Library.streamObject .out), L, depth, σ₁⟩ := by
    refine (leads_begin hroot hpend).trans ?_
    rw [hstatics]
    exact .of_eq rfl
  obtain ⟨σ₂, -, hcreate⟩ := leads_create hwf hps hsys L husable₁ .out
  obtain ⟨heap, hrefused⟩ := leads_refused (hps.printStream hwf) L σ₂ (v := .int Stream.out.fd) rfl hdepth
  -- the error passes the initialization of the class
  let σ₃ : Store := { σ₂ with
    heap, statics := σ₂.statics.setState sys (.failed (.stackOverflow env.options.maxCallDepth)) }
  have hfailed : σ₃.statics.state sys = .failed (.stackOverflow env.options.maxCallDepth) :=
    (Statics.stateOf_setState _ _ _ _).trans (if_pos rfl)
  exact ⟨_, σ₃, hfailed, hfirst.trans (hcreate.trans (hrefused.trans ⟨2, rfl⟩))⟩

end Streams

end ObjectMachine
