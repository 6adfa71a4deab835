/-
Loading commutes with running. The classes of a new unit are in a scope of their own, which no class of
the other scopes can see (`Grows`). Whatever a step looks up, it looks up by a name in the scope of a
registered class, or by the position of a registered class: of an object, of a parent, of the class that
declares a selected method. So a step does the same in a registry that has grown (`step_grown`), and an
operation does too (`finish_grown`); loading, for its part, does not look at the store.
-/
import ObjectMachine.Proofs.Registry.Batch
import ObjectMachine.Proofs.Store.Typing

namespace ObjectMachine

/-! ## Definitions -/

/-- Every class is in a scope that has been opened. -/
structure Registry.Scoped (r : Registry) : Prop where
  system : systemUnit < r.units.size
  classes : ∀ c, r.Has c → c.scope < r.units.size

/-- `r'` has the classes of `r`, and the scopes of `r` see no others in it. -/
structure Registry.Grows (r r' : Registry) : Prop where
  sound : r.Sound
  scopes : r.Scoped
  kept : r.Extends r'
  names : ∀ u, u < r.units.size → ∀ n, r'.get? u n = r.get? u n

/-- The environment with another registry. -/
def Env.grown (env : Env) (r' : Registry) : Env := { env with registry := r' }

/-- The unit from which an operation names its class. -/
def Operation.unit? : Operation → Option UnitId
  | .construct u _ _ | .invokeStatic u _ _ _ | .getStatic u _ _ | .putStatic u _ _ _ => some u
  | .prepare u _ | .eval u _ _ | .run u _ _ _ => some u
  | .invokeVirtual _ _ _ => none

/-! ## Registries -/

namespace Registry

section Grows

variable {r r' : Registry}

theorem Grows.lookup (h : r.Grows r') {u : UnitId} (hu : u < r.units.size) (name : String) :
    r'.lookup u name = r.lookup u name := by
  unfold Registry.lookup
  rw [h.names u hu name]

theorem Grows.class? (h : r.Grows r') {id : ClassId} {c : Class} (hc : r.class? id = some c) :
    r'.class? id = r.class? id := (h.kept.class? hc).trans hc.symm

theorem Grows.parent? (h : r.Grows r') {c : Class} (hc : r.Has c) : r'.parent? c = r.parent? c :=
  h.sound.parent?_extends h.kept hc

/-- The class that declares a method of a registered class is registered. -/
theorem Grows.declaring (h : r.Grows r') {c : Class} (hc : r.Has c) {e : Method}
    (he : e ∈ c.methods.entries) : r'.class? e.declaring = r.class? e.declaring := by
  obtain ⟨owner, ho, -⟩ := h.sound.entry_declaring hc he
  exact h.class? ho

/-- The lineage of a registered class is registered. -/
theorem Grows.findStatic? (h : r.Grows r') {c : Class} (hc : r.Has c) (name : String) :
    r'.findStatic? c name = r.findStatic? c name := by
  have hclass : ∀ id ∈ c.lineage, r'.class? id = r.class? id := by
    intro id hid
    obtain ⟨d, hd, rfl, -⟩ := h.sound.lineage_induction (P := fun _ => True)
      (fun _ _ _ _ _ => trivial) _ rfl hc trivial id hid
    exact h.class? hd
  unfold Registry.findStatic?
  generalize c.lineage = ids at hclass
  induction ids with
  | nil => rfl
  | cons id ids ih =>
    obtain ⟨hid, hids⟩ := List.forall_mem_cons.1 hclass
    rw [List.findSome?_cons, List.findSome?_cons, hid, ih hids]

/-- The class of an object is registered. -/
theorem Grows.classOf? (h : r.Grows r') {σ : Store} (ht : σ.Typed r) : σ.classOf? r' = σ.classOf? r := by
  funext ref
  unfold Store.classOf?
  cases ho : σ.heap.get? ref with
  | none => rfl
  | some o =>
    obtain ⟨c, hc, -⟩ := ht.objects o (Heap.get?_mem ho)
    exact h.class? hc

theorem Grows.nameOf (h : r.Grows r') {σ : Store} (ht : σ.Typed r) : σ.nameOf r' = σ.nameOf r := by
  funext ref
  unfold Store.nameOf
  rw [h.classOf? ht]

theorem Grows.fieldByName? (h : r.Grows r') {σ : Store} (ht : σ.Typed r) :
    σ.fieldByName? r' = σ.fieldByName? r := by
  funext ref name
  unfold Store.fieldByName?
  rw [h.classOf? ht]

end Grows

end Registry

/-! ## Steps -/

namespace State

section Steps

variable {env : Env} {r' : Registry} {s : State} {f : Frame}

theorem proceed_congr {α : Type} {r : Except Failure α} {next next' : α → State}
    (h : ∀ a, r = .ok a → next a = next' a) : s.proceed r next = s.proceed r next' := by
  cases r with
  | error e => rfl
  | ok a => exact h a rfl

theorem lookup_grown (h : env.registry.Grows r') (hf : env.registry.Has f.cls) (name : String) :
    lookup (env.grown r') f name = lookup env f name :=
  h.lookup (h.scopes.classes f.cls hf) name

/-! ### Calls -/

theorem invoke_grown (h : env.registry.Grows r') {c : Class} (hc : env.registry.Has c) {e : Method}
    (he : e ∈ c.methods.entries) (receiver : Option Handle) (args : List Value) :
    s.invoke (env.grown r') e receiver args = s.invoke env e receiver args := by
  unfold invoke
  rw [show (env.grown r').registry.class? e.declaring = _ from h.declaring hc he]

theorem invokeStatic_grown (h : env.registry.Grows r') {c : Class} (hc : env.registry.Has c)
    (name : String) (args : List Value) :
    s.invokeStatic (env.grown r') c name args = s.invokeStatic env c name args :=
  proceed_congr fun _ he => invoke_grown h hc (Class.select_wants he).2 none args

theorem invokeVirtual_grown (h : env.registry.Grows r') (ht : s.store.Typed env.registry)
    (receiver : Value) (name : String) (args : List Value) :
    s.invokeVirtual (env.grown r') receiver name args = s.invokeVirtual env receiver name args := by
  unfold invokeVirtual
  rw [show s.store.classOf? (env.grown r').registry = _ from h.classOf? ht]
  refine proceed_congr fun ⟨ref, e⟩ hsel => ?_
  obtain ⟨-, c, hc, he⟩ := selectVirtual_ok hsel
  obtain ⟨o, -, hclass⟩ := Store.classOf?_some hc
  exact invoke_grown h (h.sound.has_of_class? hclass) (Class.select_wants he).2 _ args

theorem getStatic_grown (h : env.registry.Grows r') {c : Class} (hc : env.registry.Has c)
    (name : String) : s.getStatic (env.grown r') c name = s.getStatic env c name := by
  unfold getStatic
  rw [show (env.grown r').registry.findStatic? c name = _ from h.findStatic? hc name]

theorem putStatic_grown (h : env.registry.Grows r') {c : Class} (hc : env.registry.Has c)
    (name : String) (v : Value) : s.putStatic (env.grown r') c name v = s.putStatic env c name v := by
  unfold putStatic
  rw [show (env.grown r').registry.findStatic? c name = _ from h.findStatic? hc name]

theorem callSuper_grown (h : env.registry.Grows r') (hf : env.registry.Has f.cls) (name : String)
    (args : List Value) : s.callSuper (env.grown r') f name args = s.callSuper env f name args := by
  unfold callSuper
  rw [show (env.grown r').registry.parent? f.cls = _ from h.parent? hf]
  cases f.this with
  | none => rfl
  | some ref =>
    cases hp : env.registry.parent? f.cls with
    | none => rfl
    | some p =>
      have hph := (h.sound.parent_before hf hp).1
      exact proceed_congr fun _ he => invoke_grown h hph (Class.select_wants he).2 _ args

theorem superInit_grown (h : env.registry.Grows r') (hf : env.registry.Has f.cls) (args : List Value) :
    s.superInit (env.grown r') f args = s.superInit env f args := by
  unfold superInit
  rw [show (env.grown r').registry.parent? f.cls = _ from h.parent? hf]
  rfl

theorem call_grown (h : env.registry.Grows r') (ht : s.store.Typed env.registry)
    (hf : env.registry.Has f.cls) (target : CallTarget) (args : List Value) :
    s.call (env.grown r') target args f = s.call env target args f := by
  cases target with
  | create cls =>
    show s.proceed (lookup (env.grown r') f cls) _ = s.proceed (lookup env f cls) _
    rw [lookup_grown h hf]
  | static cls method =>
    show s.proceed (lookup (env.grown r') f cls) _ = s.proceed (lookup env f cls) _
    rw [lookup_grown h hf]
    exact proceed_congr fun c hc => invokeStatic_grown h (h.sound.has_of_lookup hc) method args
  | virtual receiver method => exact invokeVirtual_grown h ht receiver method args
  | superMethod method => exact callSuper_grown h hf method args
  | superInit => exact superInit_grown h hf args

theorem arguments_grown (h : env.registry.Grows r') (ht : s.store.Typed env.registry)
    (hf : env.registry.Has f.cls) (target : CallTarget) (before : List Value) (after : List Expr) :
    s.arguments (env.grown r') target before after f = s.arguments env target before after f := by
  cases after with
  | nil => exact call_grown h ht hf target before.reverse
  | cons e rest => rfl

/-! ### Code -/

theorem eval_grown (h : env.registry.Grows r') (ht : s.store.Typed env.registry)
    (hf : env.registry.Has f.cls) (e : Expr) : s.eval (env.grown r') f e = s.eval env f e := by
  cases e with
  | getStatic cls field =>
    show s.proceed (lookup (env.grown r') f cls) _ = s.proceed (lookup env f cls) _
    rw [lookup_grown h hf]
    exact proceed_congr fun c hc => getStatic_grown h (h.sound.has_of_lookup hc) field
  | create cls args => exact arguments_grown h ht hf _ _ args
  | invokeStatic cls method args => exact arguments_grown h ht hf _ _ args
  | invokeSuper method args => exact arguments_grown h ht hf _ _ args
  | _ => rfl

theorem exec_grown (h : env.registry.Grows r') (ht : s.store.Typed env.registry)
    (hf : env.registry.Has f.cls) : s.exec (env.grown r') f = s.exec env f := by
  unfold exec
  cases f.code with
  | nil => rfl
  | cons stmt rest =>
    cases stmt with
    | superInit args => exact arguments_grown (f := { f with code := rest }) h ht hf _ _ args
    | giveBack value => cases value <;> rfl
    | _ => rfl

theorem readField_grown (h : env.registry.Grows r') (ht : s.store.Typed env.registry)
    (hf : env.registry.Has f.cls) (owner field : String) (target : Value) :
    s.readField (env.grown r') owner field f target = s.readField env owner field f target := by
  unfold readField
  rw [lookup_grown h hf, show s.store.classOf? (env.grown r').registry = _ from h.classOf? ht]

theorem writeField_grown (h : env.registry.Grows r') (ht : s.store.Typed env.registry)
    (hf : env.registry.Has f.cls) (owner field : String) (target v : Value) :
    s.writeField (env.grown r') owner field f target v = s.writeField env owner field f target v := by
  unfold writeField
  rw [lookup_grown h hf, show s.store.classOf? (env.grown r').registry = _ from h.classOf? ht]

theorem beginInit_grown (h : env.registry.Grows r') {c : Class} (hc : env.registry.Has c) :
    s.beginInit (env.grown r') c = s.beginInit env c := by
  unfold beginInit
  rw [show (env.grown r').registry.parent? c = _ from h.parent? hc]

/-- What a host function sees of the objects. -/
theorem enterMethod_grown (h : env.registry.Grows r') (ht : s.store.Typed env.registry) (e : Method)
    (declaring : Class) (receiver : Option Handle) (args : List Value) :
    s.enterMethod (env.grown r') e declaring receiver args = s.enterMethod env e declaring receiver args := by
  have hview : s.hostView (env.grown r') = s.hostView env := by
    unfold hostView
    rw [show s.store.fieldByName? (env.grown r').registry = _ from h.fieldByName? ht]
    rfl
  unfold enterMethod
  rw [hview]
  rfl

/-- What a host function writes. -/
theorem hostStep_grown (h : env.registry.Grows r') (ht : s.store.Typed env.registry) (e : Method)
    (args : List Value) (p : HostProgram) :
    s.hostStep (env.grown r') e args p = s.hostStep env e args p := by
  have htext : s.store.text (env.grown r').registry = s.store.text env.registry := by
    funext v
    unfold Store.text
    rw [show s.store.nameOf (env.grown r').registry = _ from h.nameOf ht]
  unfold hostStep
  rw [htext]
  rfl

theorem resume_grown (h : env.registry.Grows r') (ht : s.store.Typed env.registry) {k : Cont}
    (hk : k.Fits env.registry) (answer : Option Value) :
    s.resume (env.grown r') k answer = s.resume env k answer := by
  cases k with
  | binaryRight op lhs =>
    unfold resume
    rw [show s.store.nameOf (env.grown r').registry = _ from h.nameOf ht]
  | readField owner field f => exact readField_grown h ht (hk f rfl) owner field _
  | receiver method args f => exact arguments_grown h ht (hk f rfl) _ _ args
  | argument target before after f => exact arguments_grown h ht (hk f rfl) target _ after
  | putValue owner field object f => exact writeField_grown h ht (hk f rfl) owner field object _
  | putStatic cls field f =>
    show s.proceed (lookup (env.grown r') f cls) _ = s.proceed (lookup env f cls) _
    rw [lookup_grown h (hk f rfl)]
    exact proceed_congr fun c hc => putStatic_grown h (h.sound.has_of_lookup hc) field _
  | _ => rfl

/-- A step does the same in a registry that has grown. -/
theorem step_grown (h : env.registry.Grows r') (hf : s.Fits env) (ht : s.store.Typed env.registry) :
    s.step (env.grown r') = s.step env := by
  obtain ⟨hc, hK, -⟩ := hf
  unfold step
  cases hcontrol : s.control with
  | eval f e =>
    rw [hcontrol] at hc
    exact eval_grown h ht hc e
  | exec f =>
    rw [hcontrol] at hc
    exact exec_grown h ht hc
  | answer v =>
    cases hstack : s.stack with
    | nil => rfl
    | cons k K =>
      have hk : k.Fits env.registry := hK k (hstack ▸ List.mem_cons_self)
      exact resume_grown (s := { s with stack := K }) h ht hk v
  | raise e => rfl
  | init c =>
    rw [hcontrol] at hc
    exact beginInit_grown h hc
  | statics c slot rest => rfl
  | create c args => rfl
  | enter e declaring receiver args => exact enterMethod_grown h ht e declaring receiver args
  | host e args p => exact hostStep_grown h ht e args p

/-- So does a run. -/
theorem finish_grown (h : env.registry.Grows r') : ∀ (fuel : Nat) {s : State}, s.Fits env →
    s.store.Typed env.registry → s.finish (env.grown r') fuel = s.finish env fuel := by
  intro fuel
  induction fuel with
  | zero => exact fun _ _ => rfl
  | succ fuel ih =>
    intro s hf ht
    have hstep := step_transition env s
    unfold finish
    rw [step_grown h hf ht, ih (hstep.fits h.sound hf) (hstep.typed h.sound hf ht)]

end Steps

end State

/-- An operation that names its class from an opened scope starts in the same state. -/
theorem Operation.start_grown {env : Env} {r' : Registry} (h : env.registry.Grows r') {op : Operation}
    (hop : ∀ u, op.unit? = some u → u < env.registry.units.size) {σ : Store}
    (ht : σ.Typed env.registry) : op.start (env.grown r') σ = op.start env σ := by
  have hlookup {u : UnitId} (hu : op.unit? = some u) (cls : String) :
      (env.grown r').registry.lookup u cls = env.registry.lookup u cls := h.lookup (hop u hu) cls
  unfold Operation.start
  cases op with
  | invokeVirtual receiver method args =>
    exact State.invokeVirtual_grown (s := .idle σ) h ht receiver method args
  | invokeStatic u cls method args =>
    simp only [hlookup rfl]
    exact State.proceed_congr fun c hc =>
      State.invokeStatic_grown h (h.sound.has_of_lookup hc) method args
  | getStatic u cls field =>
    simp only [hlookup rfl]
    exact State.proceed_congr fun c hc => State.getStatic_grown h (h.sound.has_of_lookup hc) field
  | putStatic u cls field v =>
    simp only [hlookup rfl]
    exact State.proceed_congr fun c hc => State.putStatic_grown h (h.sound.has_of_lookup hc) field v
  | construct u cls args => simp only [hlookup rfl]
  | prepare u cls => simp only [hlookup rfl]
  | eval u cls e => simp only [hlookup rfl]
  | run u cls body locals => simp only [hlookup rfl]

/-! ## Loading -/

namespace Registry

section Load

variable {r : Registry} {u : UnitId} {sources : List ClassDecl} {natives : Bindings}

/-- Registering a unit leaves the registry as it was, or registers the sources in some order. -/
theorem registerUnit_cases (hwf : r.Sound) : (r.registerUnit u sources natives).2 = r ∨
    ∃ order cs, Registered r u natives order cs (r.registerUnit u sources natives).2 := by
  rcases h : r.registerUnit u sources natives with ⟨e | cs, r'⟩
  · exact .inl (registerUnit_error hwf h)
  · obtain ⟨order, -, hr⟩ := registerBatch_registered hwf (registerUnit_ok h)
    exact .inr ⟨order, cs, hr⟩

theorem Scoped.registerUnit (hs : r.Scoped) (hwf : r.Sound) (hu : u < r.units.size) :
    (r.registerUnit u sources natives).2.Scoped := by
  rcases registerUnit_cases hwf with heq | ⟨order, cs, hr⟩
  · rw [heq]
    exact hs
  · constructor
    · rw [hr.units]
      exact hs.system
    · intro c hc
      rw [hr.units]
      by_cases hscope : c.scope = u
      · rw [hscope]
        exact hu
      · -- a class of another scope was there before
        have hfind := hr.wf.find?_iff.2 ⟨hc, rfl, rfl⟩
        rw [hr.others _ _ fun h => absurd h hscope] at hfind
        exact hs.classes c (hwf.find?_iff.1 hfind).1

theorem Scoped.openUnit (hs : r.Scoped) (name : String) : (r.openUnit name).2.Scoped := by
  have hsize : (r.openUnit name).2.units.size = r.units.size + 1 := Array.size_push _
  constructor
  · rw [hsize]
    exact Nat.lt_succ_of_lt hs.system
  · intro c hc
    have hlt : c.scope < r.units.size := hs.classes c hc
    rw [hsize]
    exact Nat.lt_succ_of_lt hlt

/-- No other scope sees the classes that are registered in a scope. -/
theorem get?_registerUnit (hwf : r.Sound) {v : UnitId} (hv : v ≠ u) (hu : systemUnit ≠ u) (n : String) :
    (r.registerUnit u sources natives).2.get? v n = r.get? v n := by
  rcases registerUnit_cases hwf with heq | ⟨order, cs, hr⟩
  · rw [heq]
  · exact hr.get?_eq (fun h => absurd h hv) fun h => absurd h hu

end Load

end Registry

/-- The registry of a machine grows when a unit is loaded. -/
theorem Machine.load_grows {m : Machine} (hwf : m.registry.Sound) (hs : m.registry.Scoped)
    (unit : CompilationUnit) : m.registry.Grows (m.load unit).2.registry := by
  refine ⟨hwf, hs, (Machine.load_extends hwf unit).2, fun u hu n => ?_⟩
  have hopen : (m.registry.openUnit unit.name).2.Sound := hwf.openUnit unit.name
  exact Registry.get?_registerUnit hopen (ne_of_lt hu) (ne_of_lt hs.system) n

theorem Machine.load_scoped {m : Machine} (hwf : m.registry.Sound) (hs : m.registry.Scoped)
    (unit : CompilationUnit) : (m.load unit).2.registry.Scoped := by
  have hopen : (m.registry.openUnit unit.name).2.Sound := hwf.openUnit unit.name
  refine (hs.openUnit unit.name).registerUnit hopen ?_
  show m.registry.units.size < (m.registry.units.push unit.name).size
  rw [Array.size_push]
  exact Nat.lt_succ_self _

theorem Registry.empty_scoped : Registry.empty.Scoped := by
  constructor
  · decide
  · intro c hc
    simp [Registry.Has, Registry.class?, Registry.empty] at hc

theorem Library.registry_scoped : Library.registry.Scoped :=
  Registry.empty_scoped.registerUnit Registry.empty_wf Registry.empty_scoped.system

/-- Every class of a machine is in a scope that was opened for a unit, or among the bundled ones. -/
theorem History.scoped {allowed : Act → Prop} {m : Machine} {past : List State}
    (h : History allowed m past) : m.registry.Scoped := by
  induction h with
  | boot => exact Library.registry_scoped
  | act h _ hd ih =>
    cases hd with
    | load => exact Machine.load_scoped h.sound ih _
    | perform hp =>
      rw [(Machine.perform_some hp).2]
      exact ih
    | _ => exact ih

/-! ## Main statement -/

/-- Loading a unit and then performing an operation that names its class from a unit loaded before, or an
object, comes to the same as performing it first: the same result, the same machine in the end, and the
same answer of loading. This is so whether or not the unit can be loaded. -/
theorem load_perform_comm {m : Machine} {past : List State} (h : History (fun _ => True) m past)
    (unit : CompilationUnit) {op : Operation}
    (hop : ∀ u, op.unit? = some u → u < m.registry.units.size) (fuel : Nat) :
    (m.load unit).2.perform fuel op = (m.perform fuel op).map (fun x => (x.1, (x.2.load unit).2)) ∧
    ∀ r m', m.perform fuel op = some (r, m') → (m'.load unit).1 = (m.load unit).1 := by
  have hgrows := Machine.load_grows h.sound h.scoped unit
  obtain ⟨hfits, htyped⟩ := typed_invariant.between h
  constructor
  · have hstart : op.start (m.load unit).2.env m.store = op.start m.env m.store :=
      Operation.start_grown hgrows hop htyped
    have hfinish : (op.start m.env m.store).finish (m.load unit).2.env fuel =
        (op.start m.env m.store).finish m.env fuel := by
      have hs := start_starts m.env op m.store
      refine State.finish_grown hgrows fuel (hs.fits h.sound hfits) ?_
      rw [hs.store]
      exact htyped
    have hload : (m.load unit).2.perform fuel op =
        ((op.start (m.load unit).2.env m.store).finish (m.load unit).2.env fuel).map
          fun x => (x.1, { (m.load unit).2 with store := x.2 }) := rfl
    have hplain : m.perform fuel op = ((op.start m.env m.store).finish m.env fuel).map
          fun x => (x.1, { m with store := x.2 }) := rfl
    rw [hload, hplain, hstart, hfinish, Option.map_map]
    rfl
  · intro r m' hp
    rw [(Machine.perform_some hp).2]
    rfl

/-- A class that answers a number. -/
def versioned (n : Int32) : CompilationUnit :=
  { name := "versioned"
    classes := [{ name := "Version",
                  methods := [.static "number" [] .int { code := [.giveBack (some (.ofInt n))] }] }] }

/-- A second unit with a class of the same name changes nothing for the first. -/
theorem load_perform_comm_versions : ∃ m past, History (fun _ => True) m past ∧ ∃ m',
    m.perform 40 (.invokeStatic 1 "Version" "number" []) = some (.ok (some (.int 1)), m') ∧
    (m.load (versioned 2)).2.perform 40 (.invokeStatic 1 "Version" "number" []) =
      some (.ok (some (.int 1)), (m'.load (versioned 2)).2) := by
  let m : Machine := (Machine.load (.boot {} {}) (versioned 1)).2
  have hboot : History (fun _ => True) (.boot {} {}) [] := .boot
  have h : History (fun _ => True) m ([] ++ []) := hboot.act trivial .load
  have hend : (m.moment (.invokeStatic 1 "Version" "number" []) 40).outcome? =
      some (.ok (some (.int 1))) := by decide +kernel
  have hp := Machine.perform_of_outcome? le_rfl hend
  have hop : ∀ u, (Operation.invokeStatic 1 "Version" "number" []).unit? = some u →
      u < m.registry.units.size := by
    intro u hu
    cases hu
    decide +kernel
  refine ⟨m, _, h, _, hp, ?_⟩
  rw [(load_perform_comm h (versioned 2) hop 40).1, hp]
  rfl

end ObjectMachine
