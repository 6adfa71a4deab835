/-
Units are isolated at run time. Code names classes in the scope of the class that declares it, and
from there it reaches that scope and the bundled one; the parents of a class are in its own scope or
bundled, too. So the only other way into a unit is an object of one of its classes. A run that is not
begun in a unit, and can reach no object of it, says nothing of its classes in any state (`Avoids`).
It then leaves their static areas alone, and no object of them is made.
-/
import ObjectMachine.Proofs.Exec.Contents
import ObjectMachine.Proofs.Exec.Loading
import ObjectMachine.Proofs.Init.BeforeUse
import ObjectMachine.Proofs.Library.Bundled

namespace ObjectMachine

/-! ## Definitions -/

/-- The classes of a continuation are outside the unit. -/
def Cont.Avoids (v : UnitId) : Cont → Prop
  | .initializing c | .ownStatics c | .staticValue c _ _ _ => c.scope ≠ v
  | .thenCreate c _ | .thenInvoke _ c _ | .thenRead c _ _ | .thenWrite c _ _ _ => c.scope ≠ v
  | k => ∀ f, k.frame? = some f → f.cls.scope ≠ v

/-- The classes of a control are outside the unit. -/
def Control.Avoids (r : Registry) (v : UnitId) : Control → Prop
  | .eval f _ | .exec f => f.cls.scope ≠ v
  | .init c | .statics c _ _ | .create c _ | .enter _ c _ _ => c.scope ≠ v
  | .host e _ _ => ∃ c, r.class? e.declaring = some c ∧ c.scope ≠ v
  | .answer _ | .raise _ => True

/-- The objects that a run can reach are instances of classes outside the unit. -/
def Store.Avoids (r : Registry) (R : Realm) (v : UnitId) (σ : Store) : Prop :=
  ∀ ref, R.handle ref → ∀ c, σ.classOf? r ref = some c → c.scope ≠ v

/-- A state has nothing to do with the unit. -/
structure State.Avoids (env : Env) (R : Realm) (v : UnitId) (s : State) : Prop where
  control : s.control.Avoids env.registry v
  stack : ∀ k ∈ s.stack, k.Avoids v
  store : s.store.Avoids env.registry R v

/-! ## Parts -/

section Parts

variable {env : Env} {v : UnitId} {f : Frame} {c : Class} {k : Cont} {K K' : List Cont} {control : Control}

theorem Cont.IsCode.avoids (hk : k.IsCode f) : k.Avoids v ↔ f.cls.scope ≠ v := by
  obtain ⟨hf, ha⟩ := hk
  cases k <;> simp_all [Cont.Avoids, Cont.frame?]

theorem Cont.IsOperand.avoids (hk : k.IsOperand) : k.Avoids v := by
  cases k with
  | unary op => intro f hf; cases hf
  | binaryRight op lhs => intro f hf; cases hf
  | _ => exact hk.elim

theorem Runs.avoids {r : Registry} (h : Runs f control K K') (hc : control.Avoids r v)
    (hK : ∀ k ∈ K, k.Avoids v) : f.cls.scope ≠ v ∧ ∀ k ∈ K', k.Avoids v := by
  cases h with
  | eval hs => exact ⟨hs.cls ▸ hc, hK⟩
  | exec hs => exact ⟨hs.cls ▸ hc, hK⟩
  | resumed hk hs =>
    obtain ⟨hg, hK⟩ := List.forall_mem_cons.1 hK
    exact ⟨hs.cls ▸ hk.avoids.1 hg, hK⟩

variable (hwf : env.registry.Sound) (hv : systemUnit ≠ v)

include hwf hv

/-- A name does not lead into another unit. -/
theorem Registry.lookup_avoids {u : UnitId} (hu : u ≠ v) {name : String}
    (h : env.registry.lookup u name = .ok c) : c.scope ≠ v := by
  rcases (hwf.lookup_ok h).2.2 with heq | heq
  · rw [heq]; exact hu
  · rw [heq]; exact hv

/-- Neither do the ancestors of a class. -/
theorem Registry.lineage_avoids {d : Class} (hc : env.registry.Has c) (hd : env.registry.Has d)
    (h : d.id ∈ c.lineage) (hscope : c.scope ≠ v) : d.scope ≠ v := by
  rcases hwf.lineage_scope hc hd h with heq | heq
  · rw [heq]; exact hscope
  · rw [heq]; exact hv

/-- Nor do the methods of its table. -/
theorem Registry.entry_avoids {e : Method} {d : Class} (hc : env.registry.Has c) (he : e ∈ c.methods.entries)
    (hd : env.registry.class? e.declaring = some d) (hscope : c.scope ≠ v) : d.scope ≠ v := by
  obtain ⟨owner, ho, hhas, hm⟩ := hwf.entry_declaring hc he
  rw [hd] at ho
  cases ho
  exact Registry.lineage_avoids hwf hv hc hhas hm hscope

theorem Access.avoids {u : UnitId} (hu : u ≠ v) (h : Access env u k c) : c.scope ≠ v ∧ k.Avoids v := by
  cases h with
  | create hl =>
    have hc := Registry.lookup_avoids hwf hv hu hl
    exact ⟨hc, hc⟩
  | invoke hl hsel _ hd =>
    have hc := Registry.entry_avoids hwf hv (hwf.has_of_lookup hl) (Class.select_wants hsel).2 hd
      (Registry.lookup_avoids hwf hv hu hl)
    exact ⟨hc, hc⟩
  | read hl ho =>
    obtain ⟨hhas, hm, -⟩ := hwf.findStatic?_some ho
    have hc := Registry.lineage_avoids hwf hv (hwf.has_of_lookup hl) hhas hm
      (Registry.lookup_avoids hwf hv hu hl)
    exact ⟨hc, hc⟩
  | write hl ho =>
    obtain ⟨hhas, hm, -⟩ := hwf.findStatic?_some ho
    have hc := Registry.lineage_avoids hwf hv (hwf.has_of_lookup hl) hhas hm
      (Registry.lookup_avoids hwf hv hu hl)
    exact ⟨hc, hc⟩

/-- A method of a receiver that a run can reach. -/
theorem SelectsVirtual.avoids {σ : Store} {R : Realm} {ref : Handle} {args : List Value} {e : Method}
    (h : SelectsVirtual env σ ref args e c) (hσ : σ.Avoids env.registry R v) (hr : R.handle ref) :
    c.scope ≠ v := by
  obtain ⟨own, name, hclass, hsel⟩ := h.own
  obtain ⟨o, -, hown⟩ := Option.bind_eq_some_iff.1 hclass
  exact Registry.entry_avoids hwf hv (hwf.has_of_class? hown) (Class.select_wants hsel).2 h.registered
    (hσ ref hr own hclass)

theorem Registry.parent_avoids {p : Class} (hc : env.registry.Has c) (hp : env.registry.parent? c = some p)
    (hscope : c.scope ≠ v) : p.scope ≠ v := by
  refine Registry.lineage_avoids hwf hv hc (hwf.parent_before hc hp).1 ?_ hscope
  rw [hwf.lineage_of_parent hc hp]
  exact List.mem_cons_of_mem _ List.mem_cons_self

theorem SelectsSuper.avoids {ref : Handle} {args : List Value} {e : Method} (h : SelectsSuper env f ref args e c)
    (hf : env.registry.Has f.cls) (hscope : f.cls.scope ≠ v) : c.scope ≠ v := by
  obtain ⟨p, name, hp, hsel⟩ := h.above
  exact Registry.entry_avoids hwf hv (hwf.parent_before hf hp).1 (Class.select_wants hsel).2 h.registered
    (Registry.parent_avoids hwf hv hf hp hscope)

end Parts

/-! ## Stores -/

section Stores

variable {r : Registry} {R : Realm} {v : UnitId} {σ σ' : Store}

/-- Only the objects count. -/
theorem Store.Avoids.congr (h : σ.Avoids r R v) (hobj : σ'.heap.objects = σ.heap.objects) :
    σ'.Avoids r R v := by
  intro ref hr c hc
  refine h ref hr c ?_
  unfold Store.classOf? Heap.get? at hc ⊢
  rw [← hobj]
  exact hc

/-- A new object is an instance of a class outside the unit. -/
theorem Store.Avoids.add (h : σ.Avoids r R v) {c : Class} (hc : r.Has c) (hscope : c.scope ≠ v)
    {heap : Heap} (hobj : heap.objects = σ.heap.objects) :
    Store.Avoids r R v { σ with heap := heap.add c } := by
  intro ref hr d hd
  obtain ⟨o, ho, hclass⟩ := Store.classOf?_some hd
  simp only [Heap.get?_add] at ho
  split at ho
  · cases ho
    rw [hc] at hclass
    cases hclass
    exact hscope
  · refine h ref hr d ?_
    unfold Heap.get? at ho
    rw [hobj] at ho
    exact Option.bind_eq_some_iff.2 ⟨o, ho, hclass⟩

theorem Store.Avoids.setCell (h : σ.Avoids r R v) (ref : Handle) (slot : Nat) (w : Value) :
    Store.Avoids r R v { σ with heap := σ.heap.setCell ref slot w } := by
  intro other hr d hd
  obtain ⟨o, ho, hclass⟩ := Store.classOf?_some hd
  rw [Heap.get?_setCell] at ho
  split at ho
  · obtain ⟨o', ho', rfl⟩ := Option.map_eq_some_iff.1 ho
    exact h other hr d (Option.bind_eq_some_iff.2 ⟨o', ho', hclass⟩)
  · exact h other hr d (Option.bind_eq_some_iff.2 ⟨o, ho, hclass⟩)

end Stores

/-! ## Steps -/

section Steps

variable {env : Env} {R : Realm} {v : UnitId} {s s' : State}

/-- A step from a state outside the unit leads to a state outside it. The receiver of a virtual call
is outside because the state after the call holds it, and holds only what the run can reach. -/
theorem Transition.avoids (hwf : env.registry.Sound) (hv : systemUnit ≠ v) (h : Transition env s s')
    (hfit : s.Fits env) (hin : s'.In R) (hs : s.Avoids env R v) : s'.Avoids env R v := by
  have hin := hin.control
  obtain ⟨hcf, hKf, -⟩ := hfit
  obtain ⟨hc, hK, hσ⟩ := hs
  cases h with
  -- the code of a frame
  | go h =>
    obtain ⟨hf, hK⟩ := h.avoids hc hK
    exact ⟨hf, hK, hσ⟩
  | answer h | fail h | superOverflow h => exact ⟨trivial, (h.avoids hc hK).2, hσ⟩
  | evaluate h hk =>
    obtain ⟨hf, hK⟩ := h.avoids hc hK
    refine ⟨hf, List.forall_mem_cons.2 ⟨?_, hK⟩, hσ⟩
    rcases hk with hk | hk
    · exact hk.avoids
    · exact hk.avoids.2 hf
  | access h hk =>
    obtain ⟨hf, hK⟩ := h.avoids hc hK
    obtain ⟨hc, hk⟩ := hk.avoids hwf hv hf
    exact ⟨hc, List.forall_mem_cons.2 ⟨hk, hK⟩, hσ⟩
  | accessWrite hk =>
    obtain ⟨hf, hK⟩ := List.forall_mem_cons.1 hK
    obtain ⟨hc, hk⟩ := hk.avoids hwf hv (hf _ rfl)
    exact ⟨hc, List.forall_mem_cons.2 ⟨hk, List.forall_mem_cons.2 ⟨hf, hK⟩⟩, hσ⟩
  | failWrite =>
    obtain ⟨hf, hK⟩ := List.forall_mem_cons.1 hK
    exact ⟨trivial, List.forall_mem_cons.2 ⟨hf, hK⟩, hσ⟩
  | callVirtual h hsel => exact ⟨hsel.avoids hwf hv hσ (hin.1 _ rfl), (h.avoids hc hK).2, hσ⟩
  | callSuper h hsel =>
    obtain ⟨hf, hK⟩ := h.avoids hc hK
    exact ⟨hsel.avoids hwf hv (h.fits hcf hKf).1 hf, hK, hσ⟩
  | enterSuper h _ hp =>
    obtain ⟨hf, hK⟩ := h.avoids hc hK
    have hk : (Cont.superDone _).Avoids v := fun g hg => by cases hg; exact hf
    exact ⟨Registry.parent_avoids hwf hv (h.fits hcf hKf).1 hp hf, List.forall_mem_cons.2 ⟨hk, hK⟩, hσ⟩
  | putField =>
    exact ⟨hK _ List.mem_cons_self _ rfl, (List.forall_mem_cons.1 hK).2, hσ.setCell _ _ _⟩
  -- operands, answers and errors that pass on
  | operate | operateFail | give | giveFail | constructed | hostReturned | staticFail | blockDone
  | thenRead | thenReadFail | thenWriteFail | unwindActivation | unwind =>
    exact ⟨trivial, (List.forall_mem_cons.1 hK).2, hσ⟩
  | superReturned => exact ⟨hK _ List.mem_cons_self _ rfl, (List.forall_mem_cons.1 hK).2, hσ⟩
  | enterOverflow | hostReply | hostFail | createFail | initReady | initFailed | noBlock =>
    exact ⟨trivial, hK, hσ⟩
  | ended => exact ⟨hc, hK, hσ⟩
  -- bodies and host functions
  | enterBody => exact ⟨hc, List.forall_mem_cons.2 ⟨nofun, hK⟩, hσ⟩
  | enterHost => exact ⟨⟨_, hcf.1, hc⟩, List.forall_mem_cons.2 ⟨nofun, hK⟩, hσ⟩
  | hostService _ hobj => exact ⟨hc, hK, hσ.congr hobj⟩
  -- new objects
  | create _ hobj => exact ⟨hc, List.forall_mem_cons.2 ⟨nofun, hK⟩, hσ.add hcf hc hobj⟩
  | createOverflow _ hobj => exact ⟨trivial, hK, hσ.add hcf hc hobj⟩
  -- static initialization
  | initParent _ hp =>
    exact ⟨Registry.parent_avoids hwf hv hcf hp hc,
      List.forall_mem_cons.2 ⟨hc, List.forall_mem_cons.2 ⟨hc, hK⟩⟩, hσ.congr rfl⟩
  | initRoot => exact ⟨hc, List.forall_mem_cons.2 ⟨hc, hK⟩, hσ.congr rfl⟩
  | parentDone =>
    obtain ⟨hc, hK⟩ := List.forall_mem_cons.1 hK
    exact ⟨hc, hK, hσ⟩
  | skipStatic => exact ⟨hc, hK, hσ⟩
  | evalStatic => exact ⟨hc, List.forall_mem_cons.2 ⟨hc, hK⟩, hσ⟩
  | storeStatic =>
    obtain ⟨hc, hK⟩ := List.forall_mem_cons.1 hK
    exact ⟨hc, hK, hσ.congr rfl⟩
  | enterBlock => exact ⟨hc, List.forall_mem_cons.2 ⟨nofun, hK⟩, hσ⟩
  | initDone | thenWrite | unwindInit => exact ⟨trivial, (List.forall_mem_cons.1 hK).2, hσ.congr rfl⟩
  -- accesses to an initialized class
  | thenCreate =>
    obtain ⟨hc, hK⟩ := List.forall_mem_cons.1 hK
    exact ⟨hc, hK, hσ⟩
  | thenInvoke =>
    obtain ⟨hc, hK⟩ := List.forall_mem_cons.1 hK
    exact ⟨hc, hK, hσ⟩

/-- A step from a state outside the unit leaves the areas of its classes alone. -/
theorem Transition.area (h : Transition env s s') (hfit : s.Fits env) (hs : s.Avoids env R v) {c : Class}
    (hc : env.registry.Has c) (hscope : c.scope = v) :
    s'.store.statics.area c = s.store.statics.area c := by
  -- a class whose area changes is one that the state speaks of
  have hother : ∀ {σ : Statics} {d : Class} {a : StaticArea}, env.registry.Has d → d.scope ≠ v →
      (σ.setArea d a).area c = σ.area c := by
    intro σ d a hd hdv
    refine σ.area_setArea_of_ne a fun hid => hdv ?_
    rw [← hc.unique hd hid]
    exact hscope
  obtain ⟨hcf, hKf, -⟩ := hfit
  obtain ⟨hctl, hK, -⟩ := hs
  cases h with
  | hostService hst => rw [hst]
  | initParent | initRoot => exact hother hcf hctl
  | storeStatic => exact hother (List.forall_mem_cons.1 hKf).1.1 (List.forall_mem_cons.1 hK).1
  | initDone | thenWrite | unwindInit =>
    exact hother (List.forall_mem_cons.1 hKf).1 (List.forall_mem_cons.1 hK).1
  | _ => rfl

end Steps

/-! ## Operations -/

theorem State.Accesses.avoids {env : Env} {R : Realm} {u v : UnitId} {σ : Store} {t : State}
    (hwf : env.registry.Sound) (hv : systemUnit ≠ v) (hu : u ≠ v) (hσ : σ.Avoids env.registry R v)
    (h : (State.idle σ).Accesses env u t) : t.Avoids env R v := by
  rcases h with ⟨e, -, rfl⟩ | ⟨k, c, hk, rfl⟩
  · exact ⟨trivial, by simp [State.raise, State.goto], hσ⟩
  · obtain ⟨hc, hk⟩ := hk.avoids hwf hv hu
    exact ⟨hc, by simpa [State.await] using hk, hσ⟩

/-- An operation that is not begun in the unit starts outside it. -/
theorem Operation.start_avoids {env : Env} {R : Realm} {v : UnitId} {op : Operation} {σ : Store}
    (hwf : env.registry.Sound) (hv : systemUnit ≠ v) (hu : op.unit? ≠ some v) (hin : (op.start env σ).In R)
    (hσ : σ.Avoids env.registry R v) : (op.start env σ).Avoids env R v := by
  have hraise (e : Failure) : ((State.idle σ).raise e).Avoids env R v := ⟨trivial, by simp [State.raise, State.goto], hσ⟩
  have hlookup {u : UnitId} {cls : String} {next : Class → State} (hu : u ≠ v)
      (hnext : ∀ c, env.registry.lookup u cls = .ok c → c.scope ≠ v → (next c).Avoids env R v) :
      ((State.idle σ).proceed (env.registry.lookup u cls) next).Avoids env R v := by
    cases hc : env.registry.lookup u cls with
    | error e => exact hraise e
    | ok c => exact hnext c hc (Registry.lookup_avoids hwf hv hu hc)
  have hne {u : UnitId} (h : some u ≠ some v) : u ≠ v := fun heq => h (congrArg some heq)
  cases op with
  | construct u cls args =>
    exact hlookup (hne hu) fun c hc _ => (State.construct_accesses hc args).avoids hwf hv (hne hu) hσ
  | invokeStatic u cls method args =>
    exact hlookup (hne hu) fun c hc _ => (State.invokeStatic_accesses hc method args).avoids hwf hv (hne hu) hσ
  | getStatic u cls field =>
    exact hlookup (hne hu) fun c hc _ => (State.getStatic_accesses hc field).avoids hwf hv (hne hu) hσ
  | putStatic u cls field w =>
    exact hlookup (hne hu) fun c hc _ => (State.putStatic_accesses hc field w).avoids hwf hv (hne hu) hσ
  | prepare u cls => exact hlookup (hne hu) fun c _ hscope => ⟨hscope, by simp [State.goto], hσ⟩
  | eval u cls e => exact hlookup (hne hu) fun c _ hscope => ⟨hscope, by simp [State.goto], hσ⟩
  | run u cls body locals => exact hlookup (hne hu) fun c _ hscope => ⟨hscope, by simp [State.goto], hσ⟩
  | invokeVirtual receiver method args =>
    change ((State.idle σ).invokeVirtual env receiver method args).In R at hin
    show ((State.idle σ).invokeVirtual env receiver method args).Avoids env R v
    rcases State.invokeVirtual_cases env (.idle σ) receiver method args with
      ⟨e, -, heq⟩ | ⟨ref, e, declaring, hsel, heq⟩
    · rw [heq]; exact hraise e
    · rw [heq] at hin ⊢
      exact ⟨hsel.avoids hwf hv hσ (hin.control.1 ref rfl), by simp [State.goto], hσ⟩

section Runs

variable {m : Machine} {past : List State} {R : Realm} {v : UnitId} {op : Operation}

/-- A run that is not begun in the unit, in a realm without objects of the unit, has nothing to do with
the unit at any moment. -/
theorem History.moment_avoids (h : History (fun _ => True) m past) (hv : systemUnit ≠ v)
    (hu : op.unit? ≠ some v) (hcov : R.Covers m.registry) (hop : op.In R m.env) (hσ : m.store.In R)
    (havoid : m.store.Avoids m.registry R v) (n : Nat) : (m.moment op n).Avoids m.env R v := by
  induction n with
  | zero => exact Operation.start_avoids h.sound hv hu (Operation.start_in hop hσ) havoid
  | succ n ih =>
    have hin := h.moment_in hcov trivial hop hσ (n + 1)
    rw [Machine.moment_succ] at hin ⊢
    exact (State.step_transition m.env _).avoids h.sound hv (fits_invariant.moment h trivial n) hin ih

/-- It leaves the areas of the classes of the unit alone. -/
theorem History.moment_area (h : History (fun _ => True) m past)
    (havoid : ∀ n, (m.moment op n).Avoids m.env R v) {c : Class} (hc : m.registry.Has c) (hscope : c.scope = v)
    (n : Nat) : (m.moment op n).store.statics.area c = m.store.statics.area c := by
  induction n with
  | zero => rw [m.start_store op]
  | succ n ih =>
    rw [Machine.moment_succ, ← ih]
    exact (State.step_transition m.env _).area (fits_invariant.moment h trivial n) (havoid n) hc hscope

end Runs

/-! ## Code -/

section Code

variable {env : Env} {r : Registry} {R : Realm} {v : UnitId} {k : Cont} {control : Control} {f : Frame}
  {s : State} {id : ClassId}

theorem Cont.Avoids.frame (h : k.Avoids v) (hf : k.frame? = some f) : f.cls.scope ≠ v := by
  cases k <;> first | exact h f hf | cases hf

theorem Cont.In.frame (h : k.In R) (hf : k.frame? = some f) : f.In R := by
  cases k with
  | branch | loop | putObject => cases hf; exact h.1
  | argument => cases hf; exact h.2.2
  | putValue => cases hf; exact h.2.1
  | _ => first | (cases hf; exact h) | cases hf

theorem State.Avoids.frames (h : s.Avoids env R v) : ∀ f ∈ s.frames, f.cls.scope ≠ v := by
  refine State.forall_frames (fun f hf => ?_) fun k hk f hf => (h.stack k hk).frame hf
  have hc := h.control
  cases hcontrol : s.control <;> rw [hcontrol] at hf hc <;> cases hf <;> exact hc

theorem State.In.frames (h : s.In R) : ∀ f ∈ s.frames, f.In R := by
  refine State.forall_frames (fun f hf => ?_) fun k hk f hf => (h.stack k hk).frame hf
  have hc := h.control
  cases hcontrol : s.control <;> rw [hcontrol] at hf hc <;> cases hf <;> exact hc

theorem Cont.Avoids.code (h : k.Avoids v) (hfit : k.Fits r) (hid : k.code? = some id) :
    ∃ c, r.class? id = some c ∧ c.scope ≠ v := by
  have hframe (hid : k.frame?.map (·.cls.id) = some id) : ∃ c, r.class? id = some c ∧ c.scope ≠ v := by
    obtain ⟨f, hf, rfl⟩ := Option.map_eq_some_iff.1 hid
    exact ⟨f.cls, hfit.frame hf, h.frame hf⟩
  cases k with
  | initializing c | ownStatics c => cases hid; exact ⟨c, hfit, h⟩
  | staticValue c => cases hid; exact ⟨c, hfit.1, h⟩
  | _ => exact hframe hid

theorem Control.Avoids.code (h : control.Avoids r v) (hwf : r.Sound) (hfit : control.Fits r)
    (hid : control.code? = some id) : ∃ c, r.class? id = some c ∧ c.scope ≠ v := by
  cases control with
  | eval f | exec f => cases hid; exact ⟨f.cls, hfit, h⟩
  | create c => cases hid; exact ⟨c, hfit, h⟩
  | statics c => cases hid; exact ⟨c, hfit.1, h⟩
  | enter e c => cases hid; exact ⟨c, hwf.has_of_class? hfit.1, h⟩
  | host e => cases hid; exact h
  | init | answer | raise => cases hid

/-- All active code is code of classes outside the unit. -/
theorem State.Avoids.code (h : s.Avoids env R v) (hwf : env.registry.Sound) (hfit : s.Fits env) :
    ∀ id ∈ s.code, ∃ c, env.registry.class? id = some c ∧ c.scope ≠ v := by
  intro id hid
  rcases List.mem_append.1 hid with hid | hid
  · exact h.control.code hwf hfit.control (Option.mem_toList.1 hid)
  · obtain ⟨k, hk, hid⟩ := List.mem_filterMap.1 hid
    exact (h.stack k hk).code (hfit.stack k hk) hid

end Code

/-! ## Where code comes from -/

/-- The statement stands somewhere in the code. -/
inductive Stmt.PartOf (code : List Stmt) : Stmt → Prop where
  | own {st : Stmt} : st ∈ code → PartOf code st
  | branch {cond : Expr} {yes no : List Stmt} {st : Stmt} :
      PartOf code (.branch cond yes no) → st ∈ yes ++ no → PartOf code st
  | loop {cond : Expr} {body : List Stmt} {st : Stmt} :
      PartOf code (.loop cond body) → st ∈ body → PartOf code st

/-- The class declares a body in which the statement stands. -/
def ClassDecl.Declares (d : ClassDecl) (st : Stmt) : Prop := ∃ body ∈ d.bodies, st.PartOf body.code

/-- The code that an operation brings with it. -/
def Operation.code : Operation → List Stmt
  | .run _ _ body _ => body.code
  | _ => []

/-- The values that an operation brings with it. -/
def Operation.values : Operation → List Value
  | .construct _ _ args | .invokeStatic _ _ _ args => args
  | .invokeVirtual receiver _ args => receiver :: args
  | .putStatic _ _ _ w => [w]
  | .run _ _ _ locals => locals
  | _ => []

/-- What a run may come upon: the given objects, and those that are made from now on; and as code of a
class what the class declares, and what the operation brings with it. -/
def Machine.realm (m : Machine) (op : Operation) (given : Handle → Prop) : Realm :=
  ⟨fun ref => given ref ∨ m.store.heap.allocated ≤ ref.index,
    fun c st => c.source.Declares st ∨ st.PartOf op.code⟩

/-- The given objects are all that exist for a run: the operation brings no others with it, static cells
hold no others, and neither these objects nor the host functions lead to others. The heap has room for
more, since it keeps the objects that nothing refers to any more. -/
structure Machine.Encloses (m : Machine) (op : Operation) (given : Handle → Prop) : Prop where
  values : ∀ w ∈ op.values, ∀ ref ∈ w.handles, given ref
  statics : ∀ ref ∈ m.store.statics.handles, given ref
  cells : ∀ ref, given ref → ∀ other ∈ m.store.heap.references ref, given other
  hosts : ∀ e, m.registry.Lists e → ∀ f, e.impl = .native f → f.Keeps (m.realm op given)

section Given

variable {m : Machine} {op : Operation} {given : Handle → Prop}

/-- Nothing leads out of all the objects that there ever are. -/
theorem Machine.encloses_all (m : Machine) (op : Operation) : m.Encloses op fun _ => True :=
  ⟨fun _ _ _ _ => trivial, fun _ _ => trivial, fun _ _ _ _ => trivial,
    fun _ _ f _ view args _ _ => (f view args).in_of_all fun _ => Or.inl trivial⟩

/-- The bundled host functions answer no objects. -/
theorem Library.keeps {R : Realm} {f : HostFunction}
    (hf : f = println ∨ f = gc ∨ f = readClock ∨ f = readLong) : f.Keeps R := by
  intro view args _ _
  rcases hf with rfl | rfl | rfl | rfl
  · refine HostProgram.withArg_in fun ref => ?_
    simp only
    split
    · trivial
    · refine HostProgram.withArg_in fun v outcome => ?_
      cases outcome <;> trivial
  · exact fun _ => trivial
  · exact fun now => Value.in_of_handles rfl
  · refine HostProgram.withArg_in fun text? => ?_
    split
    · trivial
    · split
      · exact Value.in_of_handles rfl
      · trivial

theorem Machine.Encloses.covers (h : m.Encloses op given) : (m.realm op given).Covers m.registry where
  branch := by
    rintro c cond yes no (⟨body, hbody, hst⟩ | hst) st hm
    · exact .inl ⟨body, hbody, hst.branch hm⟩
    · exact .inr (hst.branch hm)
  loop := by
    rintro c cond body (⟨owner, howner, hst⟩ | hst) st hm
    · exact .inl ⟨owner, howner, hst.loop hm⟩
    · exact .inr (hst.loop hm)
  bodies := fun _ _ body hbody _ hm => .inl ⟨body, hbody, .own hm⟩
  hosts := h.hosts

theorem Machine.Encloses.operation (h : m.Encloses op given) : op.In (m.realm op given) m.env := by
  have hall : ∀ w ∈ op.values, w.In (m.realm op given) := fun w hw ref hr => .inl (h.values w hw ref hr)
  cases op with
  | construct | invokeStatic => exact hall
  | invokeVirtual => exact List.forall_mem_cons.1 hall
  | putStatic => exact hall _ List.mem_cons_self
  | run => exact ⟨hall, fun _ _ _ hm => .inr (.own hm)⟩
  | getStatic | prepare | eval => trivial

theorem Machine.Encloses.store (h : m.Encloses op given) : m.store.In (m.realm op given) where
  cells := by
    rintro ref (hr | hr) w hw other ho
    · exact .inl (h.cells ref hr other (List.mem_flatMap.2 ⟨w, hw, ho⟩))
    · obtain ⟨o, hget, -⟩ := Heap.mem_cells.1 hw
      exact absurd (Heap.lt_of_get? hget) (Nat.not_lt.2 hr)
  statics := by
    intro entry hm w hw ref hr
    exact .inl (h.statics ref (List.mem_flatMap.2 ⟨entry, hm, List.mem_flatMap.2 ⟨w, hw, hr⟩⟩))
  fresh := fun _ hr => .inr hr

/-- What is not made yet is no instance of anything. -/
theorem Machine.realm_avoids {v : UnitId}
    (hforeign : ∀ ref, given ref → ∀ c, m.store.classOf? m.registry ref = some c → c.scope ≠ v) :
    m.store.Avoids m.registry (m.realm op given) v := by
  rintro ref (hr | hr) c hc
  · exact hforeign ref hr c hc
  · obtain ⟨o, hget, -⟩ := Store.classOf?_some hc
    exact absurd (Heap.lt_of_get? hget) (Nat.not_lt.2 hr)

end Given

/-! ## Main statement -/

/-- Nothing has happened to the classes of a unit since the store was `σ`: their static cells and the
states of their initialization are the same, and no new object is an instance of one of them. -/
structure Store.Spares (r : Registry) (v : UnitId) (σ σ' : Store) : Prop where
  areas : ∀ c, r.Has c → c.scope = v → σ'.statics.area c = σ.statics.area c
  objects : ∀ ref c, σ.heap.allocated ≤ ref.index → σ'.classOf? r ref = some c → c.scope ≠ v

/-- The frame belongs to a registered class outside the unit. The statements that it holds are declared
by this class, or are among `code`; and names mean classes of the unit of this class, or bundled ones. -/
structure Frame.Outside (env : Env) (v : UnitId) (code : List Stmt) (f : Frame) : Prop where
  registered : env.registry.Has f.cls
  scope : f.cls.scope ≠ v
  declared : ∀ st ∈ f.code, f.cls.source.Declares st ∨ st.PartOf code
  names : ∀ name c, State.lookup env f name = .ok c → c.scope = f.cls.scope ∨ c.scope = systemUnit

/-- Units are isolated from each other. Take a unit to which none of the existing objects belongs, and an
operation that is begun in another unit or on an object. Whatever the classes of the other units do,
bundled ones included, and whatever class names they share with the unit: at every moment, and so when the
operation ends, with an answer or an error, the static areas of the classes of the unit are as before, no
object of them has been made, and none of the active code is theirs. All code runs for the class that
declares it, with the names of the unit of this class, even where it is inherited. -/
theorem unit_isolated {m : Machine} {past : List State} (h : History (fun _ => True) m past) {v : UnitId}
    (hv : v ≠ systemUnit) {op : Operation} (hu : op.unit? ≠ some v) {given : Handle → Prop}
    (hgiven : m.Encloses op given)
    (hforeign : ∀ ref, given ref → ∀ c, m.store.classOf? m.registry ref = some c → c.scope ≠ v) :
    (∀ fuel r m', m.perform fuel op = some (r, m') →
      m'.registry = m.registry ∧ m.store.Spares m.registry v m'.store) ∧
    ∀ n, m.store.Spares m.registry v (m.moment op n).store ∧
      (∀ id ∈ (m.moment op n).code, ∃ c, m.registry.class? id = some c ∧ c.scope ≠ v) ∧
      ∀ f ∈ (m.moment op n).frames, f.Outside m.env v op.code := by
  have havoid : ∀ n, (m.moment op n).Avoids m.env (m.realm op given) v :=
    h.moment_avoids hv.symm hu hgiven.covers hgiven.operation hgiven.store (Machine.realm_avoids hforeign)
  have hspares : ∀ n, m.store.Spares m.registry v (m.moment op n).store := fun n =>
    ⟨fun c hc hscope => h.moment_area havoid hc hscope n, fun ref c hr => (havoid n).store ref (.inr hr) c⟩
  refine ⟨fun fuel r m' hp => ?_, fun n => ⟨hspares n, ?_, fun f hf => ?_⟩⟩
  · rw [(Machine.perform_some hp).2]
    exact ⟨rfl, hspares fuel⟩
  · exact (havoid n).code h.sound (fits_invariant.moment h trivial n)
  · have hin := h.moment_in hgiven.covers trivial hgiven.operation hgiven.store n
    exact {
      registered := (fits_invariant.moment h trivial n).frames f hf
      scope := (havoid n).frames f hf
      declared := (hin.frames f hf).code
      names := fun name c hc => (h.sound.lookup_ok hc).2.2 }

/-- A class that counts for all its objects, and a class that inherits it. -/
def turnstile : CompilationUnit :=
  { name := "turnstile"
    classes := [
      { name := "Gate"
        statics := [⟨"passed", .int, some (.ofInt 0)⟩]
        methods := [.onInstance "pass" [] .int { code := [
          .putStatic "Gate" "passed" (.binary .add (.getStatic "Gate" "passed") (.ofInt 1)),
          .giveBack (some (.getStatic "Gate" "passed"))] }] },
      { name := "Exit", parent := some "Gate" }] }

/-- The unit is loaded twice, and an object of the first one was made and let go. A call on an object of
the second one counts there, and not in the first one. -/
theorem unit_isolated_turnstile : ∃ m past, History (fun _ => True) m past ∧
    (∃ c, m.store.classOf? m.registry ⟨0⟩ = some c ∧ c.scope = 1) ∧ ∃ m',
    m.perform 40 (.invokeVirtual (.object ⟨1⟩) "pass" []) = some (.ok (some (.int 1)), m') ∧
    m.store.Spares m.registry 1 m'.store := by
  -- the machine, with an object of either unit
  let loaded : Machine := (Machine.load (Machine.load (.boot {} {}) turnstile).2 turnstile).2
  have hboot : History (fun _ => True) (.boot {} {}) [] := .boot
  have hloaded : History (fun _ => True) loaded _ := (hboot.act trivial .load).act trivial .load
  let first : Machine := { loaded with store := (loaded.moment (.construct 1 "Exit" []) 20).store }
  have hmade : (loaded.moment (.construct 1 "Exit" []) 20).outcome? = some (.ok (some (.object ⟨0⟩))) := by
    decide +kernel
  have hfirst : History (fun _ => True) first _ :=
    hloaded.act trivial (.perform (Machine.perform_of_outcome? le_rfl hmade))
  let m : Machine := { first with store := (first.moment (.construct 2 "Exit" []) 20).store }
  have hmade : (first.moment (.construct 2 "Exit" []) 20).outcome? = some (.ok (some (.object ⟨1⟩))) := by
    decide +kernel
  have h : History (fun _ => True) m _ := hfirst.act trivial (.perform (Machine.perform_of_outcome? le_rfl hmade))
  -- the call, for which only the second object exists
  let op : Operation := .invokeVirtual (.object ⟨1⟩) "pass" []
  have hbundled : (Machine.boot {} {}).registry.WF fun _ natives => natives = Library.natives := Library.registry_wf
  have honce := (Machine.load_wf hbundled (fun _ _ => rfl) turnstile).1
  have hwf : m.registry.WF fun _ natives => natives = Library.natives :=
    (Machine.load_wf honce (fun _ _ => rfl) turnstile).1
  have hgiven : m.Encloses op (· = ⟨1⟩) := {
    values := by simp [op, Operation.values, Value.handles, Value.asObject?]
    statics := by
      have hnone : m.store.statics.handles = [] := by decide +kernel
      simp [hnone]
    cells := by
      rintro ref rfl
      have hnone : m.store.heap.references ⟨1⟩ = [] := by decide +kernel
      simp [hnone]
    hosts := fun e he f hf => Library.keeps (Library.listed_native hwf he hf) }
  have hforeign : ∀ ref, ref = ⟨1⟩ → ∀ c, m.store.classOf? m.registry ref = some c → c.scope ≠ 1 := by
    rintro ref rfl
    have hclass : ∀ c ∈ m.store.classOf? m.registry ⟨1⟩, c.scope ≠ 1 := by decide +kernel
    exact hclass
  have hother : ∃ c, m.store.classOf? m.registry ⟨0⟩ = some c ∧ c.scope = 1 :=
    Option.map_eq_some_iff.1 (show (m.store.classOf? m.registry ⟨0⟩).map (·.scope) = some 1 by decide +kernel)
  have hend : (m.moment op 40).outcome? = some (.ok (some (.int 1))) := by decide +kernel
  have hp := Machine.perform_of_outcome? le_rfl hend
  exact ⟨m, _, h, hother, _, hp, ((unit_isolated h (by decide) (by decide) hgiven hforeign).1 _ _ _ hp).2⟩

end ObjectMachine
