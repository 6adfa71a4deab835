/-
Receivers. A frame runs the code of a class on a receiver, and the receiver is an instance of that class:
a virtual call goes from the class of the object to an entry of its table, which a class of the lineage
declares; a super call goes from a class to its parent, and from there to a class above; a constructor
runs on a new object of its class, or from below on the same object. Objects keep their classes.
-/
import ObjectMachine.Proofs.Exec.Registered
import ObjectMachine.Proofs.Heap
import ObjectMachine.Proofs.Registry.Forest

namespace ObjectMachine

/-! ## Definitions -/

/-- The object is an instance of the class: its own class is that one or descends from it. -/
def Store.Instance (r : Registry) (σ : Store) (ref : Handle) (c : Class) : Prop :=
  ∃ own, σ.classOf? r ref = some own ∧ own.descendsFrom c = true

/-- The receiver of a frame is an instance of the class whose code the frame runs. -/
def Frame.Suits (r : Registry) (σ : Store) (f : Frame) : Prop :=
  ∀ ref, f.this = some ref → σ.Instance r ref f.cls

/-- A method that is about to be entered is entered on an instance of the class that declares it. -/
def Control.Suits (r : Registry) (σ : Store) : Control → Prop
  | .eval f _ | .exec f => f.Suits r σ
  | .enter _ c receiver _ => ∀ ref, receiver = some ref → σ.Instance r ref c
  | _ => True

/-- Every receiver of a state is an instance of the class whose code runs on it. -/
structure State.Suits (env : Env) (s : State) : Prop where
  control : s.control.Suits env.registry s.store
  stack : ∀ k ∈ s.stack, ∀ f, k.frame? = some f → f.Suits env.registry s.store

/-! ## Instances -/

section Instances

variable {r : Registry} {σ σ' : Store} {ref : Handle} {c d : Class}

theorem Store.Instance.above (hwf : r.Sound) (h : σ.Instance r ref c) (hc : r.Has c)
    (hmem : d.id ∈ c.ancestors) : σ.Instance r ref d := by
  obtain ⟨own, hown, hdesc⟩ := h
  obtain ⟨o, -, hclass⟩ := Store.classOf?_some hown
  have hhas := hwf.has_of_class? hclass
  refine ⟨own, hown, Class.descendsFrom_iff.2 ?_⟩
  rcases List.mem_cons.1 (Class.descendsFrom_iff.1 hdesc) with heq | hanc
  · rw [← hc.unique hhas heq]
    exact List.mem_cons_of_mem _ hmem
  · exact List.mem_cons_of_mem _
      (hwf.ancestors_trans hhas hc hanc (List.mem_cons_of_mem _ hmem))

/-- `h'` has the objects of `h`, each with its class. -/
def Heap.KeepsClasses (h h' : Heap) : Prop :=
  ∀ ref o, h.get? ref = some o → ∃ o', h'.get? ref = some o' ∧ o'.cls = o.cls

theorem Heap.KeepsClasses.instance (h : σ.heap.KeepsClasses σ'.heap) (hi : σ.Instance r ref c) :
    σ'.Instance r ref c := by
  obtain ⟨own, hown, hdesc⟩ := hi
  obtain ⟨o, ho, hclass⟩ := Store.classOf?_some hown
  obtain ⟨o', ho', hcls⟩ := h ref o ho
  refine ⟨own, ?_, hdesc⟩
  rw [Store.classOf?, ho', Option.bind_some, hcls]
  exact hclass

theorem Heap.KeepsClasses.of_objects {h h' : Heap} (hobj : h'.objects = h.objects) :
    h.KeepsClasses h' := by
  intro ref o ho
  unfold Heap.get? at ho ⊢
  rw [hobj]
  exact ⟨o, ho, rfl⟩

theorem Heap.KeepsClasses.add {h h' : Heap} (hobj : h'.objects = h.objects) (c : Class) :
    h.KeepsClasses (h'.add c) := by
  intro ref o ho
  obtain ⟨o', ho', hcls⟩ := Heap.KeepsClasses.of_objects hobj ref o ho
  rw [Heap.get?_add, if_neg (Heap.lt_of_get? ho').ne]
  exact ⟨o', ho', hcls⟩

theorem Heap.KeepsClasses.setCell (h : Heap) (ref : Handle) (slot : Nat) (v : Value) :
    h.KeepsClasses (h.setCell ref slot v) := by
  intro other o ho
  rw [Heap.get?_setCell, ho]
  split <;> exact ⟨_, rfl, rfl⟩

theorem Transition.keepsClasses {env : Env} {s s' : State} (h : Transition env s s') :
    s.store.heap.KeepsClasses s'.store.heap := by
  rcases h.objects with hobj | ⟨c, args, heap, -, hobj, hheap⟩ |
    ⟨_, _, _, _, v, _, ref, slot, _, _, _, _, _, hheap⟩
  · exact .of_objects hobj
  · rw [hheap]
    exact .add hobj c
  · rw [hheap]
    exact .setCell _ ref slot v

/-- A new object is an instance of its class. -/
theorem Store.instance_add {heap : Heap} (hobj : heap.objects = σ.heap.objects) (hc : r.Has c) :
    Store.Instance r { σ with heap := heap.add c } σ.heap.next c := by
  have hnext : σ.heap.next.index = heap.allocated := by rw [Heap.allocated, hobj]; rfl
  refine ⟨c, ?_, Class.descendsFrom_iff.2 List.mem_cons_self⟩
  unfold Store.classOf?
  rw [Heap.get?_add, if_pos hnext]
  exact hc

end Instances

/-! ## Selected methods -/

section Selected

variable {env : Env} {σ : Store} {f : Frame} {ref : Handle} {args : List Value} {e : Method}
  {declaring : Class}

/-- What a table holds is declared by a class of the lineage. -/
theorem Registry.Sound.declaring_mem {r : Registry} (hwf : r.Sound) {c : Class} (hc : r.Has c)
    {kind : CallKind} {name : String} (h : c.select kind name args = .ok e)
    (hd : r.class? e.declaring = some declaring) : r.Has declaring ∧ declaring.id ∈ c.lineage := by
  obtain ⟨owner, howner, hhas, hmem⟩ := hwf.entry_declaring hc (Class.select_wants h).2
  rw [hd] at howner
  cases howner
  exact ⟨hhas, hmem⟩

theorem SelectsVirtual.instance (hwf : env.registry.Sound) (h : SelectsVirtual env σ ref args e declaring) :
    σ.Instance env.registry ref declaring := by
  obtain ⟨own, name, hown, hsel⟩ := h.own
  obtain ⟨o, -, hclass⟩ := Store.classOf?_some hown
  exact ⟨own, hown,
    Class.descendsFrom_iff.2 (hwf.declaring_mem (hwf.has_of_class? hclass) hsel h.registered).2⟩

/-- A super call selects a method that a class above the calling one declares. -/
theorem Registry.Sound.select_above {r : Registry} (hwf : r.Sound) {c p : Class} (hc : r.Has c)
    (hp : r.parent? c = some p) {kind : CallKind} {name : String} (h : p.select kind name args = .ok e)
    (hd : r.class? e.declaring = some declaring) : r.Has declaring ∧ declaring.id ∈ c.ancestors := by
  rw [hwf.ancestors_of_parent hc hp]
  exact hwf.declaring_mem (hwf.parent_before hc hp).1 h hd

theorem SelectsSuper.instance (hwf : env.registry.Sound) (h : SelectsSuper env f ref args e declaring)
    (hc : env.registry.Has f.cls) (hf : f.Suits env.registry σ) :
    σ.Instance env.registry ref declaring := by
  obtain ⟨p, name, hp, hsel⟩ := h.above
  exact (hf ref h.receiver).above hwf hc (hwf.select_above hc hp hsel h.registered).2

end Selected

/-! ## Runs -/

section Runs

variable {env : Env} {s s' : State} {f : Frame} {c : Control} {K K' : List Cont}

theorem Frame.SameSite.suits {r : Registry} {σ : Store} {g : Frame} (h : f.SameSite g)
    (hf : f.Suits r σ) : g.Suits r σ := by
  intro ref hthis
  rw [h.cls]
  exact hf ref (h.this ▸ hthis)

theorem Runs.suits {r : Registry} {σ : Store} (h : Runs f c K K') (hc : c.Suits r σ)
    (hK : ∀ k ∈ K, ∀ f, k.frame? = some f → f.Suits r σ) :
    f.Suits r σ ∧ ∀ k ∈ K', ∀ f, k.frame? = some f → f.Suits r σ := by
  cases h with
  | eval hs | exec hs => exact ⟨hs.suits hc, hK⟩
  | resumed hk hs =>
    obtain ⟨hg, hK⟩ := List.forall_mem_cons.1 hK
    exact ⟨hs.suits (hg _ hk.1), hK⟩

theorem Frame.suits_static {r : Registry} {σ : Store} (h : f.this = none) : f.Suits r σ := by
  intro ref hthis
  rw [h] at hthis
  cases hthis

theorem Cont.IsOperand.frame? {k : Cont} (h : k.IsOperand) : k.frame? = none := by
  cases k <;> first | rfl | exact h.elim

theorem Access.frame? {u : UnitId} {k : Cont} {cls : Class} (h : Access env u k cls) :
    k.frame? = none := by
  cases h <;> rfl

theorem Starts.suits {op : Operation} {σ : Store} (hwf : env.registry.Sound) (h : Starts env op σ s) :
    s.Suits env := by
  cases h with
  | failed | prepare => exact ⟨trivial, by simp⟩
  | access hk =>
    refine ⟨trivial, fun k hm f hf => ?_⟩
    rw [List.mem_singleton.1 hm, hk.frame?] at hf
    cases hf
  | virtual hsel =>
    refine ⟨fun ref href => ?_, by simp⟩
    cases href
    exact hsel.instance hwf
  | eval | run => exact ⟨Frame.suits_static rfl, by simp⟩

/-- A step keeps receivers to instances of the classes whose code runs on them. -/
theorem Transition.suits (hwf : env.registry.Sound) (h : Transition env s s') (hfit : s.Fits env)
    (hs : s.Suits env) : s'.Suits env := by
  have hkeep := h.keepsClasses
  have hfits := h.fits hwf hfit
  obtain ⟨hc, hK⟩ := hs
  -- what stays on the stack, what holds no frame, and what holds one
  have hold : ∀ k ∈ s.stack, ∀ f, k.frame? = some f → f.Suits env.registry s'.store :=
    fun k hk f hf ref hthis => hkeep.instance (hK k hk f hf ref hthis)
  have hnone {k : Cont} (hk : k.frame? = none) :
      ∀ f, k.frame? = some f → f.Suits env.registry s'.store := by simp [hk]
  have hframe {k : Cont} {f : Frame} (hk : k.frame? = some f) (hf : f.Suits env.registry s'.store) :
      ∀ g, k.frame? = some g → g.Suits env.registry s'.store := by simp [hk, hf]
  cases h with
  -- the code of a frame
  | go h =>
    obtain ⟨hf, hK⟩ := h.suits hc hK
    exact ⟨hf, hK⟩
  | answer h | fail h | superOverflow h => exact ⟨trivial, (h.suits hc hK).2⟩
  | evaluate h hk =>
    obtain ⟨hf, hK⟩ := h.suits hc hK
    refine ⟨hf, List.forall_mem_cons.2 ⟨?_, hK⟩⟩
    rcases hk with hk | hk
    · exact hnone hk.frame?
    · exact hframe hk.1 hf
  | access h hk => exact ⟨trivial, List.forall_mem_cons.2 ⟨hnone hk.frame?, (h.suits hc hK).2⟩⟩
  | accessWrite hk =>
    obtain ⟨hf, hK⟩ := List.forall_mem_cons.1 hK
    exact ⟨trivial, List.forall_mem_cons.2 ⟨hnone hk.frame?, List.forall_mem_cons.2 ⟨hf, hK⟩⟩⟩
  | failWrite =>
    obtain ⟨hf, hK⟩ := List.forall_mem_cons.1 hK
    exact ⟨trivial, List.forall_mem_cons.2 ⟨hf, hK⟩⟩
  | callVirtual h hsel =>
    refine ⟨fun ref href => ?_, (h.suits hc hK).2⟩
    cases href
    exact hsel.instance hwf
  | callSuper h hsel =>
    obtain ⟨hf, hK⟩ := h.suits hc hK
    refine ⟨fun ref href => ?_, hK⟩
    cases href
    exact hsel.instance hwf (h.fits hfit.control hfit.stack).1 hf
  | enterSuper h hthis hp =>
    obtain ⟨hf, hK⟩ := h.suits hc hK
    have hfcls := (h.fits hfit.control hfit.stack).1
    refine ⟨fun ref href => ?_, List.forall_mem_cons.2 ⟨hframe rfl hf, hK⟩⟩
    cases href
    refine (hf _ hthis).above hwf hfcls ?_
    rw [hwf.ancestors_of_parent hfcls hp]
    exact List.mem_cons_self
  | putField => exact ⟨hold _ List.mem_cons_self _ rfl, (List.forall_mem_cons.1 hold).2⟩
  | superReturned => exact ⟨hK _ List.mem_cons_self _ rfl, (List.forall_mem_cons.1 hK).2⟩
  -- bodies and new objects
  | enterBody =>
    refine ⟨fun ref href => hc ref href, List.forall_mem_cons.2 ⟨hnone rfl, hK⟩⟩
  | create _ hobj =>
    refine ⟨fun ref href => ?_, List.forall_mem_cons.2 ⟨hnone rfl, hold⟩⟩
    cases href
    exact Store.instance_add hobj hfit.control
  | enterHost => exact ⟨trivial, List.forall_mem_cons.2 ⟨hnone rfl, hK⟩⟩
  | hostService => exact ⟨trivial, hold⟩
  -- static initialization
  | evalStatic => exact ⟨Frame.suits_static rfl, List.forall_mem_cons.2 ⟨hnone rfl, hK⟩⟩
  | enterBlock => exact ⟨Frame.suits_static rfl, List.forall_mem_cons.2 ⟨hnone rfl, hK⟩⟩
  | initParent =>
    exact ⟨trivial, List.forall_mem_cons.2 ⟨hnone rfl, List.forall_mem_cons.2 ⟨hnone rfl, hold⟩⟩⟩
  | initRoot => exact ⟨trivial, List.forall_mem_cons.2 ⟨hnone rfl, hold⟩⟩
  | thenInvoke => exact ⟨nofun, (List.forall_mem_cons.1 hold).2⟩
  -- answers and errors that pass on
  | enterOverflow | hostReply | hostFail | createFail | createOverflow | initReady | initFailed
  | noBlock | skipStatic => exact ⟨trivial, hold⟩
  | ended => exact ⟨hc, hK⟩
  | _ => exact ⟨trivial, (List.forall_mem_cons.1 hold).2⟩

end Runs

/-- Every receiver in every state of every history is an instance of the class whose code runs on it. -/
theorem suits_invariant {allowed : Act → Prop} :
    Invariant allowed Store.Fits fun env s => s.Fits env ∧ s.Suits env where
  boot := by intro sink clock entry hm; cases hm
  load := fun _ _ hx hσ => hσ.extends hx
  track := fun _ hσ => hσ
  allocate := fun _ _ _ _ hσ => hσ
  start := fun hwf _ h hσ => ⟨h.fits hwf hσ, h.suits hwf⟩
  step := fun hwf h hs => ⟨h.fits hwf hs.1, h.suits hwf hs.1 hs.2⟩
  stop := fun _ hs => hs.1.store

theorem State.Suits.frames {env : Env} {s : State} (h : s.Suits env) :
    ∀ f ∈ s.frames, f.Suits env.registry s.store := by
  refine State.forall_frames (fun f hf => ?_) h.stack
  have hc := h.control
  cases hcontrol : s.control <;> rw [hcontrol] at hf hc <;> cases hf <;> exact hc

end ObjectMachine
