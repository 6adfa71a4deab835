/-
No code of a class runs before the initialization of the class has begun. Instance methods and
constructors of a parent initialize nothing themselves: they rely on objects being made only of
classes whose initialization has begun, and on a class beginning only together with its ancestors.
`begun_before_use` states what they rely on for every moment of every operation, provided that the
host makes no object behind the machine's back and supplies no code of its own.
-/
import ObjectMachine.Proofs.Init.Progress
import ObjectMachine.Proofs.Heap
import ObjectMachine.Proofs.Registry.Methods

namespace ObjectMachine

/-! ## Definitions -/

/-- The class whose code waits here. -/
def Cont.code? : Cont → Option ClassId
  | .initializing c | .ownStatics c | .staticValue c _ _ _ => some c.id
  | k => k.frame?.map (·.cls.id)

/-- The class whose code is next. -/
def Control.code? : Control → Option ClassId
  | .eval f _ | .exec f => some f.cls.id
  | .statics c _ _ | .create c _ | .enter _ c _ _ => some c.id
  | .host e _ _ => some e.declaring
  | .init _ | .answer _ | .raise _ => none

/-- The classes whose code is active: bodies, host functions and static initializers. -/
def State.code (s : State) : List ClassId := s.control.code?.toList ++ s.stack.filterMap Cont.code?

/-- The objects of a store are instances of classes whose initialization has begun. -/
def Store.Begun (σ : Store) : Prop :=
  ∀ o ∈ σ.heap.objects.toList, (σ.statics.stateOf o.cls).Begun

/-- A class begins only after its parent, except that the initialization of the parent is next. -/
def State.Ordered (env : Env) (s : State) : Prop :=
  ∀ c p, env.registry.Has c → env.registry.parent? c = some p →
    (s.store.statics.state c).Begun → (s.store.statics.state p).Begun ∨ s.control = .init p

/-- Only classes whose initialization has begun have objects and active code. -/
structure State.Begun (env : Env) (s : State) : Prop where
  control : ∀ id, s.control.code? = some id → (s.store.statics.stateOf id).Begun
  stack : ∀ k ∈ s.stack, ∀ id, k.code? = some id → (s.store.statics.stateOf id).Begun
  objects : s.store.Begun
  ordered : s.Ordered env

/-- The host allocates no objects itself and supplies no code. -/
def Act.IsOrdinary : Act → Prop
  | .allocate _ _ => False
  | .perform op => ¬ op.IsHostCode
  | .load _ | .bind _ _ | .hold _ | .collect => True

/-! ## Order -/

section Order

variable {env : Env} {s s' : State}

/-- While no initialization is next, a class that has begun has its whole lineage begun. -/
theorem State.Ordered.lineage (h : s.Ordered env) (hwf : env.registry.Sound)
    (hnext : ∀ p, s.control ≠ .init p) {c : Class} (hc : env.registry.Has c)
    (hb : (s.store.statics.state c).Begun) : ∀ a ∈ c.lineage, (s.store.statics.stateOf a).Begun := by
  intro a ha
  have hstep : ∀ c p, env.registry.Has c → env.registry.parent? c = some p →
      (s.store.statics.state c).Begun → (s.store.statics.state p).Begun := fun c p hc hp hb =>
    (h c p hc hp hb).resolve_right (hnext p)
  obtain ⟨d, -, rfl, hd⟩ := hwf.lineage_induction hstep _ rfl hc hb a ha
  exact hd

/-- The class whose initialization is next has begun in the step after. -/
theorem Transition.init_begun (h : Transition env s s') {p : Class} (hp : s.control = .init p) :
    (s'.store.statics.state p).Begun := by
  cases h with
  | go h | answer h | fail h | evaluate h | access h | callVirtual h | callSuper h | enterSuper h
  | superOverflow h => exact absurd hp (h.ne_init p)
  | ended hc => rcases hc with ⟨v, rfl⟩ | ⟨e, rfl⟩ <;> cases hp
  | initReady hr => cases hp; exact InitState.Ready.begun hr
  | initFailed hf => cases hp; rw [hf]; exact InitState.noConfusion
  | initParent | initRoot => cases hp; simp [Statics.state, InitState.Begun]
  | _ => cases hp

theorem Transition.ordered (h : Transition env s s') (hs : s.Nested env) (hf : s.Fits env)
    (ho : s.Ordered env) : s'.Ordered env := by
  intro c p hc hp hb'
  by_cases hb : (s.store.statics.state c).Begun
  · rcases ho c p hc hp hb with hbp | hnext
    · exact .inl (h.begun hbp)
    · exact .inl (h.init_begun hnext)
  · -- the class begins with this step
    have hpend : s.store.statics.stateOf c.id = .pending := not_not.1 hb
    rcases h.statics with heq | ⟨d, hd, -, heq, hnext⟩ | ⟨d, K, st, hK, -, heq⟩
    · exact absurd hpend (heq c.id ▸ hb')
    · have hid : c.id = d.id := by
        by_contra hne
        unfold Statics.state at hb'
        rw [heq, Statics.stateOf_setState, if_neg hne] at hb'
        exact hb' hpend
      have hhas : env.registry.Has d := hf.of_control hd
      unfold Registry.Has at hc hhas
      rw [hid, hhas] at hc
      cases hc
      exact .inr (hnext p hp)
    · have hrun := hs.running.of_initializing (c := d) (by rw [hK]; exact List.mem_cons_self)
      have hid : c.id ≠ d.id := by
        intro hid
        rw [hid, show s.store.statics.stateOf d.id = .running from hrun] at hpend
        cases hpend
      unfold Statics.state at hb'
      rw [heq, Statics.stateOf_setState, if_neg hid] at hb'
      exact absurd hpend hb'

end Order

/-! ## Selected methods -/

section Selected

variable {env : Env} {s : State}

/-- A method in the table of a class that has begun belongs to a class that has begun. -/
theorem State.Ordered.declaring (h : s.Ordered env) (hwf : env.registry.Sound)
    (hnext : ∀ p, s.control ≠ .init p) {c declaring : Class} {e : Method} (hc : env.registry.Has c)
    (hb : (s.store.statics.state c).Begun) (he : e ∈ c.methods.entries)
    (hd : env.registry.class? e.declaring = some declaring) :
    (s.store.statics.state declaring).Begun := by
  obtain ⟨owner, ho, -, hmem⟩ := hwf.entry_declaring hc he
  rw [hd] at ho
  cases ho
  exact h.lineage hwf hnext hc hb _ hmem

theorem SelectsVirtual.begun {ref : Handle} {args : List Value} {e : Method} {declaring : Class}
    (h : SelectsVirtual env s.store ref args e declaring) (hwf : env.registry.Sound)
    (hord : s.Ordered env) (hobj : s.store.Begun) (hnext : ∀ p, s.control ≠ .init p) :
    (s.store.statics.state declaring).Begun := by
  obtain ⟨c, name, hclass, hsel⟩ := h.own
  obtain ⟨o, ho, hc⟩ := Store.classOf?_some hclass
  have hb : (s.store.statics.state c).Begun := by
    unfold Statics.state
    rw [hwf.ids _ _ hc]
    exact hobj o (Heap.get?_mem ho)
  exact hord.declaring hwf hnext (hwf.has_of_class? hc) hb (Class.select_wants hsel).2 h.registered

theorem SelectsSuper.begun {f : Frame} {ref : Handle} {args : List Value} {e : Method} {declaring : Class}
    (h : SelectsSuper env f ref args e declaring) (hwf : env.registry.Sound) (ho : s.Ordered env)
    (hf : env.registry.Has f.cls) (hb : (s.store.statics.state f.cls).Begun)
    (hnext : ∀ p, s.control ≠ .init p) : (s.store.statics.state declaring).Begun := by
  obtain ⟨p, name, hp, hsel⟩ := h.above
  have hbp := (ho _ _ hf hp hb).resolve_right (hnext p)
  exact ho.declaring hwf hnext (hwf.parent_before hf hp).1 hbp (Class.select_wants hsel).2 h.registered

end Selected

/-! ## Steps -/

section Steps

variable {env : Env} {s s' : State}

theorem Cont.IsCode.code? {k : Cont} {f : Frame} (hk : k.IsCode f) : k.code? = some f.cls.id := by
  obtain ⟨hf, ha⟩ := hk
  cases k <;> cases hf <;> rfl

theorem Cont.IsOperand.code? {k : Cont} (hk : k.IsOperand) : k.code? = none := by
  cases k with
  | unary op => rfl
  | binaryRight op lhs => rfl
  | _ => exact hk.elim

theorem Access.code? {u : UnitId} {k : Cont} {c : Class} (h : Access env u k c) : k.code? = none := by
  cases h <;> rfl

/-- The class of the frame that goes on, and what is left on the stack. -/
theorem Runs.begun {f : Frame} {c : Control} {K K' : List Cont} (h : Runs f c K K') {P : ClassId → Prop}
    (hc : ∀ id, c.code? = some id → P id) (hK : ∀ k ∈ K, ∀ id, k.code? = some id → P id) :
    P f.cls.id ∧ ∀ k ∈ K', ∀ id, k.code? = some id → P id := by
  cases h with
  | eval hs => exact ⟨hs.cls ▸ hc _ rfl, hK⟩
  | exec hs => exact ⟨hs.cls ▸ hc _ rfl, hK⟩
  | resumed hk hs =>
    obtain ⟨hg, hK⟩ := List.forall_mem_cons.1 hK
    exact ⟨hs.cls ▸ hg _ hk.code?, hK⟩

/-- The code that is next after a step, and the code that waits. -/
theorem Transition.code (hwf : env.registry.Sound) (h : Transition env s s') (hf : s.Fits env)
    (hn : s.Nested env) (hs : s.Begun env) :
    (∀ id, s'.control.code? = some id → (s'.store.statics.stateOf id).Begun) ∧
    ∀ k ∈ s'.stack, ∀ id, k.code? = some id → (s'.store.statics.stateOf id).Begun := by
  -- what has begun before the step has begun after it
  have hup {id : ClassId} : (s.store.statics.stateOf id).Begun → (s'.store.statics.stateOf id).Begun :=
    h.begun
  have hnext : ∀ p, s.control = .init p → (s'.store.statics.state p).Begun := fun p => h.init_begun
  have hc : ∀ id, s.control.code? = some id → (s'.store.statics.stateOf id).Begun := fun id hid =>
    hup (hs.control id hid)
  have hK : ∀ k ∈ s.stack, ∀ id, k.code? = some id → (s'.store.statics.stateOf id).Begun :=
    fun k hk id hid => hup (hs.stack k hk id hid)
  have hnone {P : ClassId → Prop} {k : Cont} (hk : k.code? = none) : ∀ id, k.code? = some id → P id :=
    fun id hid => by rw [hk] at hid; cases hid
  have hsome {P : ClassId → Prop} {i : ClassId} (hi : P i) : ∀ id, some i = some id → P id :=
    fun id hid => by cases hid; exact hi
  cases h with
  | go h =>
    obtain ⟨hfr, hK⟩ := h.begun hc hK
    exact ⟨hsome hfr, hK⟩
  | evaluate h hk =>
    obtain ⟨hfr, hK⟩ := h.begun hc hK
    refine ⟨hsome hfr, List.forall_mem_cons.2 ⟨?_, hK⟩⟩
    rcases hk with hk | hk
    · exact hnone hk.code?
    · rw [hk.code?]; exact hsome hfr
  | answer h | fail h | superOverflow h => exact ⟨nofun, (h.begun hc hK).2⟩
  | access h hk => exact ⟨nofun, List.forall_mem_cons.2 ⟨hnone hk.code?, (h.begun hc hK).2⟩⟩
  | accessWrite hk =>
    obtain ⟨hfr, hK⟩ := List.forall_mem_cons.1 hK
    exact ⟨nofun, List.forall_mem_cons.2 ⟨hnone hk.code?, List.forall_mem_cons.2 ⟨hfr, hK⟩⟩⟩
  | failWrite =>
    obtain ⟨hfr, hK⟩ := List.forall_mem_cons.1 hK
    exact ⟨nofun, List.forall_mem_cons.2 ⟨hfr, hK⟩⟩
  | callVirtual h hsel =>
    have hd := hsel.begun hwf hs.ordered hs.objects h.ne_init
    exact ⟨hsome (hup hd), (h.begun hc hK).2⟩
  | callSuper h hsel =>
    have hfr := (h.begun hs.control hs.stack).1
    have hd := hsel.begun hwf hs.ordered (h.fits hf.control hf.stack).1 hfr h.ne_init
    exact ⟨hsome (hup hd), (h.begun hc hK).2⟩
  | enterSuper h _ hp =>
    have hfr := (h.begun hs.control hs.stack).1
    have hhas := (h.fits hf.control hf.stack).1
    have hbp := (hs.ordered _ _ hhas hp hfr).resolve_right (h.ne_init _)
    exact ⟨hsome (hup hbp), List.forall_mem_cons.2 ⟨hsome (hup hfr), (h.begun hc hK).2⟩⟩
  | putField | superReturned =>
    obtain ⟨hfr, hK⟩ := List.forall_mem_cons.1 hK
    exact ⟨hfr, hK⟩
  | enterBody => exact ⟨hc, List.forall_mem_cons.2 ⟨nofun, hK⟩⟩
  | enterHost =>
    refine ⟨hsome ?_, List.forall_mem_cons.2 ⟨nofun, hK⟩⟩
    rw [← hwf.ids _ _ hf.control.1]
    exact hc _ rfl
  | hostService => exact ⟨hc, hK⟩
  | create => exact ⟨hc, List.forall_mem_cons.2 ⟨nofun, hK⟩⟩
  | initParent =>
    have hb := hnext _ rfl
    exact ⟨nofun, List.forall_mem_cons.2 ⟨hsome hb, List.forall_mem_cons.2 ⟨hsome hb, hK⟩⟩⟩
  | initRoot =>
    have hb := hnext _ rfl
    exact ⟨hsome hb, List.forall_mem_cons.2 ⟨hsome hb, hK⟩⟩
  | parentDone | storeStatic =>
    obtain ⟨hst, hK⟩ := List.forall_mem_cons.1 hK
    exact ⟨hst, hK⟩
  | skipStatic => exact ⟨hc, hK⟩
  | evalStatic => exact ⟨hc, List.forall_mem_cons.2 ⟨hc, hK⟩⟩
  | enterBlock => exact ⟨hc, List.forall_mem_cons.2 ⟨nofun, hK⟩⟩
  | thenCreate | thenInvoke =>
    exact ⟨hsome (InitState.Ready.begun (hn.placed _ rfl _ rfl)), (List.forall_mem_cons.1 hK).2⟩
  | enterOverflow | hostReply | hostFail | createOverflow | createFail | initReady | initFailed
  | noBlock => exact ⟨nofun, hK⟩
  | ended => exact ⟨hc, hK⟩
  | _ => exact ⟨nofun, (List.forall_mem_cons.1 hK).2⟩

theorem Transition.objectsBegun (h : Transition env s s') (hs : s.Begun env) : s'.store.Begun := by
  have hold : ∀ o ∈ s.store.heap.objects.toList, (s'.store.statics.stateOf o.cls).Begun := fun o ho =>
    h.begun (hs.objects o ho)
  intro o ho
  rcases h.objects with heq | ⟨c, args, hp, hc, hobj, heq⟩ |
    ⟨f, owner, field, target, v, c, ref, slot, decl, -, -, -, -, heq⟩
  · rw [heq] at ho
    exact hold o ho
  · rw [heq] at ho
    rcases Heap.mem_add ho with ho | rfl
    · rw [hobj] at ho
      exact hold o ho
    · exact h.begun (hs.control c.id (by rw [hc]; rfl))
  · rw [heq] at ho
    rcases Heap.mem_setCell ho with ho | ⟨o', ho', rfl⟩
    · exact hold o ho
    · exact hold o' (Heap.get?_mem ho')

end Steps

/-! ## Main statement -/

/-- Between operations: the classes of a store are registered, none is being initialized, objects are
of classes that have begun, and a class has begun only after its parent. -/
structure Store.Settled (r : Registry) (σ : Store) : Prop where
  fits : σ.Fits r
  idle : ∀ id, σ.statics.stateOf id ≠ .running
  objects : σ.Begun
  ordered : ∀ c p, r.Has c → r.parent? c = some p → (σ.statics.state c).Begun → (σ.statics.state p).Begun

/-- Loading leaves new classes pending. -/
theorem Store.Settled.load {r r' : Registry} {σ : Store} (hwf : r.Sound) (hx : r.Extends r')
    (hσ : σ.Settled r) : σ.Settled r' := by
  refine ⟨hσ.fits.extends hx, hσ.idle, hσ.objects, ?_⟩
  intro c p hc hp hb
  obtain ⟨a, ha⟩ := Statics.begun_mem hb
  obtain ⟨d, hd⟩ := hσ.fits _ ha
  have heq := hx.class? hd
  unfold Registry.Has at hc
  rw [hc] at heq
  cases heq
  rw [hwf.parent?_extends hx hd] at hp
  exact hσ.ordered c p hd hp hb

theorem Starts.begun {env : Env} {op : Operation} {σ : Store} {s : State} (h : Starts env op σ s)
    (hwf : env.registry.Sound) (hop : ¬ op.IsHostCode) (hσ : σ.Settled env.registry) : s.Begun env := by
  have hord : ∀ t : State, t.store = σ → t.Ordered env := fun t ht c p hc hp hb =>
    .inl (ht ▸ hσ.ordered c p hc hp (ht ▸ hb))
  cases h with
  | failed => exact ⟨nofun, by simp, hσ.objects, hord _ rfl⟩
  | access hk =>
    refine ⟨nofun, fun k hm id hid => ?_, hσ.objects, hord _ rfl⟩
    rw [List.mem_singleton.1 hm, hk.code?] at hid
    cases hid
  | prepare => exact ⟨nofun, by simp, hσ.objects, hord _ rfl⟩
  | virtual hsel =>
    rename_i ref args e declaring
    refine ⟨fun id hid => ?_, by simp, hσ.objects, hord _ rfl⟩
    cases hid
    exact hsel.begun (s := ⟨.enter e declaring (some ref) args, [], 0, σ⟩) hwf (hord _ rfl) hσ.objects nofun
  | eval hcode | run hcode => exact absurd hcode hop

theorem begun_invariant : Invariant Act.IsOrdinary Store.Settled
    fun env s => s.Fits env ∧ s.Nested env ∧ s.Begun env where
  boot := fun _ _ => ⟨nofun, nofun, nofun, fun c p _ _ hb => absurd rfl hb⟩
  load := fun hwf _ hx hσ => hσ.load hwf hx
  track := by
    rintro r σ h hobj ⟨hf, hi, ho, hord⟩
    exact ⟨hf, hi, by unfold Store.Begun; rw [hobj]; exact ho, hord⟩
  allocate := fun _ ha => ha.elim
  start := fun hwf hop h hσ => ⟨h.fits hwf hσ.fits, h.nested hσ.idle, h.begun hwf hop hσ⟩
  step := by
    rintro env s s' hwf h ⟨hf, hn, hs⟩
    obtain ⟨hcontrol, hstack⟩ := h.code hwf hf hn hs
    exact ⟨h.fits hwf hf, h.nested hn, hcontrol, hstack, h.objectsBegun hs, h.ordered hn hf hs.ordered⟩
  stop := by
    rintro env s r hr ⟨hf, hn, hs⟩
    obtain ⟨hK, hc⟩ := State.outcome?_some hr
    have hnext : ∀ p, s.control ≠ .init p := by
      rintro p hp
      rcases hc with ⟨v, hc⟩ | ⟨e, hc⟩ <;> rw [hc] at hp <;> cases hp
    exact ⟨hf.store, hn.idle hK, hs.objects, fun c p hc hp hb =>
      (hs.ordered c p hc hp hb).resolve_right (hnext p)⟩

/-- At every moment of an ordinary operation, active code and objects are of classes that have begun,
and, unless a class is about to begin, a class that has begun has only ancestors that have begun. -/
theorem begun_before_use {m : Machine} {past : List State} (h : History Act.IsOrdinary m past)
    {op : Operation} (hop : ¬ op.IsHostCode) (n : Nat) :
    (∀ id ∈ (m.moment op n).code, ((m.moment op n).store.statics.stateOf id).Begun) ∧
    (∀ o ∈ (m.moment op n).store.heap.objects.toList,
      ((m.moment op n).store.statics.stateOf o.cls).Begun) ∧
    ((∀ c, (m.moment op n).control ≠ .init c) → ∀ c, m.registry.Has c →
      ((m.moment op n).store.statics.state c).Begun →
      ∀ a ∈ c.ancestors, ((m.moment op n).store.statics.stateOf a).Begun) := by
  obtain ⟨-, -, hs⟩ := begun_invariant.moment h hop n
  refine ⟨fun id hid => ?_, hs.objects, fun hnext c hc hb a ha => ?_⟩
  · rcases List.mem_append.1 hid with hid | hid
    · exact hs.control id (Option.mem_toList.1 hid)
    · obtain ⟨k, hk, hid⟩ := List.mem_filterMap.1 hid
      exact hs.stack k hk id hid
  · exact hs.ordered.lineage h.sound hnext hc hb a (List.mem_cons_of_mem _ ha)

/-- A class whose static field is an instance of its own child. -/
def circular : CompilationUnit :=
  { name := "circular"
    classes := [{ name := "Base", statics := [⟨"first", .reference, some (.create "Derived" [])⟩] },
      { name := "Derived", parent := some "Base" }] }

/-- The constructor of the child runs while its parent is still being initialized. -/
theorem begun_before_use_circular : ∃ m past, History Act.IsOrdinary m past ∧
    (m.moment (.construct 1 "Derived" []) 7).code = [4, 3, 3, 4, 4] ∧
    (∀ id ∈ (m.moment (.construct 1 "Derived" []) 7).code,
      ((m.moment (.construct 1 "Derived" []) 7).store.statics.stateOf id).Begun) ∧
    (m.moment (.construct 1 "Derived" []) 7).store.heap.objects.size = 1 := by
  have hboot : History Act.IsOrdinary (.boot {} {}) [] := .boot
  have hordinary : Act.IsOrdinary (.load circular) := trivial
  have h := hboot.act hordinary .load
  have hop : ¬ (Operation.construct 1 "Derived" []).IsHostCode := not_false
  refine ⟨_, _, h, ?_, (begun_before_use h hop 7).1, ?_⟩
  · decide +kernel
  · decide +kernel

end ObjectMachine
