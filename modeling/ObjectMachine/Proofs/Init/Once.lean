/-
Static initialization happens at most once and its failure is remembered. `initialized_once` says of
every history, with a further operation at any point of its run, that no static initializer is
started twice, that the state of a class goes from pending to running and from there to done or
failed and no further, that a class is used only when it is ready, and that every access to a failed
class is refused with the failure that was recorded.

The argument for the first part is that an initializer is `Ahead` before it starts and never again
afterwards: what leads to it is that its class is pending, or the part of the initialization of its
class that comes before it, and there is only one such part.
-/
import ObjectMachine.Proofs.Init.Progress

namespace ObjectMachine

/-! ## Definitions -/

/-- A static initializer: the expression of a static field, or the static block of a class. -/
inductive Initializer where
  | value (cls : ClassId) (slot : Nat)
  | block (cls : ClassId)
  deriving DecidableEq, Repr

namespace Initializer

def cls : Initializer → ClassId
  | .value c _ | .block c => c

/-- The initializer belongs to a class and does not come before the field at a slot. -/
def IsFrom (i : Initializer) (c : ClassId) (slot : Nat) : Prop :=
  match i with
  | .value d n => d = c ∧ slot ≤ n
  | .block d => d = c

theorem IsFrom.cls {i : Initializer} {c : ClassId} {slot : Nat} (h : i.IsFrom c slot) : i.cls = c := by
  cases i with
  | value d n => exact h.1
  | block d => exact h

theorem IsFrom.mono {i : Initializer} {c : ClassId} {slot slot' : Nat} (h : i.IsFrom c slot')
    (hle : slot ≤ slot') : i.IsFrom c slot := by
  cases i with
  | value d n => exact ⟨h.1, hle.trans h.2⟩
  | block d => exact h

end Initializer

/-- The initializer that the next step starts. -/
def State.starting? (s : State) : Option Initializer :=
  match s.control with
  | .statics c slot (decl :: _) => decl.init.map fun _ => .value c.id slot
  | .statics c _ [] => c.staticBlock?.map fun _ => .block c.id
  | _ => none

/-- The class is used here: an instance is made, a static method is entered, a static cell is read
or written, or a static initializer is next. -/
inductive State.Uses (c : Class) : State → Prop where
  | create {args K d σ} : Uses c ⟨.create c args, K, d, σ⟩
  | invoke {e receiver args K d σ} : e.isStatic = true → Uses c ⟨.enter e c receiver args, K, d, σ⟩
  | read {a slot name K d σ} : Uses c ⟨.answer a, .thenRead c slot name :: K, d, σ⟩
  | write {a slot name v K d σ} : Uses c ⟨.answer a, .thenWrite c slot name v :: K, d, σ⟩
  | initializing {slot rest K d σ} : Uses c ⟨.statics c slot rest, K, d, σ⟩

/-- In two steps every access to the class ends in the error `e`, and nothing else changes. -/
structure State.Refuses (s : State) (c : Class) (e : Failure) : Prop where
  construct : ∀ env args, (step env)^[2] (s.construct c args) = s.raise e
  invoke : ∀ env m receiver args, m.isStatic = true → env.registry.class? m.declaring = some c →
    (step env)^[2] (s.invoke env m receiver args) = s.raise e
  getStatic : ∀ env d name slot, env.registry.findStatic? d name = some (c, slot) →
    (step env)^[2] (s.getStatic env d name) = s.raise e
  putStatic : ∀ env d name slot v, env.registry.findStatic? d name = some (c, slot) →
    (step env)^[2] (s.putStatic env d name v) = s.raise e

/-- The operation is an access to the class. -/
inductive Operation.Accesses (r : Registry) (c : Class) : Operation → Prop where
  | construct {u cls args} : r.lookup u cls = .ok c → Accesses r c (.construct u cls args)
  | invokeStatic {u cls method args named e} : r.lookup u cls = .ok named →
      named.select .static method args = .ok e → r.class? e.declaring = some c →
      Accesses r c (.invokeStatic u cls method args)
  | getStatic {u cls field named slot} : r.lookup u cls = .ok named →
      r.findStatic? named field = some (c, slot) → Accesses r c (.getStatic u cls field)
  | putStatic {u cls field v named slot} : r.lookup u cls = .ok named →
      r.findStatic? named field = some (c, slot) → Accesses r c (.putStatic u cls field v)

/-- Along a trace, initialization happens at most once and its failure is remembered: no initializer
starts twice, and the slot of a start names its declaration; classes go through `Moves` and stay
settled; a class is used only when it is ready; a failed class refuses every access. -/
structure InitializesOnce (trace : List State) : Prop where
  starts : (trace.filterMap State.starting?).Nodup
  located : ∀ s ∈ trace, ∀ c slot rest, s.control = .statics c slot rest → rest = c.statics.drop slot
  moves : ∀ id, (progress id trace).IsChain InitState.Moves
  settled : ∀ id, trace.Pairwise fun s t => (s.store.statics.stateOf id).IsSettled →
    t.store.statics.stateOf id = s.store.statics.stateOf id
  ready : ∀ s ∈ trace, ∀ c, s.Uses c → (s.store.statics.state c).Ready
  refuses : ∀ s ∈ trace, ∀ c cause, s.store.statics.state c = .failed cause →
    s.Refuses c (.staticInitFailed c.name cause)

/-! ## Refusal -/

section Refusal

variable {env : Env} {s : State} {c : Class} {cause : Failure}

/-- A failed class refuses what waits for its initialization. -/
theorem State.await_failed (h : s.store.statics.state c = .failed cause) {k : Cont}
    (hk : k.initializes? = none) (ha : k.isActivation = false) :
    (step env)^[2] (s.await k (.init c)) = s.raise (.staticInitFailed c.name cause) := by
  have hinit : (s.await k (.init c)).step env =
      (s.await k (.init c)).raise (.staticInitFailed c.name cause) := by
    simp only [step, await, beginInit, h]
  show ((s.await k (.init c)).step env).step env = _
  rw [hinit]
  cases k with
  | initializing d => cases hk
  | returning | constructing | superDone | hostCall => cases ha
  | _ => rfl

theorem State.refuses_failed (h : s.store.statics.state c = .failed cause) :
    s.Refuses c (.staticInitFailed c.name cause) where
  construct := fun env args => await_failed h rfl rfl
  invoke := by
    intro env m receiver args hs hd
    simp only [State.invoke, hd, hs, if_true]
    exact await_failed h rfl rfl
  getStatic := by
    intro env d name slot ho
    simp only [State.getStatic, ho]
    exact await_failed h rfl rfl
  putStatic := by
    intro env d name slot v ho
    simp only [State.putStatic, ho]
    exact await_failed h rfl rfl

/-- An operation that accesses a failed class reports its recorded failure and changes nothing. -/
theorem Operation.Accesses.perform_failed {m : Machine} {op : Operation} (ha : op.Accesses m.registry c)
    (h : m.store.statics.state c = .failed cause) (fuel : Nat) :
    m.perform (fuel + 2) op = some (.error (.staticInitFailed c.name cause), m) := by
  have href : (State.idle m.store).Refuses c (.staticInitFailed c.name cause) := State.refuses_failed h
  have hend : m.moment op 2 = (State.idle m.store).raise (.staticInitFailed c.name cause) := by
    unfold Machine.moment
    cases ha with
    | construct hl =>
      simp only [Operation.start, Machine.env, hl, State.proceed]
      exact href.construct _ _
    | invokeStatic hl hsel hd =>
      simp only [Operation.start, Machine.env, hl, State.proceed, State.invokeStatic, hsel]
      exact href.invoke _ _ _ _ (Class.select_static hsel) hd
    | getStatic hl ho =>
      simp only [Operation.start, Machine.env, hl, State.proceed]
      exact href.getStatic _ _ _ _ ho
    | putStatic hl ho =>
      simp only [Operation.start, Machine.env, hl, State.proceed]
      exact href.putStatic _ _ _ _ _ ho
  have hout : (m.moment op 2).outcome? = some (.error (.staticInitFailed c.name cause)) := by
    rw [hend]; rfl
  rw [Machine.perform_of_outcome? (Nat.le_add_left 2 fuel) hout, hend]
  rfl

end Refusal

/-! ## What lies ahead -/

/-- The initialization of static fields goes on here and comes to the initializer. -/
def Cont.Leads (i : Initializer) : Cont → Prop
  | .ownStatics c => i.IsFrom c.id 0
  | .staticValue c slot _ _ => i.IsFrom c.id (slot + 1)
  | _ => False

def Control.Leads (i : Initializer) : Control → Prop
  | .statics c slot _ => i.IsFrom c.id slot
  | _ => False

/-- The initializer may still start. -/
def State.Ahead (i : Initializer) (s : State) : Prop :=
  s.store.statics.stateOf i.cls = .pending ∨ s.control.Leads i ∨ ∃ k ∈ s.stack, k.Leads i

section Ahead

variable {env : Env} {s s' : State} {i : Initializer}

theorem Cont.Leads.part {k : Cont} (h : k.Leads i) : ∃ c, k.part? = some c ∧ i.cls = c.id := by
  cases k with
  | ownStatics c => exact ⟨c, rfl, h.cls⟩
  | staticValue c slot type rest => exact ⟨c, rfl, h.cls⟩
  | _ => exact h.elim

/-- Where a part of an initialization comes from. -/
theorem Transition.part_mem (h : Transition env s s') {k : Cont} {c : Class} (hk : k ∈ s'.stack)
    (hp : k.part? = some c) :
    k ∈ s.stack ∨ (k = .ownStatics c ∧ s.store.statics.state c = .pending) ∨
    ∃ slot type rest rest', k = .staticValue c slot type rest ∧ s.control = .statics c slot rest' := by
  have hordinary {f : Frame} {k' : Cont} (hk' : k'.IsOperand ∨ k'.IsCode f) : k'.part? = none :=
    (hk'.elim Cont.IsOperand.ordinary (Cont.IsCode.ordinary (r := env.registry))).part
  cases h with
  | go h | answer h | fail h | callVirtual h | callSuper h | superOverflow h => exact .inl (h.mem hk)
  | evaluate h hk' =>
    rcases List.mem_cons.1 hk with rfl | hk
    · rw [hordinary hk'] at hp; cases hp
    · exact .inl (h.mem hk)
  | access h hk' =>
    rcases List.mem_cons.1 hk with rfl | hk
    · rw [hk'.awaits.2.1] at hp; cases hp
    · exact .inl (h.mem hk)
  | accessWrite hk' =>
    rcases List.mem_cons.1 hk with rfl | hk
    · rw [hk'.awaits.2.1] at hp; cases hp
    · rcases List.mem_cons.1 hk with rfl | hk
      · cases hp
      · exact .inl (List.mem_cons_of_mem _ hk)
  | failWrite =>
    rcases List.mem_cons.1 hk with rfl | hk
    · cases hp
    · exact .inl (List.mem_cons_of_mem _ hk)
  | enterSuper h =>
    rcases List.mem_cons.1 hk with rfl | hk
    · cases hp
    · exact .inl (h.mem hk)
  | enterBody | enterHost | create | initRoot | enterBlock =>
    rcases List.mem_cons.1 hk with rfl | hk
    · cases hp
    · exact .inl hk
  | initParent hpend =>
    rcases List.mem_cons.1 hk with rfl | hk
    · cases hp; exact .inr (.inl ⟨rfl, hpend⟩)
    · rcases List.mem_cons.1 hk with rfl | hk
      · cases hp
      · exact .inl hk
  | evalStatic =>
    rcases List.mem_cons.1 hk with rfl | hk
    · cases hp; exact .inr (.inr ⟨_, _, _, _, rfl, rfl⟩)
    · exact .inl hk
  | enterOverflow | hostService | hostReply | hostFail | createOverflow | createFail | initReady
  | initFailed | skipStatic | noBlock | ended => exact .inl hk
  | _ => exact .inl (List.mem_cons_of_mem _ hk)

/-- An initializer that is not ahead never will be again. -/
theorem Transition.ahead (h : Transition env s s') (ha : s'.Ahead i) : s.Ahead i := by
  rcases ha with hpend | hc | ⟨k, hk, hl⟩
  · by_cases hb : s.store.statics.stateOf i.cls = .pending
    · exact .inl hb
    · exact absurd hpend (h.begun hb)
  · cases h with
    | initRoot hpend => exact .inl (by rw [hc.cls]; exact hpend)
    | parentDone => exact .inr (.inr ⟨_, List.mem_cons_self, hc⟩)
    | skipStatic => exact .inr (.inl (hc.mono (Nat.le_succ _)))
    | storeStatic => exact .inr (.inr ⟨_, List.mem_cons_self, hc⟩)
    | ended => exact .inr (.inl hc)
    | _ => exact hc.elim
  · obtain ⟨c, hp, hcls⟩ := hl.part
    rcases h.part_mem hk hp with hk | ⟨rfl, hpend⟩ | ⟨slot, type, rest, rest', rfl, hc⟩
    · exact .inr (.inr ⟨k, hk, hl⟩)
    · exact .inl (by rw [hcls]; exact hpend)
    · refine .inr (.inl ?_)
      rw [hc]
      exact hl.mono (Nat.le_succ _)

/-- The part of an initialization stands above the initialization itself. -/
theorem Laid.part_mem {r : Registry} {k : Cont} {c : Class} (hp : k.part? = some c) :
    ∀ {K : List Cont}, Laid r K → k ∈ K → Cont.initializing c ∈ K.tail := by
  intro K hl hk
  induction K with
  | nil => cases hk
  | cons k' K ih =>
    rcases List.mem_cons.1 hk with rfl | hk
    · exact List.mem_of_mem_head? (hl.1.part c hp)
    · exact List.mem_of_mem_tail (ih hl.2 hk)

theorem State.starting?_control (h : s.starting? = some i) :
    ∃ c slot rest, s.control = .statics c slot rest ∧ i.IsFrom c.id slot := by
  unfold starting? at h
  split at h
  · rename_i c slot decl rest hc
    obtain ⟨e, -, rfl⟩ := Option.map_eq_some_iff.1 h
    exact ⟨c, slot, _, hc, rfl, le_rfl⟩
  · rename_i c slot hc
    obtain ⟨b, -, rfl⟩ := Option.map_eq_some_iff.1 h
    exact ⟨c, slot, _, hc, rfl⟩
  · cases h

theorem State.ahead_of_starting? (h : s.starting? = some i) : s.Ahead i := by
  obtain ⟨c, slot, rest, hc, hfrom⟩ := starting?_control h
  refine .inr (.inl ?_)
  rw [hc]
  exact hfrom

/-- An initializer that starts is not ahead any more. -/
theorem State.not_ahead_of_starting? (hs : s.Nested env) (h : s.starting? = some i) :
    ¬ (s.step env).Ahead i := by
  obtain ⟨control, K, d, σ⟩ := s
  obtain ⟨c, slot, rest, hc, hfrom⟩ := starting?_control h
  simp only at hc
  subst hc
  -- the initialization of the class is on top of the stack, and no part of it is below
  have hhead : K.head? = some (.initializing c) := hs.placed
  have hrun : σ.statics.stateOf i.cls = .running := by
    rw [hfrom.cls]
    exact hs.running.of_initializing (List.mem_of_mem_head? hhead)
  have hnone : ∀ k ∈ K, ¬ k.Leads i := by
    intro k hk hl
    obtain ⟨c', hp, hcls⟩ := hl.part
    have hmem := hs.laid.part_mem hp hk
    obtain ⟨K', rfl⟩ : ∃ K', K = .initializing c :: K' := by
      cases K with
      | nil => cases hhead
      | cons k K' => cases hhead; exact ⟨K', rfl⟩
    have hnd := (List.nodup_cons.1 hs.running.nodup).1
    exact hnd (List.mem_filterMap.2 ⟨_, hmem, by simp [Cont.initializes?, ← hcls, hfrom.cls]⟩)
  cases rest with
  | nil =>
    obtain ⟨block, hb, rfl⟩ := Option.map_eq_some_iff.1 h
    have hstep : State.step env ⟨.statics c slot [], K, d, σ⟩ =
        ⟨.exec (.enter c none [] block), .staticBlock :: K, d, σ⟩ := by
      simp only [step, initializeFields, hb, await]
    rw [hstep]
    rintro (hpend | hc | ⟨k, hk, hl⟩)
    · rw [hrun] at hpend; cases hpend
    · exact hc
    · rcases List.mem_cons.1 hk with rfl | hk
      · exact hl
      · exact hnone k hk hl
  | cons decl rest =>
    obtain ⟨e, he, rfl⟩ := Option.map_eq_some_iff.1 h
    have hstep : State.step env ⟨.statics c slot (decl :: rest), K, d, σ⟩ =
        ⟨.eval (.initializer c) e, .staticValue c slot decl.type rest :: K, d, σ⟩ := by
      simp only [step, initializeFields, he, await]
    rw [hstep]
    rintro (hpend | hc | ⟨k, hk, hl⟩)
    · rw [hrun] at hpend; cases hpend
    · exact hc
    · rcases List.mem_cons.1 hk with rfl | hk
      · exact absurd hl.2 (Nat.not_succ_le_self slot)
      · exact hnone k hk hl

end Ahead

/-! ## Runs and histories -/

section Histories

variable {allowed : Act → Prop} {m : Machine} {past : List State} {op : Operation} {i : Initializer}

/-- When an operation starts, only pending classes have initializers ahead. -/
theorem Starts.pending {env : Env} {σ : Store} {s : State} (h : Starts env op σ s) (ha : s.Ahead i) :
    σ.statics.stateOf i.cls = .pending := by
  rcases ha with hp | hc | ⟨k, hk, hl⟩
  · rwa [h.store] at hp
  · cases h <;> exact hc.elim
  · obtain ⟨c, hpart, -⟩ := hl.part
    cases h with
    | access hacc =>
      rw [List.mem_singleton.1 hk, hacc.awaits.2.1] at hpart
      cases hpart
    | _ => cases hk

/-- What is ahead at some moment of a run was ahead when it started. -/
theorem Machine.ahead_start (n : Nat) (h : (m.moment op n).Ahead i) :
    m.store.statics.stateOf i.cls = .pending := by
  induction n with
  | zero => exact (start_starts m.env op m.store).pending h
  | succ n ih =>
    rw [m.moment_succ] at h
    exact ih ((State.step_transition _ _).ahead h)

/-- The starts of a run, after those that came before it. -/
theorem starts_run (h : History allowed m past) (hop : allowed (.perform op))
    (hnodup : (past.filterMap State.starting?).Nodup)
    (hbegun : ∀ i ∈ past.filterMap State.starting?, m.store.statics.stateOf i.cls ≠ .pending) (n : Nat) :
    ((past ++ m.moments op n).filterMap State.starting?).Nodup ∧
    ∀ i ∈ (past ++ m.moments op n).filterMap State.starting?, ¬ (m.moment op (n + 1)).Ahead i := by
  -- one more state at the end of the trace
  have hsnoc : ∀ (xs : List State) (n : Nat), (xs.filterMap State.starting?).Nodup →
      (∀ i ∈ xs.filterMap State.starting?, ¬ (m.moment op n).Ahead i) →
      ((xs ++ [m.moment op n]).filterMap State.starting?).Nodup ∧
      ∀ i ∈ (xs ++ [m.moment op n]).filterMap State.starting?, ¬ (m.moment op (n + 1)).Ahead i := by
    intro xs n hxs hnot
    have hold : ∀ i ∈ xs.filterMap State.starting?, ¬ (m.moment op (n + 1)).Ahead i := by
      intro i hi ha
      rw [m.moment_succ] at ha
      exact hnot i hi ((State.step_transition _ _).ahead ha)
    rw [List.filterMap_append]
    cases hs : (m.moment op n).starting? with
    | none =>
      rw [List.filterMap_cons_none hs, List.filterMap_nil, List.append_nil]
      exact ⟨hxs, hold⟩
    | some j =>
      rw [List.filterMap_cons_some hs, List.filterMap_nil]
      refine ⟨hxs.append (List.nodup_singleton j) ?_, fun i hi => ?_⟩
      · intro i hi hj
        rw [List.mem_singleton.1 hj] at hi
        exact hnot j hi (State.ahead_of_starting? hs)
      · rcases List.mem_append.1 hi with hi | hi
        · exact hold i hi
        · rw [List.mem_singleton.1 hi, m.moment_succ]
          exact State.not_ahead_of_starting? (nested_invariant.moment h hop n) hs
  induction n with
  | zero => exact hsnoc past 0 hnodup fun i hi ha => hbegun i hi (Machine.ahead_start 0 ha)
  | succ n ih =>
    rw [Machine.moments_succ, ← List.append_assoc]
    exact hsnoc _ (n + 1) ih.1 ih.2

/-- No initializer is started twice, and none is started while its class stays pending. -/
theorem starts_once (h : History allowed m past) : (past.filterMap State.starting?).Nodup ∧
    ∀ i ∈ past.filterMap State.starting?, m.store.statics.stateOf i.cls ≠ .pending := by
  induction h with
  | boot => exact ⟨List.nodup_nil, by simp⟩
  | act h ha hd ih =>
    obtain ⟨hnodup, hbegun⟩ := ih
    rcases hd.cases with ⟨rfl, heq⟩ | ⟨op, fuel, r, rfl, hp, rfl⟩
    · rw [List.append_nil, heq]
      exact ⟨hnodup, hbegun⟩
    · obtain ⟨hnodup', hahead⟩ := starts_run h ha hnodup hbegun fuel
      obtain ⟨hr, rfl⟩ := Machine.perform_some hp
      refine ⟨hnodup', fun i hi hpend => hahead i hi (.inl ?_)⟩
      rw [Machine.moment_succ, State.step_of_outcome? hr]
      exact hpend

/-- A class is used only when it is ready. -/
theorem State.Nested.ready {env : Env} {s : State} (hs : s.Nested env) {c : Class} (hu : s.Uses c) :
    (s.store.statics.state c).Ready := by
  have hp := hs.placed
  cases hu with
  | create => exact hp.2
  | invoke he => exact hp.2 he
  | read | write => exact hp _ rfl _ rfl
  | initializing => exact .inr (hs.running.of_initializing (List.mem_of_mem_head? hp))

/-! ## Main statement -/

/-- In every history, and at every point of a further operation, initialization has happened at most
once and its failure is remembered. Between operations no class is being initialized, and an
operation that accesses a failed class reports the failure that was recorded and changes nothing. -/
theorem initialized_once (h : History (fun _ => True) m past) (op : Operation) (n : Nat) :
    InitializesOnce (past ++ m.moments op n) ∧
    (∀ id, m.store.statics.stateOf id ≠ .running) ∧
    ∀ (op' : Operation) (c : Class) (cause : Failure) (fuel : Nat), op'.Accesses m.registry c →
      m.store.statics.state c = .failed cause →
      m.perform (fuel + 2) op' = some (.error (.staticInitFailed c.name cause), m) := by
  have hmoves : ∀ id, (progress id (past ++ m.moments op n)).IsChain InitState.Moves := fun id =>
    (progress_run h (progress_moves h id).1 (progress_moves h id).2 trivial n).1
  refine ⟨⟨?_, ?_, hmoves, fun id => progress_settled (hmoves id), ?_, ?_⟩,
    nested_invariant.between h, ?_⟩
  · exact (starts_run h trivial (starts_once h).1 (starts_once h).2 n).1
  · intro s hs c slot rest hc
    obtain ⟨env, -, hfits⟩ := fits_invariant.trace h trivial n s hs
    have hat := hfits.control
    rw [hc] at hat
    exact hat.2.2
  · intro s hs c hu
    obtain ⟨env, -, hnested⟩ := nested_invariant.trace h trivial n s hs
    exact hnested.ready hu
  · intro s _ c cause hf
    exact State.refuses_failed hf
  · intro op' c cause fuel ha hf
    exact ha.perform_failed hf fuel

/-- A class whose one static field divides by zero. -/
def faulty : CompilationUnit :=
  { name := "faulty"
    classes := [{ name := "Faulty",
                  statics := [⟨"ratio", .int, some (.binary .div (.ofInt 1) (.ofInt 0))⟩] }] }

/-- The field is read twice; its initializer is started once. -/
theorem initialized_once_faulty : ∃ m past, History (fun _ => True) m past ∧
    past.filterMap State.starting? = [.value 3 0] ∧
    m.store.statics.stateOf 3 = .failed .divisionByZero ∧
    InitializesOnce (past ++ m.moments (.getStatic 1 "Faulty" "ratio") 2) := by
  let m : Machine := (Machine.load (.boot {} {}) faulty).2
  let op : Operation := .getStatic 1 "Faulty" "ratio"
  have hend : ((m.moment op 10).outcome?).isSome := by decide +kernel
  obtain ⟨r, hr⟩ := Option.isSome_iff_exists.1 hend
  have hdoes := Does.perform (Machine.perform_of_outcome? le_rfl hr)
  have hboot : History (fun _ => True) (.boot {} {}) [] := .boot
  have hload : Does (.boot {} {}) (.load faulty) m [] := .load
  have h := (hboot.act trivial hload).act trivial hdoes
  refine ⟨_, _, h, ?_, ?_, (initialized_once h op 2).1⟩
  · decide +kernel
  · decide +kernel

end Histories

end ObjectMachine
