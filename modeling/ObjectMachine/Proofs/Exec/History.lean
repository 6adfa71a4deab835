/-
Histories of a machine. A host boots a machine, with a sink and a clock that answer as they like, and
then acts on it one act after the other: it loads units, binds host functions, holds and drops handles,
asks for collections, allocates objects and performs operations. `History` is a machine with every
state that its runs have gone through, and `moment` is a state of a run in progress.

An `Invariant` speaks of the store between acts and of the states of a run. It is enough to check
it once for each act, once for the start of a run and once for a step.
-/
import ObjectMachine.Proofs.Exec.Transition
import ObjectMachine.Proofs.Registry.Invariant

namespace ObjectMachine

/-! ## Runs -/

namespace State

theorem outcome?_some {s : State} {r : Except Failure (Option Value)} (h : s.outcome? = some r) :
    s.stack = [] ∧ ((∃ v, s.control = .answer v) ∨ ∃ e, s.control = .raise e) := by
  unfold outcome? at h
  split at h
  · rename_i v hK hc; exact ⟨hK, .inl ⟨v, hc⟩⟩
  · rename_i e hK hc; exact ⟨hK, .inr ⟨e, hc⟩⟩
  · cases h

/-- A run ends with what its last state has come to. -/
theorem outcome?_cases {s : State} {r : Except Failure (Option Value)} (h : s.outcome? = some r) :
    (∃ v, s.control = .answer v ∧ r = .ok v) ∨ ∃ e, s.control = .raise e ∧ r = .error e := by
  unfold outcome? at h
  split at h
  · rename_i v _ hc; cases h; exact .inl ⟨v, hc, rfl⟩
  · rename_i e _ hc; cases h; exact .inr ⟨e, hc, rfl⟩
  · cases h

/-- A finished run stays where it is. -/
theorem step_of_outcome? {env : Env} {s : State} {r : Except Failure (Option Value)}
    (h : s.outcome? = some r) : s.step env = s := by
  obtain ⟨hK, ⟨v, hc⟩ | ⟨e, hc⟩⟩ := outcome?_some h
  · simp only [step, hc, hK]
  · simp only [step, hc, hK]

/-- What a run ends with is its state after as many steps as it was allowed. -/
theorem finish_eq {env : Env} {r : Except Failure (Option Value)} {σ : Store} :
    ∀ {fuel : Nat} {s : State}, s.finish env fuel = some (r, σ) →
      ((step env)^[fuel] s).outcome? = some r ∧ ((step env)^[fuel] s).store = σ := by
  intro fuel
  induction fuel with
  | zero =>
    intro s h
    obtain ⟨r', hr, heq⟩ := Option.map_eq_some_iff.1 h
    cases heq
    exact ⟨hr, rfl⟩
  | succ fuel ih =>
    intro s h
    unfold finish at h
    split at h
    · rename_i r' hr
      cases h
      rw [Function.iterate_fixed (step_of_outcome? hr)]
      exact ⟨hr, rfl⟩
    · exact ih h

/-- A run that has come to its end within the steps it is allowed ends so. -/
theorem finish_of_outcome? {env : Env} {r : Except Failure (Option Value)} :
    ∀ {fuel n : Nat} {s : State}, n ≤ fuel → ((step env)^[n] s).outcome? = some r →
      s.finish env fuel = some (r, ((step env)^[n] s).store) := by
  intro fuel
  induction fuel with
  | zero =>
    intro n s hn h
    obtain rfl := Nat.le_zero.1 hn
    exact Option.map_eq_some_iff.2 ⟨r, h, rfl⟩
  | succ fuel ih =>
    intro n s hn h
    unfold finish
    split
    · rename_i r' hr
      rw [Function.iterate_fixed (step_of_outcome? hr)] at h ⊢
      rw [hr] at h
      cases h
      rfl
    · rename_i hr
      cases n with
      | zero => rw [show s.outcome? = some r from h] at hr; cases hr
      | succ n => exact ih (Nat.le_of_succ_le_succ hn) h

end State

namespace Machine

/-- The state of a run after a number of steps. -/
def moment (m : Machine) (op : Operation) (n : Nat) : State :=
  (State.step m.env)^[n] (op.start m.env m.store)

/-- The states that a run goes through in a number of steps; the first is the one it starts in. -/
def moments (m : Machine) (op : Operation) (n : Nat) : List State :=
  (List.range (n + 1)).map (m.moment op)

theorem moment_succ (m : Machine) (op : Operation) (n : Nat) :
    m.moment op (n + 1) = (m.moment op n).step m.env :=
  Function.iterate_succ_apply' _ _ _

theorem moment_add (m : Machine) (op : Operation) (n k : Nat) :
    m.moment op (n + k) = (State.step m.env)^[k] (m.moment op n) := by
  rw [Nat.add_comm]
  exact Function.iterate_add_apply _ _ _ _

theorem mem_moments {m : Machine} {op : Operation} {n : Nat} {s : State} :
    s ∈ m.moments op n ↔ ∃ i ≤ n, m.moment op i = s := by
  simp [moments]

theorem moments_succ (m : Machine) (op : Operation) (n : Nat) :
    m.moments op (n + 1) = m.moments op n ++ [m.moment op (n + 1)] := by
  simp [moments, List.range_succ]

theorem moments_subset {m : Machine} {op : Operation} {i n : Nat} (h : i ≤ n) :
    m.moments op i ⊆ m.moments op n := fun _ hs =>
  let ⟨j, hj, heq⟩ := mem_moments.1 hs
  mem_moments.2 ⟨j, hj.trans h, heq⟩

/-- After the end of a run nothing changes. -/
theorem moment_ended {m : Machine} {op : Operation} {i n : Nat} {r : Except Failure (Option Value)}
    (hr : (m.moment op n).outcome? = some r) (h : n ≤ i) : m.moment op i = m.moment op n := by
  obtain ⟨k, rfl⟩ := Nat.exists_eq_add_of_le h
  rw [m.moment_add]
  exact Function.iterate_fixed (State.step_of_outcome? hr) k

theorem perform_some {fuel : Nat} {m m' : Machine} {op : Operation} {r : Except Failure (Option Value)}
    (h : m.perform fuel op = some (r, m')) :
    (m.moment op fuel).outcome? = some r ∧ m' = { m with store := (m.moment op fuel).store } := by
  obtain ⟨⟨r', σ⟩, hf, heq⟩ := Option.map_eq_some_iff.1 h
  cases heq
  obtain ⟨hr, hσ⟩ := State.finish_eq hf
  exact ⟨hr, by rw [← hσ]; rfl⟩

theorem perform_of_outcome? {fuel n : Nat} {m : Machine} {op : Operation}
    {r : Except Failure (Option Value)} (hn : n ≤ fuel) (h : (m.moment op n).outcome? = some r) :
    m.perform fuel op = some (r, { m with store := (m.moment op n).store }) := by
  have hf := State.finish_of_outcome? hn h
  exact Option.map_eq_some_iff.2 ⟨_, hf, rfl⟩

/-- An operation has one end, whatever number of steps it is allowed. -/
theorem perform_unique {fuel fuel' : Nat} {m m₁ m₂ : Machine} {op : Operation}
    {r₁ r₂ : Except Failure (Option Value)} (h₁ : m.perform fuel op = some (r₁, m₁))
    (h₂ : m.perform fuel' op = some (r₂, m₂)) : r₁ = r₂ ∧ m₁ = m₂ := by
  obtain ⟨hr₁, rfl⟩ := perform_some h₁
  obtain ⟨hr₂, rfl⟩ := perform_some h₂
  have hsame : m.moment op fuel = m.moment op fuel' := by
    rcases le_total fuel fuel' with hle | hle
    · exact (moment_ended hr₁ hle).symm
    · exact moment_ended hr₂ hle
  rw [hsame] at hr₁ ⊢
  exact ⟨Option.some.inj (hr₁.symm.trans hr₂), rfl⟩

end Machine

/-! ## Acts of the host -/

/-- Something a host does with a machine. -/
inductive Act where
  | load (unit : CompilationUnit)
  | bind (key : BindingKey) (f : HostFunction)
  | hold (pinned : List Handle)
  | collect
  | allocate (u : UnitId) (cls : String)
  | perform (op : Operation)

/-- The machine after an act, and the states that the act went through. -/
inductive Does : Machine → Act → Machine → List State → Prop where
  | load {m unit} : Does m (.load unit) (m.load unit).2 []
  | bind {m key f} : Does m (.bind key f) (m.bind key f) []
  | hold {m pinned} : Does m (.hold pinned) { m with pinned } []
  | collect {m} : Does m .collect m.collect.2 []
  | allocate {m u cls c} :
      m.registry.lookup u cls = .ok c → Does m (.allocate u cls) (m.allocate c).2 []
  | perform {m op fuel r m'} :
      m.perform fuel op = some (r, m') → Does m (.perform op) m' (m.moments op fuel)

/-- A machine after some of the allowed acts, with the states that its runs went through. -/
inductive History (allowed : Act → Prop) : Machine → List State → Prop where
  | boot {options sink clock} : History allowed (.boot options sink clock) []
  | act {m past a m' seen} : History allowed m past → allowed a → Does m a m' seen →
      History allowed m' (past ++ seen)

/-! ## The program of a machine -/

/-- A registry that registrations have built. -/
abbrev Registry.Sound (r : Registry) : Prop := r.WF fun _ _ => True

theorem Library.registry_sound : Library.registry.Sound :=
  (Registry.registerUnit_wf_extends Registry.empty_wf fun _ _ => trivial).1

theorem Machine.load_extends {m : Machine} (hwf : m.registry.Sound) (unit : CompilationUnit) :
    (m.load unit).2.registry.Sound ∧ m.registry.Extends (m.load unit).2.registry := by
  have ho : (m.registry.openUnit unit.name).2.Sound := hwf.openUnit unit.name
  exact Registry.registerUnit_wf_extends ho fun _ _ => trivial

theorem Machine.load_store (m : Machine) (unit : CompilationUnit) : (m.load unit).2.store = m.store := rfl

theorem Machine.allocate_store (m : Machine) (c : Class) : ∃ h : Heap,
    h.objects = m.store.heap.objects ∧
      (m.allocate c).2 = { m with store := { m.store with heap := h.add c } } := by
  simp only [allocate, Heap.allocate]
  split
  · exact ⟨(m.store.heap.sweep m.roots).2, rfl, rfl⟩
  · exact ⟨m.store.heap, rfl, rfl⟩

theorem Does.sound {m m' : Machine} {a : Act} {seen : List State} (h : Does m a m' seen)
    (hwf : m.registry.Sound) : m'.registry.Sound := by
  cases h with
  | load => exact (Machine.load_extends hwf _).1
  | perform hp => rw [(Machine.perform_some hp).2]; exact hwf
  | _ => exact hwf

/-- An act runs an operation, or it runs nothing and leaves the static areas alone. -/
theorem Does.cases {m m' : Machine} {a : Act} {seen : List State} (h : Does m a m' seen) :
    (seen = [] ∧ m'.store.statics = m.store.statics) ∨
    ∃ op fuel r, a = .perform op ∧ m.perform fuel op = some (r, m') ∧ seen = m.moments op fuel := by
  cases h with
  | load => exact .inl ⟨rfl, by rw [Machine.load_store]⟩
  | bind | hold | collect => exact .inl ⟨rfl, rfl⟩
  | allocate =>
    obtain ⟨h, -, heq⟩ := Machine.allocate_store _ _
    exact .inl ⟨rfl, by rw [heq]⟩
  | perform hp => exact .inr ⟨_, _, _, rfl, hp, rfl⟩

theorem Starts.store {env : Env} {op : Operation} {σ : Store} {s : State} (h : Starts env op σ s) :
    s.store = σ := by
  cases h <;> rfl

/-- A run starts with the store of the machine. -/
theorem Machine.start_store (m : Machine) (op : Operation) : (m.moment op 0).store = m.store :=
  (start_starts m.env op m.store).store

theorem History.sound {allowed : Act → Prop} {m : Machine} {past : List State}
    (h : History allowed m past) : m.registry.Sound := by
  induction h with
  | boot => exact Library.registry_sound
  | act _ _ hd ih => exact hd.sound ih

/-! ## Invariants -/

/-- `S` holds of the store between acts and `Q` of every state of a run. -/
structure Invariant (allowed : Act → Prop) (S : Registry → Store → Prop) (Q : Env → State → Prop) :
    Prop where
  boot : ∀ sink clock, S Library.registry { sink, clock }
  load : ∀ {r r' σ}, r.Sound → r'.Sound → r.Extends r' → S r σ → S r' σ
  track : ∀ {r σ} {h : Heap}, h.objects = σ.heap.objects → S r σ → S r { σ with heap := h }
  allocate : ∀ {r σ u cls c} {h : Heap}, r.Sound → allowed (.allocate u cls) →
    r.lookup u cls = .ok c → h.objects = σ.heap.objects → S r σ → S r { σ with heap := h.add c }
  start : ∀ {env : Env} {op σ s}, env.registry.Sound → allowed (.perform op) →
    Starts env op σ s → S env.registry σ → Q env s
  step : ∀ {env : Env} {s s'}, env.registry.Sound → Transition env s s' → Q env s → Q env s'
  stop : ∀ {env : Env} {s r}, s.outcome? = some r → Q env s → S env.registry s.store

namespace Invariant

variable {allowed : Act → Prop} {S : Registry → Store → Prop} {Q : Env → State → Prop}

/-- The states of a run keep the invariant. -/
theorem run (inv : Invariant allowed S Q) {m : Machine} {op : Operation} (hwf : m.registry.Sound)
    (hop : allowed (.perform op)) (hS : S m.registry m.store) (n : Nat) : Q m.env (m.moment op n) := by
  induction n with
  | zero => exact inv.start hwf hop (start_starts m.env op m.store) hS
  | succ n ih => exact m.moment_succ op n ▸ inv.step hwf (State.step_transition _ _) ih

theorem act (inv : Invariant allowed S Q) {m m' : Machine} {a : Act} {seen : List State}
    (hwf : m.registry.Sound) (ha : allowed a) (hd : Does m a m' seen) (hS : S m.registry m.store) :
    S m'.registry m'.store ∧ ∀ s ∈ seen, Q m.env s := by
  cases hd with
  | load =>
    obtain ⟨hwf', hx⟩ := Machine.load_extends hwf _
    rw [Machine.load_store]
    exact ⟨inv.load hwf hwf' hx hS, by simp⟩
  | bind => exact ⟨hS, by simp⟩
  | hold => exact ⟨hS, by simp⟩
  | collect => exact ⟨inv.track rfl hS, by simp⟩
  | allocate hc =>
    obtain ⟨h, hobj, heq⟩ := m.allocate_store _
    rw [heq]
    exact ⟨inv.allocate hwf ha hc hobj hS, by simp⟩
  | perform hp =>
    have hrun := inv.run hwf ha hS
    obtain ⟨hr, rfl⟩ := Machine.perform_some hp
    refine ⟨inv.stop hr (hrun _), fun s hs => ?_⟩
    obtain ⟨i, -, rfl⟩ := Machine.mem_moments.1 hs
    exact hrun i

/-- Between acts the store keeps the invariant. -/
theorem between (inv : Invariant allowed S Q) {m : Machine} {past : List State}
    (h : History allowed m past) : S m.registry m.store := by
  induction h with
  | boot => exact inv.boot _ _
  | act h ha hd ih => exact (inv.act h.sound ha hd ih).1

/-- Every state that a history went through keeps the invariant. -/
theorem past (inv : Invariant allowed S Q) {m : Machine} {past : List State}
    (h : History allowed m past) : ∀ s ∈ past, ∃ env : Env, env.registry.Sound ∧ Q env s := by
  induction h with
  | boot => simp
  | act h ha hd ih =>
    intro s hs
    rcases List.mem_append.1 hs with hs | hs
    · exact ih s hs
    · exact ⟨_, h.sound, (inv.act h.sound ha hd (inv.between h)).2 s hs⟩

/-- Every state of an operation performed after a history keeps the invariant. -/
theorem moment (inv : Invariant allowed S Q) {m : Machine} {past : List State}
    (h : History allowed m past) {op : Operation} (hop : allowed (.perform op)) (n : Nat) :
    Q m.env (m.moment op n) := inv.run h.sound hop (inv.between h) n

/-- So does every state up to some moment of a further operation. -/
theorem trace (inv : Invariant allowed S Q) {m : Machine} {past : List State}
    (h : History allowed m past) {op : Operation} (hop : allowed (.perform op)) (n : Nat) :
    ∀ s ∈ past ++ m.moments op n, ∃ env : Env, env.registry.Sound ∧ Q env s := by
  intro s hs
  rcases List.mem_append.1 hs with hs | hs
  · exact inv.past h s hs
  · obtain ⟨i, -, rfl⟩ := Machine.mem_moments.1 hs
    exact ⟨m.env, h.sound, inv.moment h hop i⟩

end Invariant

end ObjectMachine
