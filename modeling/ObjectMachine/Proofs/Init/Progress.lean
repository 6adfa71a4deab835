/-
How the state of a class changes. A step leaves the state of every class as it is, or begins or ends
the initialization of one class (`Transition.statics`); so along every history a class goes through
`Moves` only, from pending on, and a settled class stays as it is.
-/
import ObjectMachine.Proofs.Init.Nesting

namespace ObjectMachine

/-! ## Definitions -/

/-- The state of a class will not change again. -/
def InitState.IsSettled : InitState → Prop
  | .done | .failed _ => True
  | .pending | .running => False

/-- The states that a class goes through along a trace, before which it is pending. -/
def progress (id : ClassId) (trace : List State) : List InitState :=
  .pending :: trace.map (·.store.statics.stateOf id)

/-! ## Steps -/

section Steps

variable {env : Env} {s s' : State}

/-- What a step does to the static areas. -/
theorem Transition.statics (h : Transition env s s') :
    (∀ id, s'.store.statics.stateOf id = s.store.statics.stateOf id) ∨
    (∃ c, s.control = .init c ∧ s.store.statics.state c = .pending ∧
      s'.store.statics = s.store.statics.setState c .running ∧
      ∀ p, env.registry.parent? c = some p → s'.control = .init p) ∨
    ∃ c K st, s.stack = .initializing c :: K ∧ st.IsSettled ∧
      s'.store.statics = s.store.statics.setState c st := by
  cases h with
  | hostService hst => exact .inl fun id => by rw [hst]
  | initParent hpend hparent =>
    exact .inr (.inl ⟨_, rfl, hpend, rfl, fun p hp => by rw [hparent] at hp; cases hp; rfl⟩)
  | initRoot hpend hparent =>
    exact .inr (.inl ⟨_, rfl, hpend, rfl, fun p hp => by rw [hparent] at hp; cases hp⟩)
  | storeStatic | thenWrite => exact .inl fun id => Statics.stateOf_setCell _ _ _ _ _
  | initDone => exact .inr (.inr ⟨_, _, .done, rfl, trivial, rfl⟩)
  | @unwindInit _ e => exact .inr (.inr ⟨_, _, .failed e, rfl, trivial, rfl⟩)
  | _ => exact .inl fun id => rfl

/-- The states of classes move. -/
theorem Transition.moves (h : Transition env s s') (hs : s.Nested env) (id : ClassId) :
    (s.store.statics.stateOf id).Moves (s'.store.statics.stateOf id) := by
  rcases h.statics with heq | ⟨c, -, hpend, heq, -⟩ | ⟨c, K, st, hK, hst, heq⟩
  · rw [heq]; exact .stay
  · rw [heq, Statics.stateOf_setState]
    split
    · rename_i hid
      rw [hid, show s.store.statics.stateOf c.id = .pending from hpend]
      exact .begin
    · exact .stay
  · rw [heq, Statics.stateOf_setState]
    split
    · rename_i hid
      have hrun := hs.running.of_initializing (c := c) (by rw [hK]; exact List.mem_cons_self)
      rw [hid, show s.store.statics.stateOf c.id = .running from hrun]
      cases st with
      | done => exact .finish
      | failed cause => exact .fail
      | pending => exact hst.elim
      | running => exact hst.elim
    · exact .stay

/-- What has begun is never pending again. -/
theorem Transition.begun (h : Transition env s s') {id : ClassId}
    (hb : (s.store.statics.stateOf id).Begun) : (s'.store.statics.stateOf id).Begun := by
  intro hpend
  rcases h.statics with heq | ⟨c, -, -, heq, -⟩ | ⟨c, K, st, -, hst, heq⟩
  · exact hb (heq id ▸ hpend)
  · rw [heq, Statics.stateOf_setState] at hpend
    split at hpend
    · cases hpend
    · exact hb hpend
  · rw [heq, Statics.stateOf_setState] at hpend
    split at hpend
    · rw [hpend] at hst; exact hst
    · exact hb hpend

end Steps

theorem InitState.Moves.settled {a b : InitState} (h : a.Moves b) (ha : a.IsSettled) : b = a := by
  cases h with
  | stay => rfl
  | begin => exact ha.elim
  | finish => exact ha.elim
  | fail => exact ha.elim

/-! ## Histories -/

section Histories

variable {allowed : Act → Prop} {m : Machine} {past : List State}

/-- The states of a class along a run, after what it has gone through before. -/
theorem progress_run (h : History allowed m past) {id : ClassId}
    (hpast : (progress id past).IsChain InitState.Moves)
    (hlast : (progress id past).getLast? = some (m.store.statics.stateOf id)) {op : Operation}
    (hop : allowed (.perform op)) (n : Nat) :
    (progress id (past ++ m.moments op n)).IsChain InitState.Moves ∧
    (progress id (past ++ m.moments op n)).getLast? = some ((m.moment op n).store.statics.stateOf id) := by
  have hsnoc : ∀ (xs : List State) s,
      progress id (xs ++ [s]) = progress id xs ++ [s.store.statics.stateOf id] := by
    intro xs s
    simp [progress]
  induction n with
  | zero =>
    rw [show m.moments op 0 = [m.moment op 0] from rfl, hsnoc]
    refine ⟨List.isChain_append.2 ⟨hpast, List.isChain_singleton _, fun x hx y hy => ?_⟩, by simp⟩
    rw [hlast] at hx
    cases hx
    cases hy
    rw [m.start_store op]
    exact .stay
  | succ n ih =>
    obtain ⟨hchain, hend⟩ := ih
    rw [Machine.moments_succ, ← List.append_assoc, hsnoc]
    refine ⟨List.isChain_append.2 ⟨hchain, List.isChain_singleton _, fun x hx y hy => ?_⟩, by simp⟩
    rw [hend] at hx
    cases hx
    cases hy
    rw [m.moment_succ]
    exact (State.step_transition _ _).moves (nested_invariant.moment h hop n) id

/-- Along a history every class goes through `Moves` only, and has come to its state now. -/
theorem progress_moves (h : History allowed m past) (id : ClassId) :
    (progress id past).IsChain InitState.Moves ∧
    (progress id past).getLast? = some (m.store.statics.stateOf id) := by
  induction h with
  | boot => exact ⟨List.isChain_singleton _, rfl⟩
  | act h ha hd ih =>
    obtain ⟨hchain, hlast⟩ := ih
    rcases hd.cases with ⟨rfl, heq⟩ | ⟨op, fuel, r, rfl, hp, rfl⟩
    · rw [List.append_nil, heq]
      exact ⟨hchain, hlast⟩
    · rw [(Machine.perform_some hp).2]
      exact progress_run h hchain hlast ha fuel

/-- A class that is settled at some moment of an operation stays so. -/
theorem settled_moment (h : History allowed m past) {op : Operation} (hop : allowed (.perform op))
    {id : ClassId} {i j : Nat} (hij : i ≤ j)
    (hs : ((m.moment op i).store.statics.stateOf id).IsSettled) :
    (m.moment op j).store.statics.stateOf id = (m.moment op i).store.statics.stateOf id := by
  induction j, hij using Nat.le_induction with
  | base => rfl
  | succ j _ ih =>
    rw [← ih] at hs ⊢
    rw [m.moment_succ]
    exact ((State.step_transition _ _).moves (nested_invariant.moment h hop j) id).settled hs

/-- What had failed before an operation is failed at every moment of it. -/
theorem failed_moment (h : History allowed m past) {op : Operation} (hop : allowed (.perform op))
    {id : ClassId} {cause : Failure} (hf : m.store.statics.stateOf id = .failed cause) (n : Nat) :
    (m.moment op n).store.statics.stateOf id = .failed cause := by
  rw [← m.start_store op] at hf
  rw [settled_moment h hop (Nat.zero_le n) (by rw [hf]; trivial), hf]

/-- A settled class stays as it is. -/
theorem progress_settled {trace : List State} {id : ClassId}
    (h : (progress id trace).IsChain InitState.Moves) :
    trace.Pairwise fun s t => (s.store.statics.stateOf id).IsSettled →
      t.store.statics.stateOf id = s.store.statics.stateOf id := by
  let Stays (a b : InitState) : Prop := a.IsSettled → b = a
  have htrans : Trans Stays Stays Stays :=
    ⟨fun {a b c} hab hbc ha => by
      have hb := hab ha
      rw [hbc (hb ▸ ha), hb]⟩
  have hstays : (progress id trace).IsChain Stays := h.imp fun a b hab => hab.settled
  have hpair := List.isChain_iff_pairwise.1 hstays
  exact List.pairwise_map.1 (List.pairwise_cons.1 hpair).2

end Histories

end ObjectMachine
