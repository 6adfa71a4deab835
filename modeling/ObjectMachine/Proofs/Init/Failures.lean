/-
Failed initializations and the errors that tell of them. A class fails in one place only: where an
error on its way up passes the initialization of the class, which records the error as its cause and
wraps it (`FailStep`). Nothing takes an error back, so the classes that fail in one operation are those
that its error passes, one after the other. `failures_reported` says that the error tells of exactly
these first, the last one outermost, and after them only of classes that had failed before.
-/
import ObjectMachine.Proofs.Init.Progress

namespace ObjectMachine

/-! ## Definitions -/

/-- The initialization of the class has failed. -/
def InitState.IsFailed (st : InitState) : Prop := ∃ cause, st = .failed cause

/-- The failed initializations that an error tells of, outermost first: the name of the class with
the cause. -/
def Failure.initFailures : Failure → List (String × Failure)
  | .staticInitFailed cls cause => (cls, cause) :: cause.initFailures
  | _ => []

/-- The error tells only of classes that have failed, each with the cause recorded for it. -/
def Failure.Recorded (r : Registry) (t : Statics) (e : Failure) : Prop :=
  ∀ n ∈ e.initFailures, ∃ c, r.Has c ∧ c.name = n.1 ∧ t.state c = .failed n.2

/-- The causes of failed classes tell only of classes that have failed. -/
def Store.Recorded (r : Registry) (σ : Store) : Prop :=
  ∀ id cause, σ.statics.stateOf id = .failed cause → cause.Recorded r σ.statics

/-- So do the causes in a state of a run, and the error that is on its way up. -/
structure State.Recorded (env : Env) (s : State) : Prop where
  store : s.store.Recorded env.registry
  raised : ∀ e, s.control = .raise e → e.Recorded env.registry s.store.statics

/-- What a step does to failed classes and to the error on its way up. -/
inductive FailStep (env : Env) (s s' : State) : Prop where
  /-- No class fails, and no error is raised. -/
  | keep : (∀ id cause, s'.store.statics.stateOf id = .failed cause ↔
      s.store.statics.stateOf id = .failed cause) →
      (∀ e, s'.control = .raise e ↔ s.control = .raise e) → FailStep env s s'
  /-- An error that tells of no class is raised. -/
  | raise {e} : s'.store.statics = s.store.statics → (∀ e, s.control ≠ .raise e) →
      s'.control = .raise e → e.initFailures = [] → FailStep env s s'
  /-- The failure of a class is raised again. -/
  | again {c cause} : s'.store.statics = s.store.statics → s.control = .init c →
      s.store.statics.state c = .failed cause →
      s'.control = .raise (.staticInitFailed c.name cause) → FailStep env s s'
  /-- An error passes the initialization of a class. -/
  | wrap {c e K} : s.control = .raise e → s.stack = .initializing c :: K →
      s'.store.statics = s.store.statics.setState c (.failed e) →
      s'.control = .raise (.staticInitFailed c.name e) → FailStep env s s'

/-- In the course of an operation, `b` has failed at a moment when `c` has not. -/
def Machine.FailsBefore (m : Machine) (op : Operation) (b c : Class) : Prop :=
  ∃ i, ((m.moment op i).store.statics.state b).IsFailed ∧
    ¬ ((m.moment op i).store.statics.state c).IsFailed

/-- The classes that have failed since the operation began, each with its cause, the last one first. -/
structure Machine.Fails (m : Machine) (op : Operation) (t : Statics) (fresh : List (Class × Failure)) :
    Prop where
  mem_iff : ∀ c cause, (c, cause) ∈ fresh ↔
    m.registry.Has c ∧ ¬ (m.store.statics.state c).IsFailed ∧ t.state c = .failed cause
  order : fresh.Pairwise fun a b => m.FailsBefore op b.1 a.1

/-! ## Steps -/

section Steps

variable {env : Env} {s s' : State}

theorem Failure.IsCheck.initFailures {e : Failure} (h : e.IsCheck) : e.initFailures = [] := by
  cases e with
  | staticInitFailed => exact h.elim
  | _ => rfl

theorem Runs.ne_raise {f : Frame} {c : Control} {K K' : List Cont} (h : Runs f c K K') (e : Failure) :
    c ≠ .raise e := by
  cases h <;> exact Control.noConfusion

theorem Transition.failStep (h : Transition env s s') (hn : s.Nested env) : FailStep env s s' := by
  -- most steps neither meet nor raise an error
  have hquiet {c c' : Control} (hc : ∀ e, c ≠ .raise e) (hc' : ∀ e, c' ≠ .raise e) :
      ∀ e, c' = .raise e ↔ c = .raise e := fun e => iff_of_false (hc' e) (hc e)
  cases h with
  | go h | evaluate h | answer h | access h | callVirtual h | callSuper h | enterSuper h =>
    exact .keep (fun _ _ => Iff.rfl) (hquiet h.ne_raise fun _ => Control.noConfusion)
  | fail h he => exact .raise rfl h.ne_raise rfl he.initFailures
  | superOverflow h => exact .raise rfl h.ne_raise rfl rfl
  | failWrite he | operateFail _ he | giveFail _ he | hostFail _ he | createFail _ he | staticFail he
  | thenReadFail he | thenWriteFail he =>
    exact .raise rfl (fun _ => Control.noConfusion) rfl he.initFailures
  | enterOverflow | createOverflow => exact .raise rfl (fun _ => Control.noConfusion) rfl rfl
  | initFailed hf => exact .again rfl rfl hf rfl
  | unwindInit => exact .wrap rfl rfl rfl rfl
  | unwindActivation | unwind => exact .keep (fun _ _ => Iff.rfl) fun _ => Iff.rfl
  | ended => exact .keep (fun _ _ => Iff.rfl) fun _ => Iff.rfl
  | hostService hst =>
    exact .keep (fun id cause => by rw [hst])
      (hquiet (fun _ => Control.noConfusion) fun _ => Control.noConfusion)
  | storeStatic | thenWrite =>
    exact .keep (fun id cause => by rw [Statics.stateOf_setCell])
      (hquiet (fun _ => Control.noConfusion) fun _ => Control.noConfusion)
  | @initParent c _ _ _ _ hpend | @initRoot c _ _ _ hpend =>
    refine .keep (fun id cause => ?_) (hquiet (fun _ => Control.noConfusion) fun _ => Control.noConfusion)
    rw [Statics.stateOf_setState]
    split
    · rename_i hid
      rw [hid, show Statics.stateOf _ c.id = .pending from hpend]
      exact iff_of_false InitState.noConfusion InitState.noConfusion
    · exact Iff.rfl
  | @initDone c =>
    refine .keep (fun id cause => ?_) (hquiet (fun _ => Control.noConfusion) fun _ => Control.noConfusion)
    rw [Statics.stateOf_setState]
    split
    · -- the class was being initialized
      rename_i hid
      rw [hid, show Statics.stateOf _ c.id = .running from hn.running.of_initializing List.mem_cons_self]
      exact iff_of_false InitState.noConfusion InitState.noConfusion
    · exact Iff.rfl
  | _ =>
    exact .keep (fun _ _ => Iff.rfl) (hquiet (fun _ => Control.noConfusion) fun _ => Control.noConfusion)

/-- A class that has failed stays so. -/
theorem Transition.failed (h : Transition env s s') (hn : s.Nested env) {id : ClassId} {cause : Failure}
    (hf : s.store.statics.stateOf id = .failed cause) : s'.store.statics.stateOf id = .failed cause := by
  have hmoves := h.moves hn id
  rw [hf] at hmoves
  exact hmoves.settled trivial

theorem Failure.Recorded.mono {r r' : Registry} {t t' : Statics} {e : Failure} (h : e.Recorded r t)
    (hx : r.Extends r')
    (ht : ∀ {id cause}, t.stateOf id = .failed cause → t'.stateOf id = .failed cause) :
    e.Recorded r' t' := by
  intro n hn
  obtain ⟨c, hc, hname, hf⟩ := h n hn
  exact ⟨c, hx.has hc, hname, ht hf⟩

/-- An error that wraps the cause of a failed class tells of that class first. -/
theorem Failure.Recorded.wrap {r : Registry} {t : Statics} {c : Class} {cause : Failure} (hc : r.Has c)
    (hf : t.state c = .failed cause) (h : cause.Recorded r t) :
    (Failure.staticInitFailed c.name cause).Recorded r t := by
  intro n hn
  rcases List.mem_cons.1 hn with rfl | hn
  · exact ⟨c, hc, rfl, hf⟩
  · exact h n hn

theorem Transition.recorded (h : Transition env s s') (hf : s.Fits env) (hn : s.Nested env)
    (hs : s.Recorded env) : s'.Recorded env := by
  have hmono {e : Failure} (he : e.Recorded env.registry s.store.statics) :
      e.Recorded env.registry s'.store.statics := he.mono (.refl _) (h.failed hn)
  cases h.failStep hn with
  | keep hfailed hraise =>
    exact ⟨fun id cause hid => hmono (hs.store id cause ((hfailed id cause).1 hid)),
      fun e he => hmono (hs.raised e ((hraise e).1 he))⟩
  | raise hst _ hctl hnone =>
    refine ⟨fun id cause hid => hmono (hs.store id cause (hst ▸ hid)), fun e he => ?_⟩
    rw [hctl] at he
    cases he
    intro n hmem
    rw [hnone] at hmem
    cases hmem
  | @again c cause hst hinit hcause hctl =>
    refine ⟨fun id cause hid => hmono (hs.store id cause (hst ▸ hid)), fun e he => ?_⟩
    rw [hctl] at he
    cases he
    exact hmono (.wrap (hf.of_control hinit) hcause (hs.store c.id cause hcause))
  | @wrap c e K hraise hK hst hctl =>
    have hc : env.registry.Has c := hf.stack (.initializing c) (hK ▸ List.mem_cons_self)
    have hself : s'.store.statics.state c = .failed e := by
      unfold Statics.state
      rw [hst, Statics.stateOf_setState, if_pos rfl]
    refine ⟨fun id cause hid => ?_, fun e' he' => ?_⟩
    · rw [hst, Statics.stateOf_setState] at hid
      split at hid
      · cases hid
        exact hmono (hs.raised e hraise)
      · exact hmono (hs.store id cause hid)
    · rw [hctl] at he'
      cases he'
      exact .wrap hc hself (hmono (hs.raised e hraise))

end Steps

/-! ## Runs -/

/-- In every state of every history the recorded causes and the error on its way up tell only of
classes that have failed. -/
theorem recorded_invariant {allowed : Act → Prop} : Invariant allowed
    (fun r σ => σ.Fits r ∧ (∀ id, σ.statics.stateOf id ≠ .running) ∧ σ.Recorded r)
    fun env s => s.Fits env ∧ s.Nested env ∧ s.Recorded env where
  boot := fun _ _ => ⟨nofun, nofun, nofun⟩
  load := fun _ _ hx ⟨hf, hi, hs⟩ => ⟨hf.extends hx, hi, fun id cause hid => (hs id cause hid).mono hx fun hf => hf⟩
  track := fun _ hσ => hσ
  allocate := fun _ _ _ _ hσ => hσ
  start := by
    rintro env op σ s hwf - h ⟨hf, hi, hσ⟩
    refine ⟨h.fits hwf hf, h.nested hi, ?_, fun e he => ?_⟩
    · rw [h.store]
      exact hσ
    · -- an operation starts with no error but that of a check
      intro n hn
      cases h with
      | failed hcheck => cases he; rw [hcheck.initFailures] at hn; cases hn
      | _ => cases he
  step := fun hwf h ⟨hf, hn, hs⟩ => ⟨h.fits hwf hf, h.nested hn, h.recorded hf hn hs⟩
  stop := fun hr ⟨hf, hn, hs⟩ => ⟨hf.store, hn.idle (State.outcome?_some hr).1, hs.store⟩

section Runs

variable {allowed : Act → Prop} {m : Machine} {past : List State} {op : Operation}

/-- The next class fails after all that have failed before it. -/
theorem Machine.Fails.cons {fresh : List (Class × Failure)} (h : History allowed m past)
    (hop : allowed (.perform op)) {n : Nat} (hs : m.Fails op (m.moment op n).store.statics fresh)
    {c : Class} {e : Failure} (hc : m.registry.Has c)
    (hrun : (m.moment op n).store.statics.state c = .running) :
    m.Fails op ((m.moment op n).store.statics.setState c (.failed e)) ((c, e) :: fresh) := by
  have hnot : ¬ ((m.moment op n).store.statics.state c).IsFailed := by
    rintro ⟨cause, hf⟩
    rw [hrun] at hf
    cases hf
  refine ⟨fun d cause => ?_, List.pairwise_cons.2 ⟨fun b hb => ?_, hs.order⟩⟩
  · have hset : ((m.moment op n).store.statics.setState c (.failed e)).state d =
        if d.id = c.id then .failed e else (m.moment op n).store.statics.state d :=
      Statics.stateOf_setState _ _ _ _
    rw [List.mem_cons, hs.mem_iff, hset]
    split
    · rename_i hid
      constructor
      · rintro (heq | ⟨-, -, hf⟩)
        · cases heq
          refine ⟨hc, fun ⟨cause, hf⟩ => hnot ⟨cause, failed_moment h hop hf n⟩, rfl⟩
        · rw [Statics.state, hid] at hf
          exact absurd ⟨cause, hf⟩ hnot
      · rintro ⟨hd, -, heq⟩
        cases heq
        exact .inl (by rw [hd.unique hc hid])
    · rename_i hid
      have hne : (d, cause) ≠ (c, e) := fun heq => hid (by cases heq; rfl)
      rw [or_iff_right hne]
  · obtain ⟨b, cause⟩ := b
    exact ⟨n, ⟨cause, ((hs.mem_iff b cause).1 hb).2.2⟩, hnot⟩

/-- At every moment of an operation: if an error is on its way up it tells of the classes that have
failed so far, the last one first; otherwise none has failed. -/
theorem fails_moment (h : History allowed m past) (hop : allowed (.perform op)) (n : Nat) :
    ∃ fresh, m.Fails op (m.moment op n).store.statics fresh ∧
      ((∀ e, (m.moment op n).control ≠ .raise e) → fresh = []) ∧
      ∀ e, (m.moment op n).control = .raise e →
        fresh.map (fun f => (f.1.name, f.2)) <+: e.initFailures := by
  induction n with
  | zero =>
    refine ⟨[], ⟨fun c cause => ?_, .nil⟩, fun _ => rfl, fun e _ => List.nil_prefix⟩
    rw [m.start_store op]
    exact iff_of_false List.not_mem_nil fun ⟨_, hnot, hf⟩ => hnot ⟨cause, hf⟩
  | succ n ih =>
    obtain ⟨fresh, hs, hquiet, htold⟩ := ih
    have hnested := nested_invariant.moment h hop n
    have hfits := fits_invariant.moment h hop n
    have hstep := (State.step_transition m.env (m.moment op n)).failStep hnested
    rw [← m.moment_succ] at hstep
    cases hstep with
    | keep hfailed hraise =>
      refine ⟨fresh, ⟨fun c cause => ?_, hs.order⟩, fun hnot => ?_, fun e he => htold e ((hraise e).1 he)⟩
      · rw [hs.mem_iff]
        exact and_congr_right fun _ => and_congr_right fun _ => (hfailed c.id cause).symm
      · exact hquiet fun e he => hnot e ((hraise e).2 he)
    | raise hst hnot hctl =>
      rw [hquiet hnot] at hs
      rw [hst]
      exact ⟨[], hs, fun _ => rfl, fun e _ => List.nil_prefix⟩
    | again hst hinit =>
      have hnot : ∀ e, (m.moment op n).control ≠ .raise e := fun e he => by rw [hinit] at he; cases he
      rw [hquiet hnot] at hs
      rw [hst]
      exact ⟨[], hs, fun _ => rfl, fun e _ => List.nil_prefix⟩
    | @wrap c e K hraise hK hst hctl =>
      have hc : m.registry.Has c := hfits.stack (.initializing c) (hK ▸ List.mem_cons_self)
      have hrun := hnested.running.of_initializing (c := c) (hK ▸ List.mem_cons_self)
      rw [hst]
      refine ⟨(c, e) :: fresh, hs.cons h hop hc hrun, fun hnot => absurd hctl (hnot _), fun e' he' => ?_⟩
      rw [hctl] at he'
      cases he'
      exact List.prefix_cons_inj _ |>.2 (htold e hraise)

end Runs

/-! ## Main statement -/

/-- An operation that ends with an answer has left no class failed that was not failed before. If it
ends with an error, the error tells first of the classes that have failed in the course of the
operation, all of them, the one that failed last outermost; and it tells of no failure that is not
recorded, for a class of that name and with that cause, in the end. -/
theorem failures_reported {m m' : Machine} {past : List State} (h : History (fun _ => True) m past)
    {op : Operation} {fuel : Nat} {r : Except Failure (Option Value)}
    (hp : m.perform fuel op = some (r, m')) :
    ∃ fresh : List (Class × Failure), m.Fails op m'.store.statics fresh ∧
      (∀ v, r = .ok v → fresh = []) ∧
      ∀ e, r = .error e → fresh.map (fun f => (f.1.name, f.2)) <+: e.initFailures ∧
        e.Recorded m.registry m'.store.statics := by
  obtain ⟨hr, rfl⟩ := Machine.perform_some hp
  have hop : (fun _ : Act => True) (.perform op) := trivial
  obtain ⟨fresh, hs, hquiet, htold⟩ := fails_moment h hop fuel
  obtain ⟨-, -, hrecorded⟩ := recorded_invariant.moment h hop fuel
  -- what the run ends with is what its last state has come to
  rcases State.outcome?_cases hr with ⟨v, hv, rfl⟩ | ⟨e, he, rfl⟩
  · refine ⟨fresh, hs, fun _ _ => hquiet fun e he => ?_, nofun⟩
    rw [hv] at he
    cases he
  · refine ⟨fresh, hs, nofun, fun e' he' => ?_⟩
    cases he'
    exact ⟨htold e he, hrecorded.raised e he⟩

/-- An initializer that makes an instance of a class, whose initializer reads a static field of a third
one, whose initializer divides by zero. -/
def domino : CompilationUnit :=
  { name := "domino"
    classes := [{ name := "First", statics := [⟨"next", .reference, some (.create "Second" [])⟩] },
      { name := "Second", statics := [⟨"copy", .int, some (.getStatic "Third" "ratio")⟩] },
      { name := "Third", statics := [⟨"ratio", .int, some (.binary .div (.ofInt 1) (.ofInt 0))⟩] }] }

/-- The third class has failed before; the other two fail with the operation. -/
theorem failures_reported_domino : ∃ m past m', History (fun _ => True) m past ∧
    m.perform 30 (.getStatic 1 "First" "next") = some (.error (.staticInitFailed "First"
      (.staticInitFailed "Second" (.staticInitFailed "Third" .divisionByZero))), m') ∧
    m.store.statics.stateOf 5 = .failed .divisionByZero ∧
    ∃ fresh, m.Fails (.getStatic 1 "First" "next") m'.store.statics fresh ∧
      fresh.map (fun f => (f.1.name, f.2)) <+:
        [("First", .staticInitFailed "Second" (.staticInitFailed "Third" .divisionByZero)),
          ("Second", .staticInitFailed "Third" .divisionByZero), ("Third", .divisionByZero)] := by
  let loaded : Machine := (Machine.load (.boot {} {}) domino).2
  have hthird : ((loaded.moment (.getStatic 1 "Third" "ratio") 20).outcome?).isSome := by decide +kernel
  obtain ⟨r, hr⟩ := Option.isSome_iff_exists.1 hthird
  let m : Machine := { loaded with store := (loaded.moment (.getStatic 1 "Third" "ratio") 20).store }
  have hboot : History (fun _ => True) (.boot {} {}) [] := .boot
  have hload : Does (.boot {} {}) (.load domino) loaded [] := .load
  have h := (hboot.act trivial hload).act trivial (.perform (Machine.perform_of_outcome? le_rfl hr))
  have hend : (m.moment (.getStatic 1 "First" "next") 30).outcome? = some (.error (.staticInitFailed "First"
      (.staticInitFailed "Second" (.staticInitFailed "Third" .divisionByZero)))) := by decide +kernel
  have hp := Machine.perform_of_outcome? le_rfl hend
  obtain ⟨fresh, hs, -, htold⟩ := failures_reported h hp
  refine ⟨m, _, _, h, hp, ?_, fresh, hs, (htold _ rfl).1⟩
  decide +kernel

end ObjectMachine
