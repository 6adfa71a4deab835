/-
What user code can do to the bundled classes. Stream objects and boxed integers never fail, and the
class of the standard streams fails in one way only: its initialization begins, at the first access
to it, when as many bodies are active as the limit on the call depth allows. Where a run ends up from
the moment at which an initialization begins is known (`leads_constant`, `leads_streams`,
`leads_spent`), and a settled class stays as it is; so whatever the run does later, the class has
come to that.
-/
import ObjectMachine.Proofs.Exec.Depth
import ObjectMachine.Proofs.Library.Startup
import ObjectMachine.Proofs.Store.Typing

namespace ObjectMachine

/-! ## Definitions -/

/-- In the trace the initialization of the class has begun at a moment when the limit on the call depth
was reached. -/
def BegunSpent (trace : List State) (limit : Nat) (c : Class) : Prop :=
  ∃ s ∈ trace, s.Begins c ∧ s.depth = limit

/-- Stream objects and boxed integers have not failed, and the standard streams only because their
initialization has begun, in the trace, with the limit on the call depth reached. -/
structure LibraryUsable (ps sys long : Class) (limit : Nat) (trace : List State) (t : Statics) : Prop where
  printStream : ¬ (t.state ps).IsFailed
  long : ¬ (t.state long).IsFailed
  system : ∀ cause, t.state sys = .failed cause → cause = .stackOverflow limit ∧ BegunSpent trace limit sys

theorem BegunSpent.mono {trace trace' : List State} {limit : Nat} {c : Class}
    (h : BegunSpent trace limit c) (hsub : trace ⊆ trace') : BegunSpent trace' limit c :=
  let ⟨s, hs, hb⟩ := h
  ⟨s, hsub hs, hb⟩

theorem LibraryUsable.mono {ps sys long : Class} {limit : Nat} {trace trace' : List State} {t : Statics}
    (h : LibraryUsable ps sys long limit trace t) (hsub : trace ⊆ trace') :
    LibraryUsable ps sys long limit trace' t :=
  ⟨h.printStream, h.long, fun cause hf => (h.system cause hf).imp_right (·.mono hsub)⟩

theorem State.Begins.eq {s : State} {c : Class} (h : s.Begins c) :
    ∃ K σ, s = ⟨.init c, K, s.depth, σ⟩ ∧ σ.statics.state c = .pending :=
  ⟨s.stack, s.store, by rw [← h.1], h.2⟩

/-! ## Classes that have begun in a run -/

/-- Only the step that begins its initialization takes a class out of its pending state. -/
theorem Transition.begins {env : Env} {s s' : State} {c : Class} (h : Transition env s s')
    (hf : s.Fits env) (hn : s.Nested env) (hc : env.registry.Has c)
    (hpend : s.store.statics.state c = .pending) (hb : (s'.store.statics.state c).Begun) : s.Begins c := by
  -- the step that changes the state of another class leaves this one pending
  have hother {d : Class} {st : InitState} (heq : s'.store.statics = s.store.statics.setState d st)
      (hid : c.id ≠ d.id) : False := by
    rw [heq, Statics.state, Statics.stateOf_setState, if_neg hid] at hb
    exact hb hpend
  rcases h.statics with heq | ⟨d, hinit, -, heq, -⟩ | ⟨d, K, st, hK, -, heq⟩
  · exact absurd ((heq c.id).trans hpend) hb
  · by_cases hid : c.id = d.id
    · obtain rfl := hc.unique (hf.of_control hinit) hid
      exact ⟨hinit, hpend⟩
    · exact (hother heq hid).elim
  · by_cases hid : c.id = d.id
    · have hrun : s.store.statics.state d = .running := hn.running.of_initializing (hK ▸ List.mem_cons_self)
      rw [Statics.state, ← hid] at hrun
      exact absurd (hpend.symm.trans hrun) InitState.noConfusion
    · exact (hother heq hid).elim

/-- What a moment of a run leads to is a moment of it. -/
theorem State.Leads.moment {m : Machine} {op : Operation} {k : Nat} {t : State}
    (h : State.Leads m.env (m.moment op k) t) : ∃ n, m.moment op n = t := by
  obtain ⟨n, rfl⟩ := h
  exact ⟨n + k, Function.iterate_add_apply _ _ _ _⟩

section Runs

variable {allowed : Act → Prop} {m : Machine} {past : List State} {op : Operation} {c : Class}
  (h : History allowed m past) (hop : allowed (.perform op))

include h hop

/-- A class that was pending before an operation and is not so any more has begun in between. -/
theorem begins_of_begun (hc : m.registry.Has c) (hpend : m.store.statics.state c = .pending) {n : Nat}
    (hb : ((m.moment op n).store.statics.state c).Begun) : ∃ k < n, (m.moment op k).Begins c := by
  induction n with
  | zero => rw [m.start_store op] at hb; exact absurd hpend hb
  | succ n ih =>
    by_cases hn : (m.moment op n).store.statics.state c = .pending
    · rw [m.moment_succ] at hb
      have hbegins := (State.step_transition m.env (m.moment op n)).begins (fits_invariant.moment h hop n)
        (nested_invariant.moment h hop n) hc hn hb
      exact ⟨n, Nat.lt_succ_self n, hbegins⟩
    · obtain ⟨k, hk, hbegins⟩ := ih hn
      exact ⟨k, Nat.lt_succ_of_lt hk, hbegins⟩

/-- A class that fails in the course of an operation has begun in it. -/
theorem begins_of_failed (hc : m.registry.Has c) (hfresh : ¬ (m.store.statics.state c).IsFailed)
    {n : Nat} (hf : ((m.moment op n).store.statics.state c).IsFailed) : ∃ k < n, (m.moment op k).Begins c := by
  obtain ⟨cause, hcause⟩ := hf
  cases hst : m.store.statics.state c with
  | pending => exact begins_of_begun h hop hc hst (by rw [hcause]; exact InitState.noConfusion)
  | running => exact absurd hst (nested_invariant.between h c.id)
  | failed cause => exact absurd ⟨cause, hst⟩ hfresh
  | done =>
    -- it would still be so
    have hstart : (m.moment op 0).store.statics.stateOf c.id = .done := by rw [m.start_store op]; exact hst
    have hstill := settled_moment h hop (Nat.zero_le n) (by rw [hstart]; trivial)
    rw [hstart] at hstill
    rw [Statics.state, hstill] at hcause
    cases hcause

/-- Where the class is settled, it has come to what any moment of the run leads to. -/
theorem settled_leads {k n : Nat} {t : State} (hleads : State.Leads m.env (m.moment op k) t)
    (ht : (t.store.statics.state c).IsSettled)
    (hn : ((m.moment op n).store.statics.state c).IsSettled) :
    (m.moment op n).store.statics.state c = t.store.statics.state c := by
  obtain ⟨i, rfl⟩ := hleads.moment
  rcases le_total i n with hle | hle
  · exact settled_moment h hop hle ht
  · exact (settled_moment h hop hle hn).symm

/-- A class with constants only does not fail. -/
theorem constant_usable (hc : m.registry.Has c) (hconst : c.source.IsConstant)
    (hfresh : ¬ (m.store.statics.state c).IsFailed) (n : Nat) :
    ¬ ((m.moment op n).store.statics.state c).IsFailed := by
  rintro ⟨cause, hcause⟩
  obtain ⟨k, -, hbegins⟩ := begins_of_failed h hop hc hfresh ⟨cause, hcause⟩
  obtain ⟨K, σ, hs, hpend⟩ := hbegins.eq
  have hwf : m.env.registry.Sound := h.sound
  obtain ⟨σ', -, hdone, hleads⟩ := leads_constant (m.moment op k).depth K hwf hc hconst hpend
  rw [← hs] at hleads
  have heq := settled_leads h hop hleads (by rw [hdone]; trivial) (by rw [hcause]; trivial)
  rw [hcause, hdone] at heq
  cases heq

end Runs

/-! ## The standard streams in a run -/

section Streams

variable {allowed : Act → Prop} {m : Machine} {past : List State} {op : Operation} {ps sys : Class}
  (h : History allowed m past) (hop : allowed (.perform op))
  (hps : Library.registry.Bundles Library.printStream ps) (hsys : Library.registry.Bundles Library.system sys)
  (husable : ¬ (m.store.statics.state ps).IsFailed)

include h hop hps hsys husable

/-- What the initialization of the standard streams comes to where it begins. -/
theorem streams_lead {k : Nat} (hbegins : (m.moment op k).Begins sys) :
    ∃ t, State.Leads m.env (m.moment op k) t ∧ t.store.statics.state sys =
      if (m.moment op k).depth < m.options.maxCallDepth then .done
      else .failed (.stackOverflow m.options.maxCallDepth) := by
  have hwf : m.env.registry.Sound := h.sound
  have hps' : m.env.registry.Bundles Library.printStream ps := h.bundles hps
  have hsys' : m.env.registry.Bundles Library.system sys := h.bundles hsys
  have husable' := constant_usable h hop hps'.has (hps.source_eq ▸ Library.printStream_isConstant) husable k
  obtain ⟨K, σ, hs, hpend⟩ := hbegins.eq
  generalize m.moment op k = s at hs husable' ⊢
  rw [hs] at husable' ⊢
  split
  · rename_i hdepth
    obtain ⟨σ', hdone, hleads⟩ := leads_streams hwf hps' hsys' K hdepth husable' hpend
    exact ⟨_, hleads, hdone⟩
  · rename_i hdepth
    obtain ⟨e, σ', hfailed, hleads⟩ :=
      leads_spent hwf hps' hsys' K (Nat.le_of_not_lt hdepth) husable' hpend
    exact ⟨_, hleads, hfailed⟩

/-- If they fail in the course of an operation, their initialization has begun in it with the limit on
the call depth reached. -/
theorem streams_usable (hfresh : ¬ (m.store.statics.state sys).IsFailed) {n : Nat} {cause : Failure}
    (hcause : (m.moment op n).store.statics.state sys = .failed cause) :
    cause = .stackOverflow m.options.maxCallDepth ∧ BegunSpent (m.moments op n) m.options.maxCallDepth sys := by
  obtain ⟨k, hk, hbegins⟩ := begins_of_failed h hop (h.bundles hsys).has hfresh ⟨cause, hcause⟩
  obtain ⟨t, hleads, ht⟩ := streams_lead h hop hps hsys husable hbegins
  have hsettled : (t.store.statics.state sys).IsSettled := by rw [ht]; split <;> trivial
  have heq := settled_leads h hop hleads hsettled (by rw [hcause]; trivial)
  rw [hcause, ht] at heq
  split at heq
  · cases heq
  · rename_i hdepth
    cases heq
    have hbound := (counts_invariant.moment h hop k).bound
    exact ⟨rfl, m.moment op k, Machine.mem_moments.2 ⟨k, hk.le, rfl⟩, hbegins,
      le_antisymm hbound (Nat.le_of_not_lt hdepth)⟩

/-- If it has begun so in an operation that has come to its end, they have failed. -/
theorem streams_failed {n : Nat} {r : Except Failure (Option Value)}
    (hr : (m.moment op n).outcome? = some r)
    (hspent : BegunSpent (m.moments op n) m.options.maxCallDepth sys) :
    ((m.moment op n).store.statics.state sys).IsFailed := by
  obtain ⟨s, hs, hbegins, hdepth⟩ := hspent
  obtain ⟨k, -, rfl⟩ := Machine.mem_moments.1 hs
  obtain ⟨t, hleads, ht⟩ := streams_lead h hop hps hsys husable hbegins
  rw [if_neg (Nat.not_lt.2 (ge_of_eq hdepth))] at ht
  obtain ⟨i, rfl⟩ := hleads.moment
  have hlater : (m.moment op (max i n)).store.statics.state sys =
      .failed (.stackOverflow m.options.maxCallDepth) :=
    (settled_moment h hop (le_max_left i n) (by rw [← Statics.state, ht]; trivial)).trans ht
  rw [Machine.moment_ended hr (le_max_right i n)] at hlater
  exact ⟨_, hlater⟩

end Streams

/-! ## The bundled classes in a history -/

/-- No act changes the options of a machine. -/
theorem Does.options {m m' : Machine} {a : Act} {seen : List State} (h : Does m a m' seen) :
    m'.options = m.options := by
  cases h with
  | perform hp => rw [(Machine.perform_some hp).2]
  | _ => rfl

section Histories

variable {allowed : Act → Prop} {m : Machine} {past : List State} {ps sys long : Class}
  (h : History allowed m past) (hps : Library.registry.Bundles Library.printStream ps)
  (hsys : Library.registry.Bundles Library.system sys) (hlong : Library.registry.Bundles Library.long long)

include h hps hsys hlong

/-- An operation keeps the bundled classes usable. -/
theorem library_moment
    (hu : LibraryUsable ps sys long m.options.maxCallDepth past m.store.statics) {op : Operation}
    (hop : allowed (.perform op)) (n : Nat) : LibraryUsable ps sys long m.options.maxCallDepth
      (past ++ m.moments op n) (m.moment op n).store.statics := by
  refine ⟨?_, ?_, fun cause hcause => ?_⟩
  · exact constant_usable h hop (h.bundles hps).has (hps.source_eq ▸ Library.printStream_isConstant)
      hu.printStream n
  · exact constant_usable h hop (h.bundles hlong).has (hlong.source_eq ▸ Library.long_isConstant) hu.long n
  · by_cases hfresh : (m.store.statics.state sys).IsFailed
    · -- they had failed before
      obtain ⟨cause', hf⟩ := hfresh
      have hstill := failed_moment h hop hf n
      rw [Statics.state, hstill] at hcause
      cases hcause
      exact (hu.system cause hf).imp_right (·.mono (List.subset_append_left _ _))
    · obtain ⟨heq, hspent⟩ := streams_usable h hop hps hsys hu.printStream hfresh hcause
      exact ⟨heq, hspent.mono (List.subset_append_right _ _)⟩

/-- So they are usable at every moment of a trace that ends in an operation. -/
theorem library_trace
    (hu : LibraryUsable ps sys long m.options.maxCallDepth past m.store.statics)
    (hpast : ∀ s ∈ past, LibraryUsable ps sys long m.options.maxCallDepth past s.store.statics)
    {op : Operation} (hop : allowed (.perform op)) (n : Nat) : ∀ s ∈ past ++ m.moments op n,
      LibraryUsable ps sys long m.options.maxCallDepth (past ++ m.moments op n) s.store.statics := by
  intro s hs
  have hold := List.subset_append_left past (m.moments op n)
  rcases List.mem_append.1 hs with hs | hs
  · exact (hpast s hs).mono hold
  · obtain ⟨i, hi, rfl⟩ := Machine.mem_moments.1 hs
    have hnew : m.moments op i ⊆ past ++ m.moments op n :=
      List.Subset.trans (Machine.moments_subset hi) (List.subset_append_right _ _)
    exact (library_moment h hps hsys hlong hu hop i).mono (List.append_subset.2 ⟨hold, hnew⟩)

/-- In every history they have been usable at every moment, and are so between acts. -/
theorem library_history :
    LibraryUsable ps sys long m.options.maxCallDepth past m.store.statics ∧
    ∀ s ∈ past, LibraryUsable ps sys long m.options.maxCallDepth past s.store.statics := by
  induction h with
  | @boot options sink clock =>
    -- nothing has begun yet
    have hnone : ∀ c cause, (Machine.boot options sink clock).store.statics.state c ≠ .failed cause := by
      intro c cause
      rw [show (Machine.boot options sink clock).store.statics.state c = .pending from rfl]
      exact InitState.noConfusion
    exact ⟨⟨fun ⟨_, hf⟩ => hnone ps _ hf, fun ⟨_, hf⟩ => hnone long _ hf, fun _ hf => absurd hf (hnone sys _)⟩,
      by simp⟩
  | @act m past a m' seen h ha hd ih =>
    obtain ⟨hu, hpast⟩ := ih
    rw [hd.options]
    rcases hd.cases with ⟨rfl, heq⟩ | ⟨op, fuel, r, rfl, hp, rfl⟩
    · rw [List.append_nil, heq]
      exact ⟨hu, hpast⟩
    · rw [(Machine.perform_some hp).2]
      exact ⟨library_moment h hps hsys hlong hu ha fuel, library_trace h hps hsys hlong hu hpast ha fuel⟩

/-- Between acts the standard streams have failed exactly if their initialization has begun with the
limit on the call depth reached. -/
theorem streams_failed_iff :
    (m.store.statics.state sys).IsFailed ↔ BegunSpent past m.options.maxCallDepth sys := by
  refine ⟨fun ⟨cause, hf⟩ => ((library_history h hps hsys hlong).1.system cause hf).2, fun hspent => ?_⟩
  induction h with
  | boot => obtain ⟨s, hs, -⟩ := hspent; cases hs
  | @act m past a m' seen h ha hd ih =>
    rw [hd.options] at hspent
    rcases hd.cases with ⟨rfl, heq⟩ | ⟨op, fuel, r, rfl, hp, rfl⟩
    · rw [List.append_nil] at hspent
      rw [heq]
      exact ih hspent
    · obtain ⟨hr, rfl⟩ := Machine.perform_some hp
      obtain ⟨s, hs, hb⟩ := hspent
      rcases List.mem_append.1 hs with hs | hs
      · obtain ⟨cause, hf⟩ := ih ⟨s, hs, hb⟩
        exact ⟨cause, failed_moment h ha hf fuel⟩
      · exact streams_failed h ha hps hsys (library_history h hps hsys hlong).1.printStream hr ⟨s, hs, hb⟩

end Histories

/-! ## Reaching them -/

section Reaching

variable {allowed : Act → Prop} {m : Machine} {past : List State} {sys long : Class} {u : UnitId}

/-- An operation that leads to an end ends so. -/
theorem State.Leads.perform {op : Operation} {t : State} {r : Except Failure (Option Value)}
    (h : State.Leads m.env (m.moment op 0) t) (hr : t.outcome? = some r) :
    ∃ fuel, m.perform fuel op = some (r, { m with store := t.store }) := by
  obtain ⟨n, rfl⟩ := h.moment
  exact ⟨n, Machine.perform_of_outcome? le_rfl hr⟩

/-- The numeral reader replies with the number or with what is wrong with the numeral. -/
theorem Library.readLong_eq (view : HostView) (text : String) : Library.readLong view [.text text] =
    .reply (match parseLong text with
      | .ok n => .value (.long n)
      | .error e => .fault (.numberFormat e)) := by
  simp only [readLong, ArgType.optional, ArgType.text, ArgType.arg, Value.isNull, Value.asText?,
    List.getElem?_cons_zero, HostProgram.withArg, Option.map_some, Bool.false_eq_true, if_false]
  cases parseLong text <;> rfl

/-- A call of the numeral reader selects the bundled one. -/
theorem parseLong_selected (h : History allowed m past) (hlong : m.registry.Bundles Library.long long)
    (text : String) : ∃ e, long.select .static "parseLong" [.text text] = .ok e ∧
      e.impl = .native Library.readLong ∧ e.returns = .long ∧ e.declaring = long.id := by
  have hdeclared : ∃ e, long.select .static "parseLong" [.text text] = .ok e ∧
      Registry.EntryOf Library.natives long (.native "parseLong" [.text] .long true) e :=
    h.selects_declared hlong rfl rfl (by decide)
  obtain ⟨e, hselect, hentry⟩ := hdeclared
  obtain ⟨f, hf, himpl⟩ := hentry.native rfl
  have hname : long.name = "Long" := by rw [Class.name, hlong.source_eq]; rfl
  rw [hname] at hf
  have hbound : Library.natives.get? ⟨"Long", "parseLong", [.text]⟩ = some Library.readLong := rfl
  cases hbound.symm.trans hf
  exact ⟨e, hselect, himpl, hentry.returns, hentry.declaring⟩

/-- Where a level of call depth is left, the numeral reader gives the number back or raises the error of
the numeral. -/
theorem leads_parseLong {env : Env} {e : Method} (c : Class) (K : List Cont) {depth : Nat} (σ : Store)
    (text : String) (himpl : e.impl = .native Library.readLong) (hreturns : e.returns = .long)
    (hdepth : depth < env.options.maxCallDepth) :
    State.Leads env ⟨.enter e c none [.text text], K, depth, σ⟩
      ⟨match parseLong text with
        | .ok n => .answer (some (.long n))
        | .error err => .raise (.numberFormat err), K, depth, σ⟩ := by
  have henter : State.step env ⟨.enter e c none [.text text], K, depth, σ⟩ =
      ⟨.host e [.text text] (.reply (match parseLong text with
        | .ok n => .value (.long n)
        | .error e => .fault (.numberFormat e))), .hostCall :: K, depth + 1, σ⟩ := by
    rw [← Library.readLong_eq (State.hostView env ⟨.enter e c none [.text text], K, depth, σ⟩)]
    simp only [State.step, State.enterMethod, himpl, State.activate, if_neg (Nat.not_le.2 hdepth)]
    rfl
  refine (State.Leads.of_eq henter).trans ?_
  cases parseLong text with
  | ok n =>
    have hresult : HostReply.result e (.value (.long n)) = .ok (.long n) := by
      simp [HostReply.result, hreturns, Value.conformsTo, Value.type?]
    refine .step ?_
    simp only [State.step, State.hostStep, hresult, State.proceed, State.goto]
    exact .of_eq rfl
  | error err => exact ⟨2, rfl⟩

/-- A host's call of a static method of the boxed integers enters it, as long as they have not failed. -/
theorem leads_call (h : History allowed m past) (hlong : m.registry.Bundles Library.long long)
    (husable : ¬ (m.store.statics.state long).IsFailed) (hu : m.registry.lookup u "Long" = .ok long)
    {name : String} {args : List Value} {e : Method} (hselect : long.select .static name args = .ok e)
    (hdeclaring : e.declaring = long.id) :
    ∃ σ, σ.heap = m.store.heap ∧ ¬ (σ.statics.state long).IsFailed ∧
      State.Leads m.env (m.moment (.invokeStatic u "Long" name args) 0)
        ⟨.enter e long none args, [], 0, σ⟩ := by
  have hwf : m.env.registry.Sound := h.sound
  have hstart : m.moment (.invokeStatic u "Long" name args) 0 =
      State.invokeStatic m.env (.idle m.store) long name args := by
    show State.proceed _ (m.registry.lookup u "Long") _ = _
    rw [hu]
    rfl
  rw [hstart]
  exact leads_static 0 [] hwf hlong.has (hlong.source_eq ▸ Library.long_isConstant) husable hselect hdeclaring _

/-- A call of the numeral reader ends with the number or the error, and allocates nothing, as long as boxed
integers have not failed. -/
theorem parseLong_performs (h : History allowed m past)
    (hdepth : 1 ≤ m.options.maxCallDepth) (hlong : m.registry.Bundles Library.long long)
    (husable : ¬ (m.store.statics.state long).IsFailed) (hu : m.registry.lookup u "Long" = .ok long)
    (text : String) : ∃ fuel m', m'.store.heap = m.store.heap ∧
      m.perform fuel (.invokeStatic u "Long" "parseLong" [.text text]) =
        some (((parseLong text).mapError Failure.numberFormat).map fun n => some (.long n), m') := by
  have hlimit : 0 < m.env.options.maxCallDepth := hdepth
  obtain ⟨e, hselect, himpl, hreturns, hdeclaring⟩ := parseLong_selected h hlong text
  obtain ⟨σ', hheap, -, hcall⟩ := leads_call h hlong husable hu hselect hdeclaring
  have hleads := hcall.trans (leads_parseLong long [] σ' text himpl hreturns hlimit)
  cases hparse : parseLong text with
  | ok n =>
    rw [hparse] at hleads
    obtain ⟨fuel, hp⟩ := hleads.perform rfl
    exact ⟨fuel, _, hheap, hp⟩
  | error err =>
    rw [hparse] at hleads
    obtain ⟨fuel, hp⟩ := hleads.perform rfl
    exact ⟨fuel, _, hheap, hp⟩

/-- So the numeral reader can be called. -/
theorem parseLong_reached (h : History allowed m past)
    (hdepth : 1 ≤ m.options.maxCallDepth) (hlong : m.registry.Bundles Library.long long)
    (husable : ¬ (m.store.statics.state long).IsFailed) (hu : m.registry.lookup u "Long" = .ok long)
    (text : String) : ∃ fuel m', m.perform fuel (.invokeStatic u "Long" "parseLong" [.text text]) =
      some (((parseLong text).mapError Failure.numberFormat).map fun n => some (.long n), m') := by
  obtain ⟨fuel, m', -, hp⟩ := parseLong_performs h hdepth hlong husable hu text
  exact ⟨fuel, m', hp⟩

/-- The static fields of the standard streams are found in their class. -/
theorem streams_found {r : Registry} (hwf : r.Sound) (hsys : r.Bundles Library.system sys)
    {field : String} (hfield : field ∈ ["out", "err"]) :
    ∃ slot, r.findStatic? sys field = some (sys, slot) ∧
      (sys.statics.map (·.type))[slot]? = some .reference := by
  obtain ⟨hroot, -, hstatics⟩ := hsys.system hwf
  have hclass : r.class? sys.id = some sys := hsys.has
  have hindex : ∃ slot, sys.staticIndex? field = some slot ∧
      (sys.statics.map (·.type))[slot]? = some .reference := by
    unfold Class.staticIndex?
    rw [hstatics]
    simp only [List.mem_cons, List.not_mem_nil, or_false] at hfield
    rcases hfield with rfl | rfl
    · exact ⟨0, rfl, rfl⟩
    · exact ⟨1, rfl, rfl⟩
  obtain ⟨slot, hslot, hty⟩ := hindex
  refine ⟨slot, ?_, hty⟩
  unfold Registry.findStatic?
  rw [hwf.lineage_of_no_parent hsys.has hroot]
  simp [hclass, hslot]

/-- A slot of type `reference` holds what conforms to it. -/
theorem Value.Fills.reference {v : Value} (h : v.Fills .reference) : v.conformsTo .reference = true := by
  rcases h with h | rfl
  · exact h
  · rfl

/-- The standard streams can be read as long as their class has not failed. -/
theorem streams_reached (h : History (fun _ => True) m past) (hdepth : 1 ≤ m.options.maxCallDepth)
    {ps : Class} (hps : m.registry.Bundles Library.printStream ps)
    (hsys : m.registry.Bundles Library.system sys) (hstreams : ¬ (m.store.statics.state ps).IsFailed)
    (husable : ¬ (m.store.statics.state sys).IsFailed) (hu : m.registry.lookup u "System" = .ok sys)
    {field : String} (hfield : field ∈ ["out", "err"]) :
    ∃ v, v.conformsTo .reference = true ∧
      ∃ fuel m', m.perform fuel (.getStatic u "System" field) = some (.ok (some v), m') := by
  have hwf : m.env.registry.Sound := h.sound
  have hlimit : 0 < m.env.options.maxCallDepth := hdepth
  obtain ⟨slot, hfound, hty⟩ := streams_found hwf hsys hfield
  have hstart : m.moment (.getStatic u "System" field) 0 =
      ⟨.init sys, [.thenRead sys slot field], 0, m.store⟩ := by
    show State.proceed _ (m.registry.lookup u "System") _ = _
    simp only [hu, State.proceed, State.getStatic, hfound, State.await]
  -- the class is initialized, now or before
  have hready : ∃ σ', State.Leads m.env ⟨.init sys, [.thenRead sys slot field], 0, m.store⟩
      ⟨.answer none, [.thenRead sys slot field], 0, σ'⟩ := by
    cases hst : m.store.statics.state sys with
    | pending =>
      obtain ⟨σ', -, hleads⟩ :=
        leads_streams hwf hps hsys [.thenRead sys slot field] hlimit hstreams hst
      exact ⟨σ', hleads⟩
    | failed cause => exact absurd ⟨cause, hst⟩ husable
    | running | done =>
      refine ⟨m.store, .of_eq ?_⟩
      simp only [State.step, State.beginInit, hst, State.goto]
  obtain ⟨σ', hleads⟩ := hready
  rw [← hstart] at hleads
  obtain ⟨n, hn⟩ := hleads.moment
  -- the cell is there, and holds a reference
  have htyped : (m.moment (.getStatic u "System" field) n).store.Typed m.registry :=
    (typed_invariant.moment h trivial n).2
  rw [hn] at htyped
  obtain ⟨v, hv, hfills⟩ := (htyped.area hsys.has).get? hty
  have hread : State.step m.env ⟨.answer none, [.thenRead sys slot field], 0, σ'⟩ =
      ⟨.answer (some v), [], 0, σ'⟩ := by
    have hcell : σ'.statics.cell? sys slot = some v := hv
    simp only [State.step, State.resume, hcell, State.goto]
  obtain ⟨fuel, hp⟩ := State.Leads.perform (hleads.trans (.of_eq hread)) rfl
  exact ⟨v, hfills.reference, fuel, _, hp⟩

end Reaching

/-! ## Main statement -/

/-- User code cannot make the classes of stream objects and of boxed integers fail, whatever it loads
and whatever operations end with, and the class of the standard streams in one way only: its first
access comes at a moment when as many bodies are active as the limit allows, and its cause is then
the error of an exhausted call depth. So a later operation reaches the numeral reader in any case, and
the standard streams unless their class has failed in this way. The stack of the host is set aside, as
everywhere: a body is refused for the call depth alone. -/
theorem library_usable {m : Machine} {past : List State} (h : History (fun _ => True) m past)
    (hdepth : 1 ≤ m.options.maxCallDepth) :
    ∃ ps sys long, m.registry.lookup systemUnit "PrintStream" = .ok ps ∧
      m.registry.lookup systemUnit "System" = .ok sys ∧ m.registry.lookup systemUnit "Long" = .ok long ∧
      (∀ op n, ∀ s ∈ past ++ m.moments op n,
        LibraryUsable ps sys long m.options.maxCallDepth (past ++ m.moments op n) s.store.statics) ∧
      ((m.store.statics.state sys).IsFailed ↔ BegunSpent past m.options.maxCallDepth sys) ∧
      (∀ u text, m.registry.lookup u "Long" = .ok long →
        ∃ fuel m', m.perform fuel (.invokeStatic u "Long" "parseLong" [.text text]) =
          some (((parseLong text).mapError Failure.numberFormat).map fun n => some (.long n), m')) ∧
      (¬ (m.store.statics.state sys).IsFailed → ∀ u, m.registry.lookup u "System" = .ok sys →
        ∀ field ∈ ["out", "err"], ∃ v, v.conformsTo .reference = true ∧
          ∃ fuel m', m.perform fuel (.getStatic u "System" field) = some (.ok (some v), m')) := by
  obtain ⟨ps, hps⟩ := Library.registered (show Library.printStream ∈ _ by simp [Library.classes])
  obtain ⟨sys, hsys⟩ := Library.registered (show Library.system ∈ _ by simp [Library.classes])
  obtain ⟨long, hlong⟩ := Library.registered (show Library.long ∈ _ by simp [Library.classes])
  obtain ⟨hu, hpast⟩ := library_history h hps hsys hlong
  refine ⟨ps, sys, long, (h.bundles hps).lookup, (h.bundles hsys).lookup, (h.bundles hlong).lookup,
    fun op n => library_trace h hps hsys hlong hu hpast trivial n, streams_failed_iff h hps hsys hlong,
    fun u text hlookup => ?_, fun husable u hlookup field hfield => ?_⟩
  · exact parseLong_reached h hdepth (h.bundles hlong) hu.long hlookup text
  · exact streams_reached h hdepth (h.bundles hps) (h.bundles hsys) hu.printStream husable hlookup hfield

/-! ## A failure of the standard streams -/

/-- A program that prints a line. -/
def greeting : CompilationUnit :=
  { name := "greeting"
    classes := [{ name := "Greeter"
                  methods := [.static "main" [] .void { code := [.println (.ofText "hello")] }] }] }

/-- The program after its run on a machine with one level of call depth, which `main` itself takes. -/
def greeted : Machine :=
  let m := (Machine.load (.boot { maxCallDepth := 1 } {}) greeting).2
  { m with store := (m.moment (.main 1 "Greeter") 30).store }

theorem greeted_history : ∃ past, History (fun _ => True) greeted past := by
  have hend : ((Machine.load (.boot { maxCallDepth := 1 } {}) greeting).2.moment
      (.main 1 "Greeter") 30).outcome? =
      some (.error (.staticInitFailed "System" (.stackOverflow 1))) := by decide +kernel
  have hboot : History (fun _ => True) (.boot { maxCallDepth := 1 } {}) [] := .boot
  have hload := hboot.act (a := .load greeting) trivial .load
  exact ⟨_, hload.act trivial (.perform (Machine.perform_of_outcome? le_rfl hend))⟩

/-- The numeral reader is there for it all the same. -/
theorem library_usable_greeted : ∃ m past, History (fun _ => True) m past ∧ 1 ≤ m.options.maxCallDepth ∧
    ∃ sys, m.registry.lookup systemUnit "System" = .ok sys ∧ BegunSpent past 1 sys ∧
      ∃ fuel m', m.perform fuel (.invokeStatic systemUnit "Long" "parseLong" [.text "-7"]) =
        some (.ok (some (.long (-7))), m') := by
  obtain ⟨past, h⟩ := greeted_history
  obtain ⟨ps, sys, long, -, hsys, hlong, -, hiff, hreader, -⟩ := library_usable h (by decide)
  have hfailed : ((greeted.registry.lookup systemUnit "System").toOption.map fun sys =>
      greeted.store.statics.state sys) = some (.failed (.stackOverflow 1)) := by decide +kernel
  rw [hsys] at hfailed
  have hnumber := hreader systemUnit "-7" hlong
  rw [show parseLong "-7" = .ok (-7) by decide] at hnumber
  exact ⟨greeted, past, h, by decide, sys, hsys, hiff.1 ⟨_, Option.some.inj hfailed⟩, hnumber⟩

/-- The class of the standard streams can fail although there is a level of call depth. -/
theorem library_poisoned : ∃ m past, History (fun _ => True) m past ∧ 1 ≤ m.options.maxCallDepth ∧
    ∃ sys ∈ m.registry.get? systemUnit "System",
      m.store.statics.state sys = .failed (.stackOverflow m.options.maxCallDepth) := by
  obtain ⟨past, h⟩ := greeted_history
  refine ⟨greeted, past, h, by decide, ?_⟩
  decide +kernel

end ObjectMachine
