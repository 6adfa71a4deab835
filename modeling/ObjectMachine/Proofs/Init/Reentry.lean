/-
A class that is initialized stands on initialized ancestors, unless it was reached again from below.
The initialization of a class begins before that of its parent and ends after it; but code that an
initializer of the parent runs may come to the class while the parent is still being initialized, and
then the class goes on without waiting. If the parent fails afterwards, the class stays initialized on
top of it (`done_on_failed_parent`). `done_on_ancestors` says that this is the only way: where an
ancestor has failed, the class, or one between the two, began while that ancestor was going on.

The argument looks at a step as what it does to the initializations that are going on (`InitStep`):
nothing, or one begins inside the others, or the innermost ends.
-/
import ObjectMachine.Proofs.Init.Progress
import ObjectMachine.Proofs.Exec.Results

namespace ObjectMachine

/-! ## Definitions -/

/-- Along a trace, the initialization of `d` began while that of `a` was going on. -/
def BeganWithin (trace : List State) (d a : ClassId) : Prop :=
  ∃ s ∈ trace, ∃ c, s.control = .init c ∧ c.id = d ∧ s.store.statics.stateOf d = .pending ∧
    s.store.statics.stateOf a = .running

/-- The class, or one between it and its ancestor `a`, began while `a` was going on. -/
def Reentered (r : Registry) (trace : List State) (c : Class) (a : ClassId) : Prop :=
  ∃ d, r.Has d ∧ d.id ∈ c.lineage ∧ a ∈ d.ancestors ∧ BeganWithin trace d.id a

/-- The ancestor `a` has begun, and is initialized unless it was reentered. -/
def Backed (r : Registry) (trace : List State) (t : Statics) (c : Class) (a : ClassId) : Prop :=
  (t.stateOf a).Begun ∧ (t.stateOf a = .done ∨ Reentered r trace c a)

/-- The classes that are initialized stand on backed ancestors. While no error is on its way up, an
ancestor of a class that is going on is backed, or goes on too, or is about to be reached on the way
up from the class. -/
structure State.Founded (env : Env) (trace : List State) (s : State) : Prop where
  within : (running s.stack).Pairwise (BeganWithin trace)
  done : ∀ c, env.registry.Has c → s.store.statics.state c = .done →
    ∀ a ∈ c.ancestors, Backed env.registry trace s.store.statics c a
  going : (∀ e, s.control ≠ .raise e) → ∀ c, env.registry.Has c → s.store.statics.state c = .running →
    ∀ a ∈ c.ancestors, Backed env.registry trace s.store.statics c a ∨
      s.store.statics.stateOf a = .running ∨
      ∃ q, s.control = .init q ∧ q.id ∈ c.ancestors ∧ a ∈ q.lineage

/-- What a step does to the initializations that are going on. -/
inductive InitStep (env : Env) (s s' : State) : Prop where
  | same : (∀ id, s'.store.statics.stateOf id = s.store.statics.stateOf id) →
      running s'.stack = running s.stack → InitStep env s s'
  | begin {c} : s.control = .init c → s.store.statics.state c = .pending →
      s'.store.statics = s.store.statics.setState c .running →
      running s'.stack = c.id :: running s.stack →
      (∀ p, env.registry.parent? c = some p → s'.control = .init p) → InitStep env s s'
  | finish {c K st} : s.stack = .initializing c :: K → s'.stack = K →
      s'.store.statics = s.store.statics.setState c st →
      (st = .done ∧ ∃ v, s.control = .answer v) ∨ (st ≠ .done ∧ ∃ e, s'.control = .raise e) →
      InitStep env s s'

/-! ## Steps -/

section Steps

variable {env : Env} {s s' : State}

theorem Runs.running {f : Frame} {c : Control} {K K' : List Cont} (h : Runs f c K K') :
    running K' = running K := by
  cases h with
  | eval | exec => rfl
  | resumed hk => exact (running_cons (hk.ordinary (r := .empty)).initializes).symm

/-- Every step is one of these for the initializations that are going on. -/
theorem Transition.initStep (h : Transition env s s') : InitStep env s s' := by
  cases h with
  | go h | answer h | fail h | callVirtual h | callSuper h | superOverflow h =>
    exact .same (fun _ => rfl) h.running
  | evaluate h hk =>
    have hk := hk.elim Cont.IsOperand.ordinary (Cont.IsCode.ordinary (r := env.registry))
    exact .same (fun _ => rfl) ((running_cons hk.initializes).trans h.running)
  | access h hk => exact .same (fun _ => rfl) ((running_cons hk.awaits.1).trans h.running)
  | accessWrite hk => exact .same (fun _ => rfl) (running_cons hk.awaits.1)
  | enterSuper h => exact .same (fun _ => rfl) ((running_cons rfl).trans h.running)
  | operate hk | operateFail hk =>
    exact .same (fun _ => rfl) (running_cons (hk.ordinary (r := env.registry)).initializes).symm
  | hostService hst => exact .same (fun id => by rw [hst]) rfl
  | storeStatic | thenWrite => exact .same (fun id => Statics.stateOf_setCell _ _ _ _ _) rfl
  | initParent hpend hparent =>
    exact .begin rfl hpend rfl rfl fun p hp => by rw [hparent] at hp; cases hp; rfl
  | initRoot hpend hparent =>
    exact .begin rfl hpend rfl rfl fun p hp => by rw [hparent] at hp; cases hp
  | initDone => exact .finish rfl rfl rfl (.inl ⟨rfl, _, rfl⟩)
  | unwindInit => exact .finish rfl rfl rfl (.inr ⟨nofun, _, rfl⟩)
  | unwindActivation hk =>
    exact .same (fun _ => rfl) (running_cons (Cont.initializes?_activation hk)).symm
  | unwind _ hk => exact .same (fun _ => rfl) (running_cons (Cont.initializes?_none hk)).symm
  | _ => exact .same (fun _ => rfl) rfl

/-- Nothing takes an error back. -/
theorem Transition.raise (h : Transition env s s') {e : Failure} (hc : s.control = .raise e) :
    ∃ e', s'.control = .raise e' := by
  cases h with
  | go h | answer h | fail h | evaluate h | access h | callVirtual h | callSuper h | enterSuper h
  | superOverflow h => cases hc; cases h
  | unwindInit | unwindActivation | unwind => exact ⟨_, rfl⟩
  | ended => exact ⟨e, hc⟩
  | _ => cases hc

/-- An initialization that is asked for is not needed, or begins, or fails at once. -/
theorem Transition.init_cases (h : Transition env s s') {c : Class} (hc : s.control = .init c) :
    (s.store.statics.state c).Ready ∨
      (s.store.statics.state c = .pending ∧ s'.store.statics.state c = .running) ∨
      ∃ e, s'.control = .raise e := by
  cases h with
  | go h | answer h | fail h | evaluate h | access h | callVirtual h | callSuper h | enterSuper h
  | superOverflow h => cases hc; cases h
  | initReady hready => cases hc; exact .inl hready
  | initParent hpend | initRoot hpend =>
    cases hc
    exact .inr (.inl ⟨hpend, by simp [Statics.state]⟩)
  | initFailed => exact .inr (.inr ⟨_, rfl⟩)
  | ended hc' => rcases hc' with ⟨v, rfl⟩ | ⟨e, rfl⟩ <;> cases hc
  | _ => cases hc

/-! ## Backed ancestors -/

theorem BeganWithin.mono {trace trace' : List State} (hsub : trace ⊆ trace') {d a : ClassId}
    (h : BeganWithin trace d a) : BeganWithin trace' d a :=
  h.imp fun _ hs => ⟨hsub hs.1, hs.2⟩

theorem Reentered.mono {r r' : Registry} (hx : r.Extends r') {trace trace' : List State}
    (hsub : trace ⊆ trace') {c : Class} {a : ClassId} (h : Reentered r trace c a) :
    Reentered r' trace' c a := by
  obtain ⟨d, hd, hmem, ha, hbegan⟩ := h
  exact ⟨d, hx.has hd, hmem, ha, hbegan.mono hsub⟩

/-- What backs an ancestor of a class of the lineage backs it for the class. -/
theorem Backed.below {r : Registry} (hwf : r.Sound) {trace : List State} {t : Statics} {c q : Class}
    (hc : r.Has c) (hq : r.Has q) (hmem : q.id ∈ c.ancestors) {a : ClassId}
    (h : Backed r trace t q a) : Backed r trace t c a := by
  refine ⟨h.1, h.2.imp_right ?_⟩
  rintro ⟨d, hd, hdq, ha, hbegan⟩
  exact ⟨d, hd, List.mem_cons_of_mem _ (hwf.ancestors_trans hc hq hmem hdq), ha, hbegan⟩

theorem Backed.step {r : Registry} {trace trace' : List State} (hsub : trace ⊆ trace')
    (h : Transition env s s') (hn : s.Nested env) {c : Class} {a : ClassId}
    (hb : Backed r trace s.store.statics c a) : Backed r trace' s'.store.statics c a := by
  refine ⟨h.begun hb.1, hb.2.imp (fun hdone => ?_) (·.mono (.refl r) hsub)⟩
  have hmoves := h.moves hn a
  rw [hdone] at hmoves
  exact hmoves.settled trivial

/-! ## One step -/

section Founded

variable {trace trace' : List State}

/-- An initialization that is asked for and not needed: what backs its ancestors is known. -/
theorem State.Founded.ready (hs : s.Founded env trace) (hwf : env.registry.Sound)
    (hnot : ∀ e, s.control ≠ .raise e) {c q : Class} (hc : env.registry.Has c)
    (hq : env.registry.Has q) (hctl : s.control = .init q) (hready : (s.store.statics.state q).Ready)
    (hmem : q.id ∈ c.ancestors) {a : ClassId} (ha : a ∈ q.lineage) :
    Backed env.registry trace s.store.statics c a ∨ s.store.statics.stateOf a = .running := by
  rcases List.mem_cons.1 ha with rfl | ha
  · exact hready.imp (fun h => ⟨InitState.Ready.begun (.inl h), .inl h⟩) id
  rcases hready with hdone | hrun
  · exact .inl ((hs.done q hq hdone a ha).below hwf hc hq hmem)
  · rcases hs.going hnot q hq hrun a ha with hb | hrun | ⟨q', hctl', hself, -⟩
    · exact .inl (hb.below hwf hc hq hmem)
    · exact .inr hrun
    · -- no class is above itself
      rw [hctl] at hctl'
      cases hctl'
      exact absurd (hwf.ancestors_lt hq hself) (lt_irrefl _)

theorem State.Founded.same (hs : s.Founded env trace) (hwf : env.registry.Sound)
    (h : Transition env s s') (hf : s.Fits env) (hn : s.Nested env) (hsub : trace ⊆ trace')
    (hstate : ∀ id, s'.store.statics.stateOf id = s.store.statics.stateOf id)
    (hrunning : running s'.stack = running s.stack) : s'.Founded env trace' := by
  refine ⟨?_, fun c hc hdone a ha => ?_, fun hnot c hc hrun a ha => ?_⟩
  · rw [hrunning]
    exact hs.within.imp fun hw => hw.mono hsub
  · exact (hs.done c hc ((hstate c.id).symm.trans hdone) a ha).step hsub h hn
  · have hnot' : ∀ e, s.control ≠ .raise e := fun e he =>
      let ⟨e', he'⟩ := h.raise he; hnot e' he'
    rw [hstate]
    rcases hs.going hnot' c hc ((hstate c.id).symm.trans hrun) a ha with hb | hrun | ⟨q, hctl, hmem, hq⟩
    · exact .inl (hb.step hsub h hn)
    · exact .inr (.inl hrun)
    · have hhas : env.registry.Has q := hf.of_control hctl
      rcases h.init_cases hctl with hready | ⟨hpend, hrun⟩ | ⟨e, he⟩
      · rcases hs.ready hwf hnot' hc hhas hctl hready hmem hq with hb | hrun
        · exact .inl (hb.step hsub h hn)
        · exact .inr (.inl hrun)
      · -- a step that begins an initialization changes its state
        rw [Statics.state, hstate, show s.store.statics.stateOf q.id = .pending from hpend] at hrun
        cases hrun
      · exact absurd he (hnot e)

/-- Where the parent of a class is next, all its ancestors are about to be reached. -/
theorem about_to_reach (hwf : env.registry.Sound) {c : Class} (hc : env.registry.Has c)
    (hnext : ∀ p, env.registry.parent? c = some p → s'.control = .init p) {a : ClassId}
    (ha : a ∈ c.ancestors) : ∃ p, s'.control = .init p ∧ p.id ∈ c.ancestors ∧ a ∈ p.lineage := by
  obtain ⟨p, hp, ha⟩ := hwf.exists_parent hc ha
  refine ⟨p, hnext p hp, ?_, ha⟩
  rw [hwf.ancestors_of_parent hc hp]
  exact List.mem_cons_self

/-- An initialization begins, inside all that are going on. -/
theorem State.Founded.begin (hs : s.Founded env trace) (hwf : env.registry.Sound)
    (h : Transition env s s') (hf : s.Fits env) (hn : s.Nested env) (hsub : trace ⊆ trace')
    (hmem : s ∈ trace) {c : Class} (hctl : s.control = .init c)
    (hpend : s.store.statics.state c = .pending)
    (hst : s'.store.statics = s.store.statics.setState c .running)
    (hrunning : running s'.stack = c.id :: running s.stack)
    (hnext : ∀ p, env.registry.parent? c = some p → s'.control = .init p) :
    s'.Founded env trace' := by
  have hc : env.registry.Has c := hf.of_control hctl
  have hnot : ∀ e, s.control ≠ .raise e := fun e he => by rw [hctl] at he; cases he
  have hstate : ∀ id, s'.store.statics.stateOf id = if id = c.id then .running
      else s.store.statics.stateOf id := fun id => by rw [hst, Statics.stateOf_setState]
  refine ⟨?_, fun x hx hdone a ha => ?_, fun _ x hx hrun a ha => ?_⟩
  · rw [hrunning]
    refine List.pairwise_cons.2 ⟨fun a ha => ?_, hs.within.imp fun hw => hw.mono hsub⟩
    exact ⟨s, hsub hmem, c, hctl, rfl, hpend, (hn.running.iff a).2 ha⟩
  · rw [Statics.state, hstate] at hdone
    split at hdone
    · cases hdone
    · exact (hs.done x hx hdone a ha).step hsub h hn
  · by_cases hid : x.id = c.id
    · obtain rfl := hx.unique hc hid
      exact .inr (.inr (about_to_reach hwf hc hnext ha))
    · rw [Statics.state, hstate, if_neg hid] at hrun
      rw [hstate]
      rcases hs.going hnot x hx hrun a ha with hb | hrun | ⟨q, hctl', hmem', hq⟩
      · exact .inl (hb.step hsub h hn)
      · exact .inr (.inl (by rw [hrun]; exact ite_self _))
      · rw [hctl] at hctl'
        cases hctl'
        rcases List.mem_cons.1 hq with rfl | hq
        · exact .inr (.inl (if_pos rfl))
        · obtain ⟨p, hctl'', hp, hap⟩ := about_to_reach hwf hc hnext hq
          have hpx := hwf.ancestors_trans hx hc hmem' (List.mem_cons_of_mem _ hp)
          exact .inr (.inr ⟨p, hctl'', hpx, hap⟩)

/-- When an answer comes, no class is about to be reached. -/
theorem State.Founded.going_answer (hs : s.Founded env trace) {v : Option Value}
    (hv : s.control = .answer v) {c : Class} (hc : env.registry.Has c)
    (hrun : s.store.statics.state c = .running) {a : ClassId} (ha : a ∈ c.ancestors) :
    Backed env.registry trace s.store.statics c a ∨ s.store.statics.stateOf a = .running := by
  have hnot : ∀ e, s.control ≠ .raise e := fun e he => by rw [hv] at he; cases he
  rcases hs.going hnot c hc hrun a ha with hb | hrun | ⟨q, hctl, -⟩
  · exact .inl hb
  · exact .inr hrun
  · rw [hv] at hctl; cases hctl

/-- The ancestors of the class whose initialization ends are backed, for those that still go on are the
ones it began within. -/
theorem State.Founded.innermost (hs : s.Founded env trace) (hwf : env.registry.Sound)
    (hn : s.Nested env) {v : Option Value} (hv : s.control = .answer v) {c : Class} {K : List Cont}
    (hK : s.stack = .initializing c :: K) (hc : env.registry.Has c) {a : ClassId}
    (ha : a ∈ c.ancestors) : Backed env.registry trace s.store.statics c a := by
  have hrun : s.store.statics.state c = .running :=
    hn.running.of_initializing (hK ▸ List.mem_cons_self)
  rcases hs.going_answer hv hc hrun ha with hb | hrun
  · exact hb
  · have hgoing : a ∈ running s.stack := (hn.running.iff a).1 hrun
    have hwithin := hs.within
    rw [hK, running_initializing] at hgoing hwithin
    have hne : a ≠ c.id := (hwf.ancestors_lt hc ha).ne
    have hbegan := (List.pairwise_cons.1 hwithin).1 a ((List.mem_cons.1 hgoing).resolve_left hne)
    exact ⟨InitState.Ready.begun (.inr hrun), .inr ⟨c, hc, List.mem_cons_self, ha, hbegan⟩⟩

/-- The innermost initialization ends. -/
theorem State.Founded.finish (hs : s.Founded env trace) (hwf : env.registry.Sound)
    (h : Transition env s s') (hf : s.Fits env) (hn : s.Nested env) (hsub : trace ⊆ trace')
    {c : Class} {K : List Cont} {st : InitState} (hK : s.stack = .initializing c :: K)
    (hK' : s'.stack = K) (hst : s'.store.statics = s.store.statics.setState c st)
    (hend : (st = .done ∧ ∃ v, s.control = .answer v) ∨ (st ≠ .done ∧ ∃ e, s'.control = .raise e)) :
    s'.Founded env trace' := by
  have hc : env.registry.Has c := hf.stack (.initializing c) (hK ▸ List.mem_cons_self)
  have hstate : ∀ id, s'.store.statics.stateOf id = if id = c.id then st
      else s.store.statics.stateOf id := fun id => by rw [hst, Statics.stateOf_setState]
  refine ⟨?_, fun x hx hdone a ha => ?_, fun hnot x hx hrun a ha => ?_⟩
  · have hwithin := hs.within
    rw [hK, running_initializing] at hwithin
    rw [hK']
    exact (List.pairwise_cons.1 hwithin).2.imp fun hw => hw.mono hsub
  · by_cases hid : x.id = c.id
    · obtain rfl := hx.unique hc hid
      rw [Statics.state, hstate, if_pos rfl] at hdone
      obtain ⟨v, hv⟩ := (hend.resolve_right fun h => h.1 hdone).2
      exact (hs.innermost hwf hn hv hK hc ha).step hsub h hn
    · rw [Statics.state, hstate, if_neg hid] at hdone
      exact (hs.done x hx hdone a ha).step hsub h hn
  · obtain ⟨rfl, v, hv⟩ := hend.resolve_right fun h => h.2.elim hnot
    by_cases hid : x.id = c.id
    · rw [Statics.state, hstate, if_pos hid] at hrun; cases hrun
    · rw [Statics.state, hstate, if_neg hid] at hrun
      rcases hs.going_answer hv hx hrun ha with hb | hrun
      · exact .inl (hb.step hsub h hn)
      · rw [hstate]
        split
        · exact .inl ⟨by rw [hstate, if_pos ‹_›]; exact InitState.noConfusion,
            .inl (by rw [hstate, if_pos ‹_›])⟩
        · exact .inr (.inl hrun)

theorem State.Founded.step (hs : s.Founded env trace) (hwf : env.registry.Sound)
    (h : Transition env s s') (hf : s.Fits env) (hn : s.Nested env) (hsub : trace ⊆ trace')
    (hmem : s ∈ trace) : s'.Founded env trace' := by
  cases h.initStep with
  | same hstate hrunning => exact hs.same hwf h hf hn hsub hstate hrunning
  | begin hctl hpend hst hrunning hnext =>
    exact hs.begin hwf h hf hn hsub hmem hctl hpend hst hrunning hnext
  | finish hK hK' hst hend => exact hs.finish hwf h hf hn hsub hK hK' hst hend

end Founded

end Steps

/-! ## Runs and histories -/

section Histories

variable {allowed : Act → Prop} {m : Machine} {past : List State} {op : Operation}

/-- Between operations the classes that are initialized stand on backed ancestors. -/
def Store.Founded (r : Registry) (trace : List State) (σ : Store) : Prop :=
  ∀ c, r.Has c → σ.statics.state c = .done → ∀ a ∈ c.ancestors, Backed r trace σ.statics c a

theorem Store.Founded.mono {r r' : Registry} {trace trace' : List State} {σ σ' : Store}
    (h : σ.Founded r trace) (hf : σ.Fits r) (hx : r.Extends r') (hsub : trace ⊆ trace')
    (hst : σ'.statics = σ.statics) : σ'.Founded r' trace' := by
  intro c hc hdone a ha
  rw [hst] at hdone ⊢
  -- a class that has begun was registered already
  have hb : (σ.statics.stateOf c.id).Begun := InitState.Ready.begun (.inl hdone)
  obtain ⟨area, harea⟩ := Statics.begun_mem hb
  obtain ⟨d, hd⟩ := hf _ harea
  have hcr : r.Has c := by
    have heq := hx.class? hd
    unfold Registry.Has at hc ⊢
    rw [hc] at heq
    cases heq
    exact hd
  obtain ⟨hbegun, hback⟩ := h c hcr hdone a ha
  exact ⟨hbegun, hback.imp_right (·.mono hx hsub)⟩

theorem Starts.founded {env : Env} {σ : Store} {s : State} (h : Starts env op σ s)
    (hσ : σ.Founded env.registry past) (hidle : ∀ id, σ.statics.stateOf id ≠ .running) :
    s.Founded env (past ++ [s]) := by
  have hst : s.store.statics = σ.statics := by rw [h.store]
  refine ⟨?_, fun c hc hdone a ha => ?_, fun _ c hc hrun => ?_⟩
  · have hnil : running s.stack = [] := by
      cases h with
      | access hk => exact running_cons hk.awaits.1
      | _ => rfl
    rw [hnil]
    exact List.Pairwise.nil
  · rw [hst] at hdone ⊢
    obtain ⟨hbegun, hback⟩ := hσ c hc hdone a ha
    exact ⟨hbegun, hback.imp_right (·.mono (.refl _) (List.subset_append_left _ _))⟩
  · rw [hst] at hrun
    exact absurd hrun (hidle c.id)

/-- At every moment of an operation. -/
theorem founded_moment (h : History allowed m past) (hop : allowed (.perform op))
    (hσ : m.store.Founded m.registry past) (n : Nat) :
    (m.moment op n).Founded m.env (past ++ m.moments op n) := by
  induction n with
  | zero => exact (start_starts m.env op m.store).founded hσ (nested_invariant.between h)
  | succ n ih =>
    have hmem : m.moment op n ∈ past ++ m.moments op n :=
      List.mem_append_right _ (Machine.mem_moments.2 ⟨n, le_rfl, rfl⟩)
    rw [m.moment_succ, Machine.moments_succ, ← List.append_assoc]
    exact ih.step h.sound (State.step_transition _ _) (fits_invariant.moment h hop n)
      (nested_invariant.moment h hop n) (List.subset_append_left _ _) hmem

theorem Does.extends {m' : Machine} {a : Act} {seen : List State} (hd : Does m a m' seen)
    (hwf : m.registry.Sound) : m.registry.Extends m'.registry := by
  cases hd with
  | load => exact (Machine.load_extends hwf _).2
  | perform hp => rw [(Machine.perform_some hp).2]; exact .refl _
  | _ => exact .refl _

theorem founded_between (h : History allowed m past) : m.store.Founded m.registry past := by
  induction h with
  | boot => exact fun c _ hdone => nomatch hdone
  | act h ha hd ih =>
    rcases hd.cases with ⟨rfl, hst⟩ | ⟨op, fuel, r, rfl, hp, rfl⟩
    · exact ih.mono (fits_invariant.between h) (hd.extends h.sound) (List.subset_append_left _ _) hst
    · obtain ⟨-, rfl⟩ := Machine.perform_some hp
      exact (founded_moment h ha ih fuel).done

end Histories

/-! ## Constructed objects -/

section Construct

variable {env : Env} {s s' : State} {c : Class} {args : List Value}

theorem Runs.keep {f : Frame} {ctl : Control} {K K' : List Cont} (h : Runs f ctl K K') :
    K' = K ∨ ∃ v, ctl = .answer v := by
  cases h with
  | eval | exec => exact .inl rfl
  | resumed => exact .inr ⟨_, rfl⟩

/-- Only an answer or an error takes something off the stack. -/
theorem Transition.keep (h : Transition env s s') : (∃ P, s'.stack = P ++ s.stack) ∨
    (∃ v, s.control = .answer v) ∨ ∃ e, s.control = .raise e := by
  have hruns {f : Frame} {ctl : Control} {K K' : List Cont} (h : Runs f ctl K K') (P : List Cont) :
      (∃ Q, P ++ K' = Q ++ K) ∨ (∃ v, ctl = .answer v) ∨ ∃ e, ctl = .raise e := by
    rcases h.keep with rfl | hv
    · exact .inl ⟨P, rfl⟩
    · exact .inr (.inl hv)
  cases h with
  | go h | answer h | fail h | callVirtual h | callSuper h | superOverflow h => exact hruns h []
  | @evaluate _ _ k _ _ _ _ _ h | @access _ _ k _ _ _ _ _ h => exact hruns h [k]
  | @enterSuper f _ _ _ _ _ _ _ _ _ h => exact hruns h [.superDone f]
  | @enterBody e => exact .inl ⟨[.returning e.returns], rfl⟩
  | enterHost => exact .inl ⟨[.hostCall], rfl⟩
  | create => exact .inl ⟨[.constructing _], rfl⟩
  | @initParent c => exact .inl ⟨[.ownStatics c, .initializing c], rfl⟩
  | @initRoot c => exact .inl ⟨[.initializing c], rfl⟩
  | evalStatic => exact .inl ⟨[.staticValue _ _ _ _], rfl⟩
  | enterBlock => exact .inl ⟨[.staticBlock], rfl⟩
  | unwindInit | unwindActivation | unwind => exact .inr (.inr ⟨_, rfl⟩)
  | enterOverflow | hostService | hostReply | hostFail | createOverflow | createFail | initReady
  | initFailed | skipStatic | noBlock | ended => exact .inl ⟨[], rfl⟩
  | _ => exact .inr (.inl ⟨_, rfl⟩)

/-- The construction of an instance waits for the class, or has failed, or the class is initialized. -/
def State.Constructing (c : Class) (args : List Value) (s : State) : Prop :=
  (∃ L, s.stack = L ++ [.thenCreate c args]) ∨ (∃ e, s.control = .raise e) ∨
    s.store.statics.state c = .done

theorem Transition.constructing (h : Transition env s s') (hn : s.Nested env)
    (hs : s.Constructing c args) : s'.Constructing c args := by
  have hdone : s.store.statics.state c = .done → s'.Constructing c args := fun hd => by
    have hmoves := h.moves hn c.id
    rw [show s.store.statics.stateOf c.id = .done from hd] at hmoves
    exact .inr (.inr (hmoves.settled trivial))
  rcases hs with ⟨L, hL⟩ | ⟨e, he⟩ | hd
  · cases L with
    | nil =>
      rcases h.keep with ⟨P, hP⟩ | ⟨v, hv⟩ | ⟨e, he⟩
      · exact .inl ⟨P, by rw [hP, hL, List.nil_append]⟩
      · -- the answer finds the class ready, and nothing is going on below
        obtain ⟨hplaced, -, hrunning⟩ := hn
        rw [hv, hL] at hplaced
        rw [hL] at hrunning
        rcases hplaced _ rfl c rfl with hd | hrun
        · exact hdone hd
        · exact absurd ((hrunning.iff c.id).1 hrun) List.not_mem_nil
      · exact .inr (.inl (h.raise he))
    | cons k L =>
      cases h.stackStep with
      | @keep P hP => exact .inl ⟨P ++ k :: L, by rw [hP, hL, List.append_assoc]⟩
      | @pop k' K P hK _ hP =>
        rw [hL] at hK
        cases hK
        exact .inl ⟨P ++ L, by rw [hP, List.append_assoc]; rfl⟩
      | @leave k' K hK _ hK' =>
        rw [hL] at hK
        cases hK
        exact .inl ⟨L, hK'⟩
  · exact .inr (.inl (h.raise he))
  · exact hdone hd

/-- An instance is made only of a class that is then initialized. -/
theorem construct_done {allowed : Act → Prop} {m m' : Machine} {past : List State}
    (h : History allowed m past) {u : UnitId} {cls : String} {fuel : Nat} {v : Option Value}
    (hop : allowed (.perform (.construct u cls args)))
    (hp : m.perform fuel (.construct u cls args) = some (.ok v, m')) :
    ∃ c, m.registry.lookup u cls = .ok c ∧ m'.store.statics.state c = .done := by
  obtain ⟨hr, rfl⟩ := Machine.perform_some hp
  have hstart : m.moment (.construct u cls args) 0 =
      (State.idle m.store).proceed (m.registry.lookup u cls) fun c =>
        (State.idle m.store).construct c args := rfl
  cases hl : m.registry.lookup u cls with
  | error e =>
    -- a run that starts with an error ends with it
    rw [hl] at hstart
    have hend : m.moment (.construct u cls args) fuel = (State.idle m.store).raise e := by
      show (State.step m.env)^[fuel] (m.moment (.construct u cls args) 0) = _
      rw [hstart]
      exact Function.iterate_fixed rfl fuel
    rw [hend] at hr
    cases hr
  | ok c =>
    rw [hl] at hstart
    have hall : ∀ n, (m.moment (.construct u cls args) n).Constructing c args := by
      intro n
      induction n with
      | zero => rw [hstart]; exact .inl ⟨[], rfl⟩
      | succ n ih =>
        rw [m.moment_succ]
        exact (State.step_transition _ _).constructing (nested_invariant.moment h hop n) ih
    refine ⟨c, rfl, ?_⟩
    rcases hall fuel with ⟨L, hL⟩ | ⟨e, he⟩ | hdone
    · rw [(State.outcome?_some hr).1] at hL
      exact absurd hL.symm (by simp)
    · unfold State.outcome? at hr
      rw [(State.outcome?_some hr).1, he] at hr
      cases hr
    · exact hdone

end Construct

/-! ## Main statement -/

section Main

variable {m : Machine} {past : List State}

/-- Between operations every ancestor of an initialized class is initialized, or has failed and was
reentered from below. An instance is made of a class only if that is so of each of its ancestors that
had failed before, and of each that has failed when it is made. -/
theorem done_on_ancestors (h : History (fun _ => True) m past) :
    (∀ c, m.registry.Has c → m.store.statics.state c = .done → ∀ a ∈ c.ancestors,
      m.store.statics.stateOf a = .done ∨
      (∃ cause, m.store.statics.stateOf a = .failed cause) ∧ Reentered m.registry past c a) ∧
    ∀ u cls args fuel v m', m.perform fuel (.construct u cls args) = some (.ok v, m') →
      ∃ c, m.registry.lookup u cls = .ok c ∧ ∀ a ∈ c.ancestors, ∀ cause,
        (m.store.statics.stateOf a = .failed cause → Reentered m.registry past c a) ∧
        (m'.store.statics.stateOf a = .failed cause →
          Reentered m.registry (past ++ m.moments (.construct u cls args) fuel) c a) := by
  refine ⟨fun c hc hdone a ha => ?_, fun u cls args fuel v m' hp => ?_⟩
  · obtain ⟨hbegun, hdone | hre⟩ := founded_between h c hc hdone a ha
    · exact .inl hdone
    · cases hst : m.store.statics.stateOf a with
      | pending => exact absurd hst hbegun
      | running => exact absurd hst (nested_invariant.between h a)
      | done => exact .inl rfl
      | failed cause => exact .inr ⟨⟨cause, rfl⟩, hre⟩
  · obtain ⟨c, hl, hdone⟩ := construct_done h trivial hp
    have hc : m.registry.Has c := h.sound.has_of_lookup hl
    have hfounded : (m.moment (.construct u cls args) fuel).Founded m.env
        (past ++ m.moments (.construct u cls args) fuel) :=
      founded_moment h trivial (founded_between h) fuel
    obtain ⟨-, rfl⟩ := Machine.perform_some hp
    have hback : ∀ a ∈ c.ancestors, ∀ cause,
        (m.moment (.construct u cls args) fuel).store.statics.stateOf a = .failed cause →
        Reentered m.registry (past ++ m.moments (.construct u cls args) fuel) c a := by
      intro a ha cause hf
      obtain ⟨-, hd | hre⟩ := hfounded.done c hc hdone a ha
      · rw [hf] at hd; cases hd
      · exact hre
    refine ⟨c, hl, fun a ha cause => ⟨fun hf => ?_, hback a ha cause⟩⟩
    have hfailed (n : Nat) : (m.moment (.construct u cls args) n).store.statics.stateOf a =
        .failed cause := failed_moment h trivial hf n
    obtain ⟨d, hd, hmem, had, s, hs, q, hctl, hid, hpend, hrun⟩ := hback a ha cause (hfailed fuel)
    refine ⟨d, hd, hmem, had, s, ?_, q, hctl, hid, hpend, hrun⟩
    -- it was going on before the operation, for it has failed ever since
    rcases List.mem_append.1 hs with hs | hs
    · exact hs
    · obtain ⟨i, -, rfl⟩ := Machine.mem_moments.1 hs
      rw [hfailed i] at hrun
      cases hrun

end Main

/-- A class whose first static field is an instance of its own child, and whose second one fails. -/
def doomed : CompilationUnit :=
  { name := "doomed"
    classes := [{ name := "Base",
                  statics := [⟨"first", .reference, some (.create "Derived" [])⟩,
                    ⟨"ratio", .int, some (.binary .div (.ofInt 1) (.ofInt 0))⟩] },
      { name := "Derived", parent := some "Base" }] }

/-- The machine on which the parent has been asked for, and the states it went through. -/
def doomedRun : Machine × List State :=
  let m := (Machine.load (.boot {} {}) doomed).2
  let op := Operation.prepare 1 "Base"
  ({ m with store := (m.moment op 40).store }, m.moments op 40)

theorem doomedRun_history : History (fun _ => True) doomedRun.1 doomedRun.2 := by
  have hboot : History (fun _ => True) (.boot {} {}) [] := .boot
  have hload : Does (.boot {} {}) (.load doomed) (Machine.load (.boot {} {}) doomed).2 [] := .load
  have h := hboot.act trivial hload
  have hend : (((Machine.load (.boot {} {}) doomed).2.moment (.prepare 1 "Base") 40).outcome?).isSome := by
    decide +kernel
  obtain ⟨r, hr⟩ := Option.isSome_iff_exists.1 hend
  exact h.act trivial (.perform (Machine.perform_of_outcome? le_rfl hr))

/-- The child and its parent after that run. -/
theorem doomedRun_classes : ∃ c p, doomedRun.1.registry.lookup 1 "Derived" = .ok c ∧ c.id = 4 ∧
    doomedRun.1.registry.parent? c = some p ∧ p.id = 3 := by
  have hget : ((doomedRun.1.registry.get? 1 "Derived").map (·.id)) = some 4 := by decide +kernel
  have hparent : ((doomedRun.1.registry.get? 1 "Derived").bind fun c =>
      (doomedRun.1.registry.parent? c).map (·.id)) = some 3 := by decide +kernel
  obtain ⟨c, hc, hid⟩ := Option.map_eq_some_iff.1 hget
  rw [hc] at hparent
  obtain ⟨p, hp, hpid⟩ := Option.map_eq_some_iff.1 hparent
  refine ⟨c, p, ?_, hid, hp, hpid⟩
  unfold Registry.lookup
  rw [hc]

/-- The child is initialized, its parent has failed, and instances of the child can still be made. -/
theorem done_on_failed_parent : ∃ m past, History (fun _ => True) m past ∧ ∃ c p,
    m.registry.lookup 1 "Derived" = .ok c ∧ m.registry.parent? c = some p ∧
    m.store.statics.state c = .done ∧ m.store.statics.state p = .failed .divisionByZero ∧
    ∃ v m', m.perform 40 (.construct 1 "Derived" []) = some (.ok v, m') := by
  obtain ⟨c, p, hc, hid, hp, hpid⟩ := doomedRun_classes
  have hend : (doomedRun.1.moment (.construct 1 "Derived" []) 40).outcome? =
      some (.ok (some (.object ⟨1⟩))) := by decide +kernel
  refine ⟨_, _, doomedRun_history, c, p, hc, hp, ?_, ?_, _, _, Machine.perform_of_outcome? le_rfl hend⟩
  · rw [Statics.state, hid]
    decide +kernel
  · rw [Statics.state, hpid]
    decide +kernel

/-- There the child began while its parent was going on. -/
theorem done_on_ancestors_doomed : ∃ m past, History (fun _ => True) m past ∧ ∃ c a,
    m.registry.Has c ∧ m.store.statics.state c = .done ∧ a ∈ c.ancestors ∧
    m.store.statics.stateOf a ≠ .done ∧ Reentered m.registry past c a := by
  obtain ⟨c, p, hc, hid, hp, hpid⟩ := doomedRun_classes
  have hwf := doomedRun_history.sound
  have hhas : doomedRun.1.registry.Has c := hwf.has_of_lookup hc
  have hmem : p.id ∈ c.ancestors := by
    rw [hwf.ancestors_of_parent hhas hp]
    exact List.mem_cons_self
  have hdone : doomedRun.1.store.statics.state c = .done := by
    rw [Statics.state, hid]
    decide +kernel
  have hfailed : doomedRun.1.store.statics.stateOf p.id ≠ .done := by
    rw [hpid]
    decide +kernel
  refine ⟨_, _, doomedRun_history, c, p.id, hhas, hdone, hmem, hfailed, ?_⟩
  exact (((done_on_ancestors doomedRun_history).1 c hhas hdone p.id hmem).resolve_left hfailed).2

end ObjectMachine
