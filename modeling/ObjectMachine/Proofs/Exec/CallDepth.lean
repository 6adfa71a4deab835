/-
The depth of calls in the course of a run. What a run is asked to do on the way (`Task`) starts on top of
a stack that it leaves alone until it is over, and a step changes the depth by what it does to the stack
(`Shifts`): so the depth above that stack is the number of activations there, and at the end, with an answer
or an error, it is what it was. Bodies and host functions are all entered by way of one gate, and a run
that stands before it (`Entering`) goes one level down or is refused, depending on how many of them are
active. No other step goes down, and none raises the error of a call that is refused.
-/
import ObjectMachine.Proofs.Exec.SuperCalls

namespace ObjectMachine

/-! ## Definitions -/

/-- Something that a run can be asked to do on its way. -/
inductive Task where
  | evaluate (f : Frame) (e : Expr)
  /-- Runs the statements of a frame. -/
  | execute (f : Frame)
  | invoke (e : Method) (receiver : Option Handle) (args : List Value)
  | invokeStatic (c : Class) (method : String) (args : List Value)
  | invokeVirtual (receiver : Value) (method : String) (args : List Value)
  | construct (c : Class) (args : List Value)
  /-- Initializes a class. -/
  | prepare (c : Class)
  | getStatic (c : Class) (field : String)
  | putStatic (c : Class) (field : String) (v : Value)

/-- The state in which a task begins, on top of the stack of a state. -/
def Task.start (env : Env) (s : State) : Task → State
  | .evaluate f e => s.goto (.eval f e)
  | .execute f => s.goto (.exec f)
  | .invoke e receiver args => s.invoke env e receiver args
  | .invokeStatic c method args => s.invokeStatic env c method args
  | .invokeVirtual receiver method args => s.invokeVirtual env receiver method args
  | .construct c args => s.construct c args
  | .prepare c => s.goto (.init c)
  | .getStatic c field => s.getStatic env c field
  | .putStatic c field v => s.putStatic env c field v

/-- The state of a task after a number of steps. -/
def Task.moment (env : Env) (s : State) (task : Task) (n : Nat) : State :=
  (State.step env)^[n] (task.start env s)

/-- What began on top of the stack `K` has ended, with an answer or an error. -/
structure State.Over (K : List Cont) (s : State) : Prop where
  stack : s.stack = K
  outcome : s.control.IsOutcome

/-- Above the stack `K` the activations are counted from the depth `d` on. -/
def State.CountsAbove (K : List Cont) (d : Nat) (s : State) : Prop :=
  ∃ own, s.stack = own ++ K ∧ s.depth = d + activations own

/-- Something has been put on the stack, but no activation. -/
def State.SetsUp (s t : State) : Prop :=
  ∃ own, t.stack = own ++ s.stack ∧ activations own = 0 ∧ t.depth = s.depth

/-- A body or a host function is about to be entered: that of a method, of the constructor of a new
object, or of the constructor of a parent. -/
inductive State.Entering (env : Env) (s : State) : Prop where
  | method {e declaring receiver args} : s.control = .enter e declaring receiver args → Entering env s
  | constructor {c args k} : s.control = .create c args → c.selectConstructor args = .ok k → Entering env s
  | superInit {f args ref p k K} : Completes .superInit args f s.control s.stack K → f.this = some ref →
      env.registry.parent? f.cls = some p → p.selectConstructor args = .ok k → Entering env s

/-- Nothing is entered or left, and no call is refused. -/
structure State.SameLevel (s t : State) : Prop where
  depth : t.depth = s.depth
  admitted : ∀ limit, t.control ≠ .raise (.stackOverflow limit)

/-! ## What stands above a stack -/

section Tasks

variable {env : Env} {s s' : State} {K : List Cont} {d : Nat}

/-- A step of what is not over leaves the stack below alone. -/
theorem State.Shifts.above (h : s.Shifts s') (hs : s.CountsAbove K d) (hover : ¬ s.Over K) :
    s'.CountsAbove K d := by
  obtain ⟨own, hstack, hd⟩ := hs
  cases h with
  | @push P hP hpush =>
    refine ⟨P ++ own, by rw [hP, hstack, List.append_assoc], ?_⟩
    rw [activations_append]
    omega
  | @pop k L P hout hK hP hpop =>
    rw [hstack] at hK
    cases own with
    | nil => exact absurd ⟨hstack, hout⟩ hover
    | cons top own =>
      obtain ⟨rfl, rfl⟩ := List.cons.inj hK
      have htop : activations (top :: own) = activations [top] + activations own :=
        activations_append [top] own
      refine ⟨P ++ own, hP.trans (List.append_assoc ..).symm, ?_⟩
      rw [activations_append]
      omega

theorem State.invoke_setsUp (e : Method) (receiver : Option Handle) (args : List Value) :
    s.SetsUp (s.invoke env e receiver args) := by
  unfold State.invoke
  split
  · exact ⟨[], rfl, rfl, rfl⟩
  · split
    · exact ⟨[.thenInvoke _ _ _], rfl, rfl, rfl⟩
    · exact ⟨[], rfl, rfl, rfl⟩

/-- A task begins with no activation of its own. -/
theorem Task.start_setsUp (env : Env) (s : State) (task : Task) : s.SetsUp (task.start env s) := by
  have hraise (e : Failure) : s.SetsUp (s.raise e) := ⟨[], rfl, rfl, rfl⟩
  cases task with
  | evaluate f e => exact ⟨[], rfl, rfl, rfl⟩
  | execute f => exact ⟨[], rfl, rfl, rfl⟩
  | invoke e receiver args => exact State.invoke_setsUp e receiver args
  | invokeStatic c method args =>
    simp only [Task.start, State.invokeStatic]
    cases c.select .static method args with
    | error e => exact hraise e
    | ok e => exact State.invoke_setsUp e none args
  | invokeVirtual receiver method args =>
    simp only [Task.start, State.invokeVirtual]
    cases selectVirtual (s.store.classOf? env.registry) receiver method args with
    | error e => exact hraise e
    | ok selected => exact State.invoke_setsUp selected.2 (some selected.1) args
  | construct c args => exact ⟨[.thenCreate c args], rfl, rfl, rfl⟩
  | prepare c => exact ⟨[], rfl, rfl, rfl⟩
  | getStatic c field =>
    simp only [Task.start, State.getStatic]
    split
    · exact hraise _
    · exact ⟨[.thenRead _ _ _], rfl, rfl, rfl⟩
  | putStatic c field v =>
    simp only [Task.start, State.putStatic]
    split
    · exact hraise _
    · exact ⟨[.thenWrite _ _ _ _], rfl, rfl, rfl⟩

theorem Task.moment_succ (env : Env) (s : State) (task : Task) (n : Nat) :
    task.moment env s (n + 1) = (task.moment env s n).step env :=
  Function.iterate_succ_apply' _ _ _

/-- As long as a task is not over, the depth is the one it began at and its own activations. -/
theorem Task.moment_above {task : Task} {n : Nat} (hn : ∀ i < n, ¬ (task.moment env s i).Over s.stack) :
    (task.moment env s n).CountsAbove s.stack s.depth := by
  induction n with
  | zero =>
    obtain ⟨own, hstack, hown, hd⟩ := task.start_setsUp env s
    exact ⟨own, hstack, by rw [hown]; exact hd⟩
  | succ n ih =>
    rw [task.moment_succ]
    exact (State.step_transition env _).shifts.above (ih fun i hi => hn i (by omega)) (hn n (by omega))

theorem Task.moment_bound {task : Task} (hd : s.depth ≤ env.options.maxCallDepth) (n : Nat) :
    (task.moment env s n).depth ≤ env.options.maxCallDepth := by
  induction n with
  | zero =>
    obtain ⟨own, -, -, hstart⟩ := task.start_setsUp env s
    exact hstart.trans_le hd
  | succ n ih =>
    rw [task.moment_succ]
    exact (State.step_transition env _).depth_le.elim (·.trans ih) id

/-- Below an operation there is nothing. -/
theorem State.over_nil : s.Over [] ↔ s.outcome?.isSome = true := by
  constructor
  · rintro ⟨hstack, hout⟩
    obtain ⟨c, L, d, σ⟩ := s
    simp only at hstack hout
    subst hstack
    cases c with
    | answer v | raise e => rfl
    | _ => exact hout.elim
  · intro hsome
    obtain ⟨r, hr⟩ := Option.isSome_iff_exists.1 hsome
    obtain ⟨hstack, ⟨v, hc⟩ | ⟨e, hc⟩⟩ := State.outcome?_some hr
    · exact ⟨hstack, by rw [hc]; trivial⟩
    · exact ⟨hstack, by rw [hc]; trivial⟩

theorem State.CountsAbove.over (h : s.CountsAbove K d) (hover : s.Over K) : s.depth = d := by
  obtain ⟨own, hstack, hd⟩ := h
  rw [hover.stack] at hstack
  obtain rfl : own = [] := by simpa using hstack
  exact hd

end Tasks

/-! ## The gate -/

section Gate

variable {env : Env} {s s' t : State} {f : Frame} {K : List Cont}

/-- A check is not about the depth of calls. -/
theorem Failure.IsCheck.admitted {e : Failure} (h : e.IsCheck) (limit : Nat) : e ≠ .stackOverflow limit := by
  rintro rfl
  exact h

theorem State.SameLevel.of_fail (hd : t.depth = s.depth) {e : Failure} (he : e.IsCheck)
    (hc : t.control = .raise e) : s.SameLevel t := by
  refine ⟨hd, fun limit h => he.admitted limit ?_⟩
  rw [hc] at h
  exact Control.raise.inj h

theorem State.proceed_sameLevel {α : Type} {r : Except Failure α} {next : α → State}
    (hd : t.depth = s.depth) (herr : ∀ e, r = .error e → e.IsCheck)
    (hok : ∀ a, r = .ok a → s.SameLevel (next a)) : s.SameLevel (t.proceed r next) := by
  cases r with
  | error e => exact .of_fail hd (herr e rfl) rfl
  | ok a => exact hok a rfl

/-- Expressions enter nothing themselves. -/
theorem CodeStep.sameLevel (h : CodeStep env f { s with stack := K } t) : s.SameLevel t := by
  cases h with
  | fail he => exact .of_fail rfl he rfl
  | answer | evaluate | access | callVirtual | callSuper => exact ⟨rfl, fun _ => Control.noConfusion⟩

theorem State.decide_sameLevel {answer : Value} {yes no : Frame} :
    s.SameLevel ({ s with stack := K }.decide answer yes no) := by
  unfold State.decide
  split
  · exact ⟨rfl, fun _ => Control.noConfusion⟩
  · exact ⟨rfl, fun _ => Control.noConfusion⟩
  · exact .of_fail rfl (e := .typeMismatch _ _) trivial rfl

theorem State.writeField_sameLevel {owner field : String} {target v : Value} :
    s.SameLevel ({ s with stack := K }.writeField env owner field f target v) := by
  unfold State.writeField
  refine proceed_sameLevel rfl (fun _ he => Registry.lookup_isCheck he) fun c _ => ?_
  refine proceed_sameLevel rfl (fun _ he => locateField_isCheck he) fun ⟨ref, slot⟩ _ => ?_
  simp only
  split
  · exact .of_fail rfl (e := unknownField c field) trivial rfl
  · split
    · split
      · exact ⟨rfl, fun _ => Control.noConfusion⟩
      · exact .of_fail rfl (e := unknownField c field) trivial rfl
    · exact .of_fail rfl (e := .typeMismatch _ _) trivial rfl

theorem State.Accesses.sameLevel {u : UnitId} (h : s'.Accesses env u t) (hd : s'.depth = s.depth) :
    s.SameLevel t := by
  rcases h with ⟨e, he, rfl⟩ | ⟨k, c, -, rfl⟩
  · exact .of_fail hd he rfl
  · exact ⟨hd, fun _ => Control.noConfusion⟩

/-- A constructor of the parent is found, or nothing is entered. -/
theorem superInit_sameLevel {args : List Value} (h : ∀ ref p k, f.this = some ref →
      env.registry.parent? f.cls = some p → p.selectConstructor args ≠ .ok k) :
    s.SameLevel ({ s with stack := K }.superInit env f args) := by
  unfold State.superInit State.receiverOf
  cases hthis : f.this with
  | none => exact .of_fail rfl (e := .typeMismatch _ _) trivial rfl
  | some ref =>
    simp only [State.proceed]
    cases hp : env.registry.parent? f.cls with
    | none => exact .of_fail rfl (e := .noMatchingConstructor _ _ _) trivial rfl
    | some p =>
      refine State.proceed_sameLevel rfl (fun _ he => Class.selectConstructor_isCheck he) fun k hk => ?_
      exact absurd hk (h ref p k hthis hp)

/-- The arguments of a call are complete and it is that of a parent's constructor, or nothing is
entered. -/
theorem arguments_sameLevel {target : CallTarget} {before : List Value} {after : List Expr}
    (h : target = .superInit → after = [] → ∀ ref p k, f.this = some ref →
      env.registry.parent? f.cls = some p → p.selectConstructor before.reverse ≠ .ok k) :
    s.SameLevel ({ s with stack := K }.arguments env target before after f) := by
  by_cases hsuper : target = .superInit ∧ after = []
  · obtain ⟨rfl, rfl⟩ := hsuper
    exact superInit_sameLevel (h rfl rfl)
  · exact (State.arguments_codeStep (not_and_or.1 hsuper)).sameLevel

/-- The code of a frame goes on on the same level, unless it is about to enter a parent's constructor. -/
theorem Runs.sameLevel (h : Runs f s.control s.stack K) (hs : ¬ s.Entering env) :
    s.SameLevel (s.step env) := by
  obtain ⟨c, L, d, σ⟩ := s
  simp only at h
  cases h with
  | eval => exact (State.eval_codeStep _).sameLevel
  | @exec g =>
    show State.SameLevel _ (State.exec env _ g)
    unfold State.exec
    split
    · exact ⟨rfl, fun _ => Control.noConfusion⟩
    · rename_i stmt rest hcode
      cases stmt with
      | giveBack value => cases value <;> exact ⟨rfl, fun _ => Control.noConfusion⟩
      | superInit args =>
        refine arguments_sameLevel fun _ hnil ref p k hthis hp hk => hs ?_
        subst hnil
        exact .superInit (.init hcode) hthis hp hk
      | _ => exact ⟨rfl, fun _ => Control.noConfusion⟩
  | @resumed g v k _ hk =>
    show State.SameLevel _ (State.resume env _ k v)
    cases k with
    | argument target before after f' =>
      obtain rfl : f' = g := Option.some.inj hk.1
      refine arguments_sameLevel fun htarget hnil ref p k hthis hp hsel => hs ?_
      subst htarget hnil
      rw [List.reverse_cons] at hsel
      exact .superInit .last hthis hp hsel
    | receiver method args f' =>
      have hvirtual : CallTarget.virtual (v.getD .null) method ≠ .superInit := CallTarget.noConfusion
      exact (State.arguments_codeStep (.inl hvirtual)).sameLevel
    | readField owner field f' => exact State.readField_codeStep.sameLevel
    | putValue owner field object f' => exact State.writeField_sameLevel
    | putStatic cls field f' =>
      refine State.proceed_sameLevel rfl (fun _ he => Registry.lookup_isCheck he) fun c hc => ?_
      have haccess := State.putStatic_accesses (s := ⟨.answer v, .resume f' :: K, d, σ⟩) hc field
        (v.getD .null)
      exact haccess.sameLevel rfl
    | branch yes no f' | loop cond body f' => exact State.decide_sameLevel
    | binaryLeft | discard | store | putObject | giveBack | resume => exact ⟨rfl, fun _ => Control.noConfusion⟩
    | superDone => cases hk.2
    | _ => cases hk.1

/-- Whatever is about to be entered goes through the gate. -/
theorem State.Entering.step_eq (h : s.Entering env) : ∃ (t : State) (k : Cont) (c : Control),
    t.depth = s.depth ∧ s.step env = t.activate env k c ∧ ∀ e, c ≠ .raise e := by
  cases h with
  | @method e declaring receiver args hc =>
    have hstep : s.step env = s.enterMethod env e declaring receiver args := by
      unfold State.step
      rw [hc]
    rw [hstep]
    unfold State.enterMethod
    simp only
    split
    · exact ⟨s, _, _, rfl, rfl, fun _ => Control.noConfusion⟩
    · exact ⟨s, _, _, rfl, rfl, fun _ => Control.noConfusion⟩
  | @constructor c args k hc hk =>
    have hstep : s.step env = s.allocate env c args := by
      unfold State.step
      rw [hc]
    rw [hstep]
    unfold State.allocate
    rw [hk]
    obtain ⟨heap, -, hroom⟩ := State.makeRoom_eq env s
    exact ⟨(s.makeRoom env).addObject c, _, _, by rw [hroom]; rfl, rfl, fun _ => Control.noConfusion⟩
  | @superInit f args ref p k K hcomp hthis hp hk =>
    rw [hcomp.step]
    simp only [State.call, State.superInit, State.receiverOf, hthis, State.proceed, hp, hk]
    exact ⟨{ s with stack := K }, _, _, rfl, rfl, fun _ => Control.noConfusion⟩

/-- A run that is on its way up with an error enters nothing. -/
theorem State.Entering.not_raise (h : s.Entering env) (e : Failure) : s.control ≠ .raise e := by
  intro hc
  cases h with
  | method hm =>
    rw [hc] at hm
    cases hm
  | constructor hm =>
    rw [hc] at hm
    cases hm
  | superInit hcomp =>
    rw [hc] at hcomp
    cases hcomp

/-- Below the limit a body that is about to be entered is active next, one level down. -/
theorem State.Entering.admitted (h : s.Entering env) (hd : s.depth < env.options.maxCallDepth) :
    (s.step env).depth = s.depth + 1 ∧ ∀ e, (s.step env).control ≠ .raise e := by
  obtain ⟨t, k, c, ht, heq, hc⟩ := h.step_eq
  rw [heq]
  unfold State.activate
  rw [ht, if_neg hd.not_ge]
  exact ⟨rfl, hc⟩

/-- At the limit it is refused. -/
theorem State.Entering.refused (h : s.Entering env) (hd : env.options.maxCallDepth ≤ s.depth) :
    (s.step env).depth = s.depth ∧
      (s.step env).control = .raise (.stackOverflow env.options.maxCallDepth) := by
  obtain ⟨t, k, c, ht, heq, -⟩ := h.step_eq
  rw [heq]
  unfold State.activate
  rw [ht, if_pos hd]
  exact ⟨ht, rfl⟩

/-- Where nothing is about to be entered no step goes down, and none refuses a call anew. -/
theorem State.step_not_entering (h : ¬ s.Entering env) : (s.step env).depth ≤ s.depth ∧
    ∀ limit, (s.step env).control = .raise (.stackOverflow limit) → ∃ e, s.control = .raise e := by
  have hstep := State.step_transition env s
  generalize hnext : s.step env = t at hstep
  cases hstep with
  | enterSuper hrun =>
    have hlevel := (hrun.sameLevel h).depth
    rw [hnext] at hlevel
    exact absurd hlevel (Nat.succ_ne_self _)
  | superOverflow hrun =>
    have hlevel := (hrun.sameLevel h).admitted env.options.maxCallDepth
    rw [hnext] at hlevel
    exact absurd rfl hlevel
  | enterBody | enterHost | enterOverflow => exact absurd (.method rfl) h
  | create hk | createOverflow hk => exact absurd (.constructor rfl hk) h
  | fail _ he | failWrite he | operateFail _ he | giveFail _ he | hostFail _ he | createFail _ he
  | staticFail he | thenReadFail he | thenWriteFail he =>
    refine ⟨by first | exact le_rfl | exact Nat.sub_le _ 1, fun limit hc => ?_⟩
    exact absurd (Control.raise.inj hc) (he.admitted limit)
  | unwindInit | unwindActivation | unwind => exact ⟨by first | exact le_rfl | exact Nat.sub_le _ 1, fun _ _ => ⟨_, rfl⟩⟩
  | ended hc => exact ⟨le_rfl, fun limit hl => ⟨_, hl⟩⟩
  | give | constructed | superReturned | hostReturned => exact ⟨Nat.sub_le _ 1, nofun⟩
  | _ => exact ⟨le_rfl, nofun⟩

end Gate

/-! ## Main statement -/

/-- What a run is asked to do at a depth within the limit counts its own activations on top of that depth,
stays within the limit, and gives the depth back when it is over, with an answer or with an error. From
the start of an operation on, the depth is the number of activations on the stack. It goes up, by one,
exactly where a body or a host function is about to be entered below the limit, and the error of a call
that is refused arises exactly where one is about to be entered at the limit. -/
theorem call_depth_exact {m : Machine} {past : List State} (h : History (fun _ => True) m past) :
    (∀ (env : Env) (s : State) (task : Task) (n : Nat), s.depth ≤ env.options.maxCallDepth →
      (∀ i < n, ¬ (task.moment env s i).Over s.stack) →
      (task.moment env s n).CountsAbove s.stack s.depth ∧
      (task.moment env s n).depth ≤ env.options.maxCallDepth ∧
      ((task.moment env s n).Over s.stack → (task.moment env s n).depth = s.depth)) ∧
    (∀ op n, (m.moment op n).depth = activations (m.moment op n).stack ∧
      (m.moment op n).depth ≤ m.options.maxCallDepth) ∧
    (∀ op n, (m.moment op n).depth < (m.moment op (n + 1)).depth ↔
      (m.moment op n).Entering m.env ∧ activations (m.moment op n).stack < m.options.maxCallDepth) ∧
    (∀ op n, (m.moment op (n + 1)).depth ≤ (m.moment op n).depth + 1) ∧
    (∀ op n limit, (∀ e, (m.moment op n).control ≠ .raise e) ∧
        (m.moment op (n + 1)).control = .raise (.stackOverflow limit) ↔
      (m.moment op n).Entering m.env ∧ activations (m.moment op n).stack = m.options.maxCallDepth ∧
        limit = m.options.maxCallDepth) ∧
    ∀ op limit, (m.moment op 0).control ≠ .raise (.stackOverflow limit) := by
  have hcounts (op : Operation) (n : Nat) : (m.moment op n).Counts m.env :=
    counts_invariant.moment h trivial n
  refine ⟨fun env s task n hd hn => ?_, fun op n => ⟨(hcounts op n).depth, (hcounts op n).bound⟩,
    fun op n => ?_, fun op n => ?_, fun op n limit => ?_, fun op limit => ?_⟩
  · have habove := Task.moment_above hn
    exact ⟨habove, Task.moment_bound hd n, habove.over⟩
  · rw [m.moment_succ, ← (hcounts op n).depth]
    by_cases hin : (m.moment op n).Entering m.env
    · constructor
      · intro hup
        refine ⟨hin, Nat.lt_of_not_le fun hle => ?_⟩
        rw [(hin.refused hle).1] at hup
        exact hup.false
      · rintro ⟨-, hlt⟩
        rw [(hin.admitted hlt).1]
        exact Nat.lt_succ_self _
    · constructor
      · intro hup
        exact absurd (State.step_not_entering hin).1 hup.not_ge
      · rintro ⟨hin', -⟩
        exact absurd hin' hin
  · rw [m.moment_succ]
    by_cases hin : (m.moment op n).Entering m.env
    · rcases lt_or_ge (m.moment op n).depth m.options.maxCallDepth with hlt | hle
      · exact (hin.admitted hlt).1.le
      · exact (hin.refused hle).1.le.trans (Nat.le_succ _)
    · exact (State.step_not_entering hin).1.trans (Nat.le_succ _)
  · rw [m.moment_succ, ← (hcounts op n).depth]
    constructor
    · rintro ⟨hfresh, hraised⟩
      have hin : (m.moment op n).Entering m.env := by
        by_contra hno
        obtain ⟨e, he⟩ := (State.step_not_entering hno).2 limit hraised
        exact hfresh e he
      have hle : m.options.maxCallDepth ≤ (m.moment op n).depth := by
        by_contra hlt
        exact (hin.admitted (Nat.lt_of_not_le hlt)).2 _ hraised
      rw [(hin.refused hle).2] at hraised
      cases hraised
      exact ⟨hin, (hcounts op n).bound.antisymm hle, rfl⟩
    · rintro ⟨hin, hd, rfl⟩
      exact ⟨hin.not_raise, (hin.refused hd.ge).2⟩
  · have hstart : Starts m.env op m.store (m.moment op 0) := start_starts m.env op m.store
    generalize m.moment op 0 = s at hstart
    cases hstart with
    | failed he => exact fun hc => he.admitted limit (Control.raise.inj hc)
    | access | virtual | prepare | eval | run => nofun

/-- Two classes whose constructors run without end, the lower by way of the upper. -/
def descent : CompilationUnit :=
  { name := "descent"
    classes := [
      { name := "Upper"
        constructors := [{ params := [], body := { code := [.expr (.create "Lower" [])] } }] },
      { name := "Lower", parent := some "Upper"
        constructors := [{ params := [], body := { code := [.superInit []] } }] }] }

def descentMachine : Machine := (Machine.load (.boot { maxCallDepth := 4 } {}) descent).2

/-- The control is about to enter the constructor of a new object. -/
def Control.creates : Control → Bool
  | .create c args => (c.selectConstructor args).toBool
  | _ => false

theorem State.Entering.of_creates {env : Env} {s : State} (h : s.control.creates = true) :
    s.Entering env := by
  obtain ⟨c, K, d, σ⟩ := s
  simp only [Control.creates] at h
  split at h
  · rename_i c args
    cases hk : c.selectConstructor args with
    | error e =>
      rw [hk] at h
      cases h
    | ok k => exact .constructor rfl hk
  · cases h

/-- Four bodies are active when the third object is to be made; the error is on its way up for six more
steps, and then none of them is. -/
theorem call_depth_exact_descent : ∃ c : Class,
    descentMachine.registry.lookup 1 "Lower" = .ok c ∧
    ((Task.construct c []).moment descentMachine.env (.idle descentMachine.store) 21).control =
      .raise (.stackOverflow 4) ∧
    ((Task.construct c []).moment descentMachine.env (.idle descentMachine.store) 27).Over [] ∧
    ((Task.construct c []).moment descentMachine.env (.idle descentMachine.store) 27).depth = 0 := by
  have hboot : History (fun _ => True) (.boot { maxCallDepth := 4 } {}) [] := .boot
  obtain ⟨htask, -, -, -, hgate, -⟩ := call_depth_exact (hboot.act (a := .load descent) trivial .load)
  cases hc : descentMachine.registry.lookup 1 "Lower" with
  | error e =>
    have hok : (descentMachine.registry.lookup 1 "Lower").toBool = true := by decide +kernel
    rw [hc] at hok
    cases hok
  | ok c =>
    have hmoment (n : Nat) : (Task.construct c []).moment descentMachine.env (.idle descentMachine.store) n =
        descentMachine.moment (.construct 1 "Lower" []) n := by
      have hstart : (Operation.construct 1 "Lower" []).start descentMachine.env descentMachine.store =
          State.proceed (.idle descentMachine.store) (descentMachine.registry.lookup 1 "Lower") fun c =>
            State.construct (.idle descentMachine.store) c [] := rfl
      unfold Machine.moment
      rw [hstart, hc]
      rfl
    have hrunning : ∀ i < 27, (descentMachine.moment (.construct 1 "Lower" []) i).outcome?.isSome = false := by
      decide +kernel
    have hend : ((Task.construct c []).moment descentMachine.env (.idle descentMachine.store) 27).Over [] := by
      rw [hmoment, State.over_nil]
      decide +kernel
    refine ⟨c, rfl, ?_, hend, ?_⟩
    · rw [hmoment]
      refine ((hgate (.construct 1 "Lower" []) 20 4).2 ⟨.of_creates ?_, ?_, rfl⟩).2
      · decide +kernel
      · decide +kernel
    · refine (htask _ _ _ 27 (Nat.zero_le _) fun i hi ho => ?_).2.2 hend
      have hsome := hrunning i hi
      rw [← hmoment, State.over_nil.1 ho] at hsome
      cases hsome

end ObjectMachine
