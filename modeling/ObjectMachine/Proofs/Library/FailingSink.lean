/-
Printing to a sink that gives up. How much a sink will take is looked at where a host function writes a
line, and nowhere else. So a run with a sink that takes a number of further lines goes side by side with
the run whose sink takes them all, up to the first line for which there is no room. There the host function
fails; it is `println`, as no other bundled function writes. And since nothing takes an error back, all
that is left of the run is to report it: the error goes up the stack, and every class whose initialization
it passes is recorded as failed.
-/
import ObjectMachine.Proofs.Exec.Lockstep
import ObjectMachine.Proofs.Exec.Depth
import ObjectMachine.Proofs.Exec.Unwinding
import ObjectMachine.Proofs.Library.Bundled

namespace ObjectMachine

/-! ## Definitions -/

/-- The sink takes every line. -/
def Sink.TakesAll (sink : Sink) : Prop := ∀ n, sink.refuses n = none

/-- The machine with a sink that takes every line. -/
def Machine.unlimited (m : Machine) : Machine :=
  { m with store := { m.store with sink := m.store.sink.unlimited } }

/-- The store with a sink that takes a number of further lines, and refuses all others with a text. -/
def Store.limited (σ : Store) (room : Nat) (refusal : String) : Store :=
  { σ with sink := σ.sink.limited room refusal }

def State.limited (s : State) (room : Nat) (refusal : String) : State :=
  { s with store := s.store.limited room refusal }

def Machine.limited (m : Machine) (room : Nat) (refusal : String) : Machine :=
  { m with store := m.store.limited room refusal }

/-- The store with a sink that refuses every line once it has been asked a number of times in all. -/
def Store.upTo (total : Nat) (refusal : String) (σ : Store) : Store :=
  { σ with sink := { σ.sink with refuses := fun n => if n < total then none else some refusal } }

/-- The line that a host function is about to write, with its stream. -/
def State.writes? (env : Env) (s : State) : Option (Stream × String) :=
  match s.control with
  | .host _ _ (.write stream v _) => some (stream, s.store.text env.registry v)
  | _ => none

/-- A line is about to be written when the sink has been asked as often as it takes lines. -/
def State.Overruns (env : Env) (total : Nat) (s : State) : Prop :=
  (s.writes? env).isSome ∧ total ≤ s.store.sink.asked

/-- The program asks for one service at most. -/
def HostProgram.IsBrief : HostProgram → Prop
  | .reply _ => True
  | .write _ _ next => ∀ outcome, ∃ r, next outcome = .reply r
  | .collect next => ∀ swept, ∃ r, next swept = .reply r
  | .clock next => ∀ now, ∃ r, next now = .reply r

/-- The host function that a state is in the middle of is a bundled one, as it was entered, or has come to
its reply. -/
def State.Hosted (env : Env) (s : State) : Prop :=
  ∀ e args p, s.control = .host e args p → env.registry.Lists e ∧ ((∃ r, p = .reply r) ∨
    ∃ key f view, Library.natives.get? key = some f ∧ e.impl = .native f ∧ p = f view args)

/-- A host function called through `e` has failed with a diagnostic: it replies so, or the error is on its
way up. -/
inductive Control.Tells (e : Method) (diagnostic : String) : Control → Prop where
  | reply {args} : Tells e diagnostic (.host e args (.reply (.fault (.failed diagnostic))))
  | raise {err : Failure} : err.root = .nativeCallFailed e.qualifiedName diagnostic →
      Tells e diagnostic (.raise err)

/-- From the state `s`, in which the sink refuses a line, to the state `t` nothing is done but to report that
the host function called through `e` has failed: no code runs, and nothing is stored but that the sink has
been asked once more and that classes have failed. -/
structure State.Reports (e : Method) (diagnostic : String) (s t : State) : Prop where
  control : t.control.Tells e diagnostic
  stack : t.stack <:+ s.stack
  heap : t.store.heap = s.store.heap
  sink : t.store.sink = s.store.sink.pass
  clock : t.store.clock = s.store.clock
  statics : s.store.statics.FailsTo t.store.statics

/-- With room for a number of lines, the run of an operation is cut short at a moment, where the line is
refused that `println`, called through `e`, is about to write. Up to there the run goes as with a sink
that takes every line. -/
structure Machine.CutShort (m : Machine) (op : Operation) (room : Nat) (refusal : String) (moment : Nat)
    (e : Method) (line : Stream × String) : Prop where
  same : ∀ i ≤ moment, ∃ left,
    (m.limited room refusal).moment op i = (m.unlimited.moment op i).limited left refusal
  listed : m.registry.Lists e
  println : e.impl = .native Library.println
  writes : ∃ args v next,
    ((m.limited room refusal).moment op moment).control = .host e args (.write line.1 v next) ∧
    ((m.limited room refusal).moment op moment).store.text m.registry v = line.2
  full : ((m.limited room refusal).moment op moment).store.sink.refusal? = some refusal
  reports : ∀ i > moment, ((m.limited room refusal).moment op moment).Reports e
    (Library.refused line.1 refusal) ((m.limited room refusal).moment op i)

/-! ## Bundled host functions -/

namespace Library

variable {key : BindingKey} {f : HostFunction}

/-- Of the bundled functions only `println` writes. -/
theorem write_println (h : natives.get? key = some f) {view : HostView} {args : List Value}
    {stream : Stream} {v : Value} {next : Except String Unit → HostProgram}
    (hw : f view args = .write stream v next) :
    f = println ∧ next (.ok ()) = .reply .void ∧
      ∀ refusal, next (.error refusal) = fail (refused stream refusal) := by
  rcases bound h with rfl | rfl | rfl | rfl
  · rcases println_cases view args with ⟨r, hr⟩ | ⟨_, _, _, hp, hnext⟩
    · rw [hr] at hw
      cases hw
    · rw [hp] at hw
      cases hw
      exact ⟨rfl, hnext⟩
  · cases hw
  · cases hw
  · obtain ⟨r, hr⟩ := readLong_reply view args
    rw [hr] at hw
    cases hw

theorem isBrief (h : natives.get? key = some f) (view : HostView) (args : List Value) :
    (f view args).IsBrief := by
  rcases bound h with rfl | rfl | rfl | rfl
  · rcases println_cases view args with ⟨r, hr⟩ | ⟨_, _, _, hp, hok, herror⟩
    · rw [hr]
      trivial
    · rw [hp]
      rintro (refusal | ⟨⟩)
      · exact ⟨_, herror refusal⟩
      · exact ⟨_, hok⟩
  · exact fun _ => ⟨_, rfl⟩
  · exact fun _ => ⟨_, rfl⟩
  · obtain ⟨r, hr⟩ := readLong_reply view args
    rw [hr]
    trivial

end Library

/-! ## Sinks -/

theorem Sink.TakesAll.write {sink : Sink} (h : sink.TakesAll) (stream : Stream) (text : String) :
    sink.write stream text = (.ok (), sink.take stream text) :=
  Sink.write_taken (h _) stream text

theorem Store.refusal?_upTo (total : Nat) (refusal : String) (σ : Store) :
    (σ.upTo total refusal).sink.refusal? = if σ.sink.asked < total then none else some refusal := rfl

/-- Room for a number of further lines is room up to a number in all. -/
theorem Store.upTo_eq_limited {σ : Store} {total : Nat} (h : σ.sink.asked ≤ total) (refusal : String) :
    σ.upTo total refusal = σ.limited (total - σ.sink.asked) refusal := by
  obtain ⟨left, rfl⟩ := Nat.exists_eq_add_of_le h
  rw [Nat.add_sub_cancel_left]
  rfl

/-! ## Steps -/

namespace State

section Steps

variable {env : Env} {s : State}

theorem hostStep_brief {e : Method} {args : List Value} {p : HostProgram} (hp : p.IsBrief)
    {e' : Method} {args' : List Value} {p' : HostProgram}
    (h : (s.hostStep env e args p).control = .host e' args' p') : ∃ r, p' = .reply r := by
  cases p with
  | reply r =>
    unfold hostStep proceed at h
    dsimp only at h
    split at h <;> cases h
  | write stream v next =>
    cases h
    exact hp _
  | clock next =>
    cases h
    exact hp _
  | collect next =>
    obtain ⟨swept, heap, -, heq⟩ := hostStep_collect env s e args next
    rw [heq] at h
    cases h
    exact hp swept

/-- A host function is entered as the bundled one that it is bound to, and then replies. -/
theorem step_hosted (hosts : env.registry.BundledHosts) (hlist : s.Listed env) (hs : s.Hosted env) :
    (s.step env).Hosted env := by
  refine step_host_keeps hlist ?_ ?_ hs
  · intro e f he hi view args
    obtain ⟨key, hkey⟩ := hosts e he f hi
    exact ⟨he, .inr ⟨key, f, view, hkey, hi, rfl⟩⟩
  · rintro e args p p' ⟨he, hp⟩ hc
    refine ⟨he, .inl (hostStep_brief ?_ hc)⟩
    rcases hp with ⟨r, rfl⟩ | ⟨key, f, view, hkey, -, rfl⟩
    · trivial
    · exact Library.isBrief hkey view args

theorem writes?_some {line : Stream × String} (h : s.writes? env = some line) :
    ∃ e args v next, s.control = .host e args (.write line.1 v next) ∧ s.store.text env.registry v = line.2 := by
  unfold writes? at h
  split at h
  · rename_i e args stream v next hc
    cases h
    exact ⟨e, args, v, next, hc, rfl⟩
  · cases h

/-- What a step does to a sink that takes every line: it takes the line that is about to be written. -/
theorem step_sink (htakes : s.store.sink.TakesAll) : (s.step env).store.sink =
    (s.writes? env).elim s.store.sink fun line => s.store.sink.take line.1 line.2 := by
  by_cases hhost : ∃ e args p, s.control = .host e args p
  · obtain ⟨e, args, p, hc⟩ := hhost
    simp only [step, hc]
    cases p with
    | reply r =>
      unfold hostStep proceed
      dsimp only
      split <;> simp [writes?, hc, raise, goto]
    | write stream v next => simp [hostStep, writes?, hc, htakes.write]
    | clock next => simp [hostStep, writes?, hc, Store.tick]
    | collect next =>
      obtain ⟨swept, heap, -, heq⟩ := hostStep_collect env s e args next
      rw [heq]
      simp [writes?, hc]
  · have hnone : s.writes? env = none := by
      unfold writes?
      split
      · rename_i hc
        exact absurd ⟨_, _, _, hc⟩ hhost
      · rfl
    rw [hnone]
    have ht := step_transition env s
    generalize s.step env = s' at ht ⊢
    cases ht with
    | hostService => exact absurd ⟨_, _, _, rfl⟩ hhost
    | _ => simp

/-- The code of a program does not notice how many lines the sink takes. -/
theorem unnoticed_upTo (env : Env) (total : Nat) (refusal : String) :
    Unnoticed env env (Store.upTo total refusal) where
  registry := rfl
  maxCallDepth := rfl
  objects := fun _ => rfl
  statics := fun _ => rfl
  setStatics := fun _ _ => rfl
  setCell := fun _ _ _ _ => rfl

theorem allocate_upTo {total : Nat} {refusal : String} (c : Class) (args : List Value) :
    (s.change (Store.upTo total refusal)).allocate env c args =
      (s.allocate env c args).change (Store.upTo total refusal) := by
  have hroom : (s.change (Store.upTo total refusal)).makeRoom env =
      (s.makeRoom env).change (Store.upTo total refusal) := by
    have hfull : (s.change (Store.upTo total refusal)).store.heap.isFull = s.store.heap.isFull := rfl
    unfold makeRoom
    rw [hfull]
    split <;> rfl
  refine proceed_change fun k => ?_
  dsimp only
  rw [hroom]
  exact activate_change (s := (s.makeRoom env).addObject c) (unnoticed_upTo env total refusal) _ _

/-- As long as there is room for the line that is about to be written, a step is the same. -/
theorem step_upTo {total : Nat} {refusal : String} (htakes : s.store.sink.TakesAll)
    (hfits : ¬ s.Overruns env total) :
    (s.change (Store.upTo total refusal)).step env = (s.step env).change (Store.upTo total refusal) := by
  by_cases hcreate : ∃ c args, s.control = .create c args
  · obtain ⟨c, args, hc⟩ := hcreate
    simp only [step, change_control, hc]
    exact allocate_upTo c args
  · by_cases hhost : ∃ e args p, s.control = .host e args p
    · obtain ⟨e, args, p, hc⟩ := hhost
      simp only [step, change_control, hc]
      cases p with
      | reply r => exact reply_change _ e args r
      | write stream v next =>
        have hsome : (s.writes? env).isSome := by simp [writes?, hc]
        have hlt : s.store.sink.asked < total := Nat.lt_of_not_le fun hle => hfits ⟨hsome, hle⟩
        have htaken : (s.store.upTo total refusal).sink.refusal? = none := by
          rw [Store.refusal?_upTo, if_pos hlt]
        have htext := (unnoticed_upTo env total refusal).text s.store v
        unfold hostStep
        simp only [change_store, htext, Sink.write_taken htaken, htakes.write]
        rfl
      | clock next => rfl
      | collect next =>
        unfold hostStep
        dsimp only
        split <;> rfl
    · push Not at hcreate hhost
      exact step_change (unnoticed_upTo env total refusal) hcreate hhost

/-- The reply raises the error, and the error leaves the continuations one by one. -/
theorem tells_step (env : Env) {e : Method} {diagnostic : String} {t : State}
    (h : t.control.Tells e diagnostic) :
    ∃ err : Failure, err.root = .nativeCallFailed e.qualifiedName diagnostic ∧
      (t.step env = t.raise err ∨
        ∃ k K, t.stack = k :: K ∧ t.step env = State.unwind { t with stack := K } k err) := by
  generalize hc : t.control = c at h
  cases h with
  | reply =>
    refine ⟨.nativeCallFailed e.qualifiedName diagnostic, rfl, .inl ?_⟩
    simp only [State.step, hc]
    rfl
  | @raise err hroot =>
    refine ⟨err, hroot, ?_⟩
    cases hK : t.stack with
    | nil =>
      left
      simp only [State.step, hc, hK]
      rw [raise, goto, ← hc]
    | cons k K => exact .inr ⟨k, K, rfl, by simp only [State.step, hc, hK]⟩

/-- The report goes on. -/
theorem Reports.step {e : Method} {diagnostic : String} {t : State} (h : s.Reports e diagnostic t) :
    s.Reports e diagnostic (t.step env) := by
  obtain ⟨err, hroot, heq | ⟨k, K, hK, heq⟩⟩ := tells_step env h.control
  · rw [heq]
    exact { h with control := .raise hroot }
  · obtain ⟨err', hraise, hsame⟩ := unwind_root { t with stack := K } k err
    obtain ⟨hstack, areas, hstore, hfails⟩ := unwind_keeps { t with stack := K } k err
    have hbelow : K <:+ s.stack := (List.suffix_cons k K).trans (hK ▸ h.stack)
    rw [← heq] at hraise hstack hstore
    exact {
      control := hraise ▸ .raise (hsame.trans hroot)
      stack := hstack ▸ hbelow
      heap := by rw [hstore, ← h.heap]
      sink := by rw [hstore, ← h.sink]
      clock := by rw [hstore, ← h.clock]
      statics := by rw [hstore]; exact h.statics.trans hfails }

theorem tells_step_raise (env : Env) {e : Method} {diagnostic : String} {t : State}
    (h : t.control.Tells e diagnostic) :
    ∃ err, (t.step env).control = .raise err := by
  obtain ⟨err, -, heq | ⟨k, K, -, heq⟩⟩ := tells_step env h
  · exact ⟨err, heq ▸ rfl⟩
  · obtain ⟨err', hraise, -⟩ := unwind_root { t with stack := K } k err
    exact ⟨err', heq ▸ hraise⟩

theorem stack_le_steps (env : Env) (n : Nat) : ∀ s : State,
    s.stack.length ≤ ((State.step env)^[n] s).stack.length + n := by
  induction n with
  | zero => exact fun s => le_rfl
  | succ n ih =>
    intro s
    have hfirst := (step_transition env s).shifts.length_le
    have hrest := ih (s.step env)
    rw [Function.iterate_succ_apply]
    omega

/-- A host function leaves the stack alone. -/
theorem step_host_stack {e : Method} {args : List Value} {p : HostProgram} (hc : s.control = .host e args p) :
    (s.step env).stack = s.stack := by
  have ht := step_transition env s
  generalize s.step env = s' at ht
  cases ht with
  | hostService | hostReply | hostFail | ended => rfl
  | fail h | go h | evaluate h | answer h | access h | callVirtual h | callSuper h | enterSuper h
  | superOverflow h => cases hc; cases h
  | _ => cases hc

/-- A line that the sink refuses: from then on the run reports that. -/
theorem refused_reports (env : Env) {e : Method} {args : List Value} {stream : Stream} {v : Value}
    {next : Except String Unit → HostProgram} (hc : s.control = .host e args (.write stream v next))
    {refusal : String} (hfull : s.store.sink.refusal? = some refusal)
    (hnext : next (.error refusal) = Library.fail (Library.refused stream refusal))
    (n : Nat) : s.Reports e (Library.refused stream refusal) ((State.step env)^[n + 1] s) := by
  induction n with
  | zero =>
    have heq : s.step env = { s with
        store := { s.store with sink := s.store.sink.pass }
        control := .host e args (Library.fail (Library.refused stream refusal)) } := by
      simp only [step, hc, hostStep, Sink.write_refused hfull, hnext]
    rw [Function.iterate_one, heq]
    exact ⟨.reply, List.suffix_rfl, rfl, rfl, rfl, .refl⟩
  | succ n ih =>
    rw [Function.iterate_succ_apply']
    exact ih.step

end Steps

end State

/-! ## Runs -/

section Runs

variable {m : Machine} {op : Operation}

theorem Machine.unlimited_takesAll (m : Machine) (op : Operation) (n : Nat) :
    (m.unlimited.moment op n).store.sink.TakesAll := by
  induction n with
  | zero =>
    rw [m.unlimited.start_store op]
    exact fun n => rfl
  | succ n ih =>
    rw [m.unlimited.moment_succ, State.step_sink ih]
    cases (m.unlimited.moment op n).writes? m.unlimited.env <;> exact ih

theorem Machine.unlimited_lines (m : Machine) (op : Operation) (n : Nat) :
    (m.unlimited.moment op (n + 1)).store.sink.lines.toList =
      (m.unlimited.moment op n).store.sink.lines.toList ++ ((m.unlimited.moment op n).writes? m.env).toList := by
  rw [m.unlimited.moment_succ, State.step_sink (m.unlimited_takesAll op n), show m.unlimited.env = m.env from rfl]
  cases (m.unlimited.moment op n).writes? m.env with
  | none => exact (List.append_nil _).symm
  | some line => exact Array.toList_push

/-- A sink that takes every line has been asked as often as it has taken lines since. -/
theorem Machine.unlimited_asked (m : Machine) (op : Operation) (n : Nat) :
    (m.unlimited.moment op n).store.sink.asked + m.store.sink.lines.size =
      m.store.sink.asked + (m.unlimited.moment op n).store.sink.lines.size := by
  induction n with
  | zero =>
    rw [m.unlimited.start_store op]
    rfl
  | succ n ih =>
    rw [m.unlimited.moment_succ, State.step_sink (m.unlimited_takesAll op n)]
    cases (m.unlimited.moment op n).writes? m.unlimited.env with
    | none => exact ih
    | some line =>
      simp only [Option.elim_some, Sink.take, Array.size_push]
      omega

/-- Lines that are written stay. -/
theorem Machine.unlimited_prefix (m : Machine) (op : Operation) {i n : Nat} (h : i ≤ n) :
    (m.unlimited.moment op i).store.sink.lines.toList <+: (m.unlimited.moment op n).store.sink.lines.toList := by
  induction h with
  | refl => exact List.prefix_rfl
  | @step n _ ih =>
    rw [show n.succ = n + 1 from rfl, m.unlimited_lines]
    exact ih.trans (List.prefix_append _ _)

theorem Starts.hosted {env : Env} {σ : Store} {s : State} (h : Starts env op σ s) : s.Hosted env :=
  fun e args p hc => absurd hc (h.ne_host e args p)

theorem Machine.unlimited_hosted (hwf : m.registry.Sound) (hosts : m.registry.BundledHosts) (n : Nat) :
    (m.unlimited.moment op n).Listed m.env ∧ (m.unlimited.moment op n).Hosted m.env := by
  induction n with
  | zero =>
    have hstart := start_starts m.env op m.unlimited.store
    exact ⟨hstart.listed hwf, hstart.hosted⟩
  | succ n ih =>
    obtain ⟨hlist, hs⟩ := ih
    rw [m.unlimited.moment_succ]
    exact ⟨(State.step_transition m.env _).listed hwf hlist, State.step_hosted hosts hlist hs⟩

variable {room : Nat}

/-- Before a line overruns the sink, the runs with room for some lines and with room for all go side by
side. -/
theorem Machine.limited_moment (refusal : String) {n : Nat}
    (h : ∀ i < n, ¬ (m.unlimited.moment op i).Overruns m.env (m.store.sink.asked + room)) :
    (m.limited room refusal).moment op n =
      (m.unlimited.moment op n).change (Store.upTo (m.store.sink.asked + room) refusal) ∧
    (m.unlimited.moment op n).store.sink.asked ≤ m.store.sink.asked + room := by
  induction n with
  | zero =>
    constructor
    · -- room for further lines is, by definition, counted from the lines that the sink was asked to take
      exact op.start_change (State.unnoticed_upTo m.env _ refusal) m.unlimited.store
    · rw [m.unlimited.start_store op]
      exact Nat.le_add_right _ _
  | succ n ih =>
    obtain ⟨hsame, hle⟩ := ih fun i hi => h i (Nat.lt_succ_of_lt hi)
    have hfits := h n (Nat.lt_succ_self n)
    constructor
    · rw [Machine.moment_succ, Machine.moment_succ, hsame]
      exact State.step_upTo (m.unlimited_takesAll op n) hfits
    · rw [m.unlimited.moment_succ, State.step_sink (m.unlimited_takesAll op n)]
      cases hw : (m.unlimited.moment op n).writes? m.unlimited.env with
      | none => exact hle
      | some line => exact Nat.lt_of_not_le fun hge => hfits ⟨Option.isSome_iff_exists.2 ⟨line, hw⟩, hge⟩

/-- The room that is left is what there was, less the lines taken since. -/
theorem Machine.limited_same (refusal : String) {n : Nat}
    (h : ∀ i < n, ¬ (m.unlimited.moment op i).Overruns m.env (m.store.sink.asked + room)) :
    (m.limited room refusal).moment op n = (m.unlimited.moment op n).limited
      (m.store.sink.asked + room - (m.unlimited.moment op n).store.sink.asked) refusal := by
  obtain ⟨hsame, hle⟩ := Machine.limited_moment refusal h
  rw [hsame, State.limited, ← Store.upTo_eq_limited hle]
  rfl

/-- After a line that overruns the sink there are too many. -/
theorem Machine.overruns_lt {i n : Nat} (hi : i < n)
    (h : (m.unlimited.moment op i).Overruns m.env (m.store.sink.asked + room)) :
    m.store.sink.lines.size + room < (m.unlimited.moment op n).store.sink.lines.size := by
  obtain ⟨hsome, hle⟩ := h
  obtain ⟨line, hline⟩ := Option.isSome_iff_exists.1 hsome
  have hlater := (m.unlimited_prefix op (Nat.succ_le_of_lt hi)).length_le
  rw [m.unlimited_lines, hline, Option.toList_some, List.length_append, List.length_singleton,
    Array.length_toList, Array.length_toList] at hlater
  have hnow := m.unlimited_asked op i
  omega

/-- If there are too many lines in the end, one of them was the first to overrun the sink. -/
theorem Machine.overruns_first {n : Nat}
    (h : m.store.sink.lines.size + room < (m.unlimited.moment op n).store.sink.lines.size) :
    ∃ j < n, (m.unlimited.moment op j).Overruns m.env (m.store.sink.asked + room) ∧
      ∀ i < j, ¬ (m.unlimited.moment op i).Overruns m.env (m.store.sink.asked + room) := by
  have hover : ∃ j < n, (m.unlimited.moment op j).Overruns m.env (m.store.sink.asked + room) := by
    by_contra hnone
    push Not at hnone
    have hfits := (Machine.limited_moment "" hnone).2
    have hasked := m.unlimited_asked op n
    omega
  classical
  obtain ⟨hj, hfirst⟩ := Nat.find_spec hover
  exact ⟨Nat.find hover, hj, hfirst, fun i hi hi' => Nat.find_min hover hi ⟨hi.trans hj, hi'⟩⟩

/-- The line that is about to be written when `room` lines have been is the one at that place in the end. -/
theorem Machine.written_at {j n : Nat} (hj : j < n) {line : Stream × String}
    (hline : (m.unlimited.moment op j).writes? m.env = some line)
    (hat : (m.unlimited.moment op j).store.sink.lines.size = m.store.sink.lines.size + room)
    {written : List (Stream × String)}
    (hw : (m.unlimited.moment op n).store.sink.lines.toList = m.store.sink.lines.toList ++ written) :
    written[room]? = some line ∧
      (m.unlimited.moment op j).store.sink.lines.toList = m.store.sink.lines.toList ++ written.take room := by
  obtain ⟨taken, htaken⟩ := m.unlimited_prefix op (Nat.zero_le j)
  obtain ⟨rest, hrest⟩ := m.unlimited_prefix op (Nat.succ_le_of_lt hj)
  rw [m.unlimited.start_store op] at htaken
  change m.store.sink.lines.toList ++ taken = _ at htaken
  have hlength : taken.length = room := by
    have hbase : m.store.sink.lines.toList.length = m.store.sink.lines.size := Array.length_toList
    have hsize : (m.unlimited.moment op j).store.sink.lines.size = m.store.sink.lines.size + taken.length := by
      rw [← Array.length_toList, ← htaken, List.length_append, hbase]
    omega
  rw [Nat.succ_eq_add_one, m.unlimited_lines, hline, hw, ← htaken, List.append_assoc, List.append_assoc] at hrest
  have hsplit : taken ++ line :: rest = written := List.append_cancel_left hrest
  rw [← hsplit, ← htaken, List.take_left' hlength]
  refine ⟨?_, rfl⟩
  rw [List.getElem?_append_right hlength.le, hlength, Nat.sub_self]
  rfl

/-- The first line that overruns the sink cuts the run short. -/
theorem Machine.cutShort (hwf : m.registry.Sound) (hosts : m.registry.BundledHosts) (refusal : String)
    {j : Nat}
    (hbefore : ∀ i < j, ¬ (m.unlimited.moment op i).Overruns m.env (m.store.sink.asked + room))
    (hover : (m.unlimited.moment op j).Overruns m.env (m.store.sink.asked + room)) :
    ∃ e line, (m.unlimited.moment op j).writes? m.env = some line ∧
      (m.unlimited.moment op j).store.sink.lines.size = m.store.sink.lines.size + room ∧
      m.CutShort op room refusal j e line := by
  obtain ⟨hsome, hge⟩ := hover
  obtain ⟨line, hline⟩ := Option.isSome_iff_exists.1 hsome
  obtain ⟨hsame, hle⟩ := Machine.limited_moment refusal hbefore
  have hsize : (m.unlimited.moment op j).store.sink.lines.size = m.store.sink.lines.size + room := by
    have hasked := m.unlimited_asked op j
    omega
  obtain ⟨e, args, v, next, hc, htext⟩ := State.writes?_some hline
  -- the function that writes is the bundled one
  obtain ⟨he, hp⟩ := (Machine.unlimited_hosted hwf hosts j).2 e args _ hc
  rcases hp with ⟨r, hr⟩ | ⟨key, f, view, hkey, himpl, hp⟩
  · cases hr
  obtain ⟨rfl, -, hnext⟩ := Library.write_println hkey hp.symm
  have hfull : ((m.limited room refusal).moment op j).store.sink.refusal? = some refusal := by
    rw [hsame, State.change_store, Store.refusal?_upTo, if_neg (Nat.not_lt.2 hge)]
  have hcut : ((m.limited room refusal).moment op j).control = .host e args (.write line.1 v next) := by
    rw [hsame]
    exact hc
  refine ⟨e, line, hline, hsize, ?_⟩
  exact {
    same := fun i hi => ⟨_, Machine.limited_same refusal fun k hk => hbefore k (hk.trans_le hi)⟩
    listed := he
    println := himpl
    writes := ⟨args, v, next, hcut, by rw [hsame]; exact htext⟩
    full := hfull
    reports := by
      intro i hi
      obtain ⟨k, rfl⟩ := Nat.exists_eq_add_of_lt hi
      have hreports : State.Reports e _ _ _ := State.refused_reports m.env hcut hfull (hnext refusal) k
      rw [add_assoc, Machine.moment_add]
      exact hreports }

section CutShort

variable {refusal : String} {j fuel : Nat} {e : Method} {line : Stream × String}

/-- The run that is not cut short still has the host function and everything on the stack before it. -/
theorem Machine.CutShort.steps_le (h : m.CutShort op room refusal j e line)
    {r : Except Failure (Option Value)} (hr : (m.unlimited.moment op fuel).outcome? = some r) (hj : j < fuel) :
    j + 2 + ((m.limited room refusal).moment op j).stack.length ≤ fuel := by
  obtain ⟨left, hsame⟩ := h.same j le_rfl
  obtain ⟨args, v, next, hcut, -⟩ := h.writes
  rw [hsame] at hcut ⊢
  have hc : (m.unlimited.moment op j).control = .host e args (.write line.1 v next) := hcut
  obtain ⟨p, hp⟩ : ∃ p, (m.unlimited.moment op (j + 1)).control = .host e args p := by
    rw [Machine.moment_succ]
    simp only [State.step, hc]
    exact ⟨_, rfl⟩
  have hstack : (m.unlimited.moment op (j + 2)).stack = (m.unlimited.moment op j).stack := by
    rw [Machine.moment_succ, State.step_host_stack hp, Machine.moment_succ, State.step_host_stack hc]
  have hne : fuel ≠ j + 1 := by
    rintro rfl
    obtain ⟨-, ⟨v, hv⟩ | ⟨err, he⟩⟩ := State.outcome?_some hr
    · rw [hp] at hv
      cases hv
    · rw [hp] at he
      cases he
  obtain ⟨k, rfl⟩ : ∃ k, fuel = j + 2 + k := Nat.exists_eq_add_of_le (by omega)
  have hshrinks := State.stack_le_steps m.env k (m.unlimited.moment op (j + 2))
  rw [Machine.moment_add] at hr
  have hempty : ((State.step m.env)^[k] (m.unlimited.moment op (j + 2))).stack = [] := (State.outcome?_some hr).1
  rw [hempty, hstack, List.length_nil, Nat.zero_add] at hshrinks
  exact Nat.add_le_add_left hshrinks _

/-- Two steps of the host function and one for everything on the stack, and the run that is cut short has
ended with the error of the refusal. -/
theorem Machine.CutShort.ends (h : m.CutShort op room refusal j e line)
    (hfuel : j + 2 + ((m.limited room refusal).moment op j).stack.length ≤ fuel) :
    ∃ err : Failure, err.root = .nativeCallFailed e.qualifiedName (Library.refused line.1 refusal) ∧
      ((m.limited room refusal).moment op fuel).outcome? = some (.error err) := by
  obtain ⟨err, hraise⟩ : ∃ err, ((m.limited room refusal).moment op (j + 2)).control = .raise err := by
    rw [Machine.moment_succ]
    exact State.tells_step_raise m.env (h.reports (j + 1) (Nat.lt_succ_self j)).control
  obtain ⟨err', hend⟩ := State.raise_ends m.env _ rfl hraise
  change ((State.step (m.limited room refusal).env)^[_] _).outcome? = _ at hend
  rw [← Machine.moment_add] at hend
  have hbelow := (h.reports (j + 2) (by omega)).stack.length_le
  rw [← Machine.moment_ended hend (i := fuel) (by omega)] at hend
  refine ⟨err', ?_, hend⟩
  have htells := (h.reports fuel (by omega)).control
  rcases State.outcome?_cases hend with ⟨v, -, heq⟩ | ⟨_, hc, heq⟩
  · cases heq
  · cases heq
    rw [hc] at htells
    cases htells with
    | raise hroot => exact hroot

end CutShort

end Runs

/-! ## Main statement -/

/-- A sink that gives up loses no earlier line. Take any machine whose native methods are bundled ones, and an
operation that ends when the sink takes every line: it has written some lines then. With a sink that takes
a number of further lines and refuses all others with a text, the operation ends in no more steps. If
there is room for all the lines, the result, the lines and everything else are the same. If there is not,
the run is cut short at the first line that finds no room (`CutShort`): it goes the same way up to there and
does nothing afterwards but report that, the lines that there was room for are the ones taken, and the
result is the error of the call of `println` that wrote the line, inside the failures of the classes that
were being initialized at the time. -/
theorem perform_limited {m m' : Machine} {past : List State} (h : History (fun _ => True) m past)
    (hosts : m.registry.BundledHosts) {op : Operation} {fuel : Nat} {r : Except Failure (Option Value)}
    (hp : m.unlimited.perform fuel op = some (r, m')) (room : Nat) (refusal : String) :
    ∃ written : List (Stream × String),
      m'.store.sink.lines.toList = m.store.sink.lines.toList ++ written ∧
      (written.length ≤ room → (m.limited room refusal).perform fuel op =
        some (r, m'.limited (room - written.length) refusal)) ∧
      ∀ line, written[room]? = some line → ∃ moment e err m'',
        m.CutShort op room refusal moment e line ∧
        (m.limited room refusal).perform fuel op = some (.error err, m'') ∧
        err.root = .nativeCallFailed e.qualifiedName (Library.refused line.1 refusal) ∧
        m''.store.sink.lines.toList = m.store.sink.lines.toList ++ written.take room := by
  obtain ⟨hr, rfl⟩ := Machine.perform_some hp
  obtain ⟨written, hwritten⟩ := m.unlimited_prefix op (Nat.zero_le fuel)
  rw [m.unlimited.start_store op] at hwritten
  change m.store.sink.lines.toList ++ written = _ at hwritten
  have hsize : (m.unlimited.moment op fuel).store.sink.lines.size =
      m.store.sink.lines.size + written.length := by
    rw [← Array.length_toList, ← hwritten, List.length_append, Array.length_toList]
  refine ⟨written, hwritten.symm, fun hroom => ?_, fun line hline => ?_⟩
  · have hnone : ∀ i < fuel, ¬ (m.unlimited.moment op i).Overruns m.env (m.store.sink.asked + room) := by
      intro i hi hover
      have hlt := Machine.overruns_lt hi hover
      omega
    have hsame := Machine.limited_same refusal hnone
    have hend : ((m.limited room refusal).moment op fuel).outcome? = some r := by
      rw [hsame]
      exact hr
    have hleft : m.store.sink.asked + room - (m.unlimited.moment op fuel).store.sink.asked =
        room - written.length := by
      have hasked := m.unlimited_asked op fuel
      omega
    rw [Machine.perform_of_outcome? le_rfl hend, hsame, hleft]
    rfl
  · have hlt : room < written.length := (List.getElem?_eq_some_iff.1 hline).1
    have hmany : m.store.sink.lines.size + room < (m.unlimited.moment op fuel).store.sink.lines.size := by omega
    obtain ⟨j, hj, hover, hbefore⟩ := Machine.overruns_first hmany
    obtain ⟨e, next, hnext, hat, hcut⟩ := Machine.cutShort h.sound hosts refusal hbefore hover
    obtain ⟨hat, htaken⟩ := Machine.written_at hj hnext hat hwritten.symm
    obtain rfl : next = line := Option.some.inj (hat.symm.trans hline)
    obtain ⟨err, hroot, hend⟩ := hcut.ends (hcut.steps_le hr hj)
    refine ⟨j, e, err, _, hcut, Machine.perform_of_outcome? le_rfl hend, hroot, ?_⟩
    obtain ⟨left, hsame⟩ := hcut.same j le_rfl
    show ((m.limited room refusal).moment op fuel).store.sink.lines.toList = _
    rw [(hcut.reports fuel hj).sink, hsame, ← htaken]
    rfl

/-- A class whose initializer calls a method that prints three lines, on both streams. -/
def rollCall : CompilationUnit :=
  { name := "roll"
    classes := [
      { name := "Roll"
        statics := [⟨"size", .int, some (.invokeStatic "Roll" "call" [])⟩]
        methods := [.static "call" [] .int { code := [
          .expr (.invokeVirtual (.getStatic "System" "out") "println" [.ofInt 1]),
          .expr (.invokeVirtual (.getStatic "System" "err") "println" [.ofInt 2]),
          .expr (.invokeVirtual (.getStatic "System" "out") "println" [.ofInt 3]),
          .giveBack (some (.ofInt 3))] }] }] }

/-- With room for one line the second one is refused, and the class fails because of it. -/
theorem perform_limited_rollCall : ∃ m past m', History (fun _ => True) m past ∧ m.registry.BundledHosts ∧
    m.unlimited.perform 120 (.getStatic 1 "Roll" "size") = some (.ok (some (.int 3)), m') ∧
    m'.store.sink.lines.toList = [(.out, "1"), (.err, "2"), (.out, "3")] ∧
    ∃ moment e err m'', m.CutShort (.getStatic 1 "Roll" "size") 1 "full" moment e (.err, "2") ∧
      (m.limited 1 "full").perform 120 (.getStatic 1 "Roll" "size") = some (.error err, m'') ∧
      err.root = .nativeCallFailed e.qualifiedName "write to stderr failed: full" ∧
      m''.store.sink.lines.toList = [(.out, "1")] := by
  let m : Machine := (Machine.load (.boot {} {}) rollCall).2
  have hboot : History (fun _ => True) (.boot {} {}) [] := .boot
  have h : History (fun _ => True) m _ := hboot.act trivial .load
  have hbundled : (Machine.boot {} {}).registry.WF fun _ natives => natives = Library.natives := Library.registry_wf
  have hosts : m.registry.BundledHosts := (Machine.load_wf hbundled (fun _ _ => rfl) rollCall).1.bundledHosts
  have hend : (m.unlimited.moment (.getStatic 1 "Roll" "size") 120).outcome? = some (.ok (some (.int 3))) := by
    decide +kernel
  obtain ⟨m', hp, hlines⟩ : ∃ m',
      m.unlimited.perform 120 (.getStatic 1 "Roll" "size") = some (.ok (some (.int 3)), m') ∧
      m'.store.sink.lines.toList = [(.out, "1"), (.err, "2"), (.out, "3")] :=
    ⟨_, Machine.perform_of_outcome? le_rfl hend, by decide +kernel⟩
  obtain ⟨written, hwritten, -, hcut⟩ := perform_limited h hosts hp 1 "full"
  have hnone : m.store.sink.lines.toList = [] := by decide +kernel
  rw [hlines, hnone, List.nil_append] at hwritten
  subst hwritten
  rw [hnone] at hcut
  exact ⟨m, _, m', h, hosts, hp, hlines, hcut (.err, "2") rfl⟩

end ObjectMachine
