/-
Which constructor runs. Of the constructors of a class those are considered that accept the arguments
position by position (`accepting`), and there has to be exactly one: it begins, unless the call depth is
used up, and any other number is reported before anything is allocated or run (`Constructs`). The same
goes for a new object, once its class is initialized, and for the constructor of a parent, for both go
through one selection. A class has no two constructors with the same parameters, and a value conforms to
its own type only, so that arguments without null are accepted by one constructor at most.
-/
import ObjectMachine.Proofs.Selection
import ObjectMachine.Proofs.Exec.SuperCalls
import ObjectMachine.Proofs.Init.Once
import ObjectMachine.Proofs.Registry.Bodies

namespace ObjectMachine

/-! ## Definitions -/

/-- The constructors of a class that accept the arguments. -/
def Class.accepting (c : Class) (args : List Value) : List Constructor :=
  c.constructors.filter (·.accepts args)

/-- The error of a constructor call that `n` constructors accept. -/
def Class.noConstructor (c : Class) (args : List Value) (n : Nat) : Failure :=
  .noMatchingConstructor c.name (callText "" args) n

/-- From `s` a constructor of `c` is to run, and `t` comes next: `begun k` if `k` alone accepts the
arguments and the call depth permits. A number of them other than one is reported, and nothing else
happens. -/
structure Constructs (env : Env) (c : Class) (args : List Value) (s : State)
    (begun : Constructor → State) (t : State) : Prop where
  enters : ∀ k, c.accepting args = [k] → s.depth < env.options.maxCallDepth → t = begun k
  only : ∀ g, t.control = .exec g →
    ∃ k, c.accepting args = [k] ∧ s.depth < env.options.maxCallDepth ∧ t = begun k
  overflows : ∀ k, c.accepting args = [k] → env.options.maxCallDepth ≤ s.depth →
    t.control = .raise (.stackOverflow env.options.maxCallDepth)
  refuses : (c.accepting args).length ≠ 1 → t = s.raise (c.noConstructor args (c.accepting args).length)

namespace State

/-- An instance of an initialized class is to be made, and `K` waits for it. -/
def creating (s : State) (c : Class) (args : List Value) (K : List Cont) : State :=
  { s with control := .create c args, stack := K }

/-- A constructor begins on a new object. -/
def created (env : Env) (s : State) (c : Class) (args : List Value) (k : Constructor) : State :=
  let ref := s.store.heap.next
  let s := (s.makeRoom env).addObject c
  ⟨.exec (.enter c (some ref) (.object ref :: args) k.body), .constructing ref :: s.stack, s.depth + 1,
    s.store⟩

/-- A constructor of the parent begins on the receiver of a frame. -/
def superBegun (s : State) (f : Frame) (ref : Handle) (parent : Class) (args : List Value)
    (k : Constructor) : State :=
  ⟨.exec (.enter parent (some ref) (.object ref :: args) k.body), .superDone f :: s.stack, s.depth + 1,
    s.store⟩

end State

/-- At moment `n` of a run an instance of `c` is asked for, by the host or by a body, and `K` waits for
it. -/
inductive Machine.Requests (m : Machine) (op : Operation) :
    Nat → Class → List Value → List Cont → Prop where
  | host {u cls c args} : op = .construct u cls args → m.registry.lookup u cls = .ok c →
      Requests m op 0 c args []
  | code {n f cls c args K} :
      Completes (.create cls) args f (m.moment op n).control (m.moment op n).stack K →
      m.registry.lookup f.cls.scope cls = .ok c → Requests m op (n + 1) c args K

/-! ## The constructors that accept a call -/

section Accepting

variable {c : Class} {args : List Value}

theorem acceptsAll_iff_forall₂ : ∀ {params : List Ty} {args : List Value},
    acceptsAll params args = true ↔ List.Forall₂ (fun ty v => v.conformsTo ty = true) params args
  | [], [] => by simp [acceptsAll]
  | [], v :: args => by simp [acceptsAll]
  | ty :: params, [] => by simp [acceptsAll]
  | ty :: params, v :: args => by
    have ih := @acceptsAll_iff_forall₂ params args
    simp only [acceptsAll, Bool.and_eq_true, decide_eq_true_eq] at ih
    simp only [acceptsAll, List.length_cons, List.zip_cons_cons, List.all_cons, Bool.and_eq_true,
      decide_eq_true_eq, List.forall₂_cons, ← ih, Nat.add_right_cancel_iff]
    tauto

theorem Class.mem_accepting {k : Constructor} : k ∈ c.accepting args ↔
    k ∈ c.constructors ∧ List.Forall₂ (fun ty v => v.conformsTo ty = true) k.params args := by
  rw [accepting, List.mem_filter, Constructor.accepts, acceptsAll_iff_forall₂]

/-- Present arguments are accepted by the constructor whose parameters have their types. -/
theorem Class.mem_accepting_of_present (hargs : Value.null ∉ args) {k : Constructor} :
    k ∈ c.accepting args ↔ k ∈ c.constructors ∧ args.map Value.type? = k.params.map some := by
  obtain ⟨types, htypes⟩ := Signature.exists_types hargs
  rw [accepting, List.mem_filter, Constructor.accepts, Signature.acceptsAll_iff htypes, htypes]
  refine and_congr_right fun _ => ⟨fun h => by rw [h], fun h => ?_⟩
  exact (List.map_injective_iff.2 (Option.some_injective _) h).symm

theorem Class.accepting_length_le (hn : (c.constructors.map (·.params)).Nodup)
    (hargs : Value.null ∉ args) : (c.accepting args).length ≤ 1 := by
  obtain ⟨types, htypes⟩ := Signature.exists_types hargs
  have hparams : ∀ p ∈ (c.accepting args).map (·.params), p = types := by
    intro p hp
    obtain ⟨k, hk, rfl⟩ := List.mem_map.1 hp
    have heq := (mem_accepting_of_present hargs).1 hk
    rw [htypes] at heq
    exact (List.map_injective_iff.2 (Option.some_injective _) heq.2).symm
  have hnodup : ((c.accepting args).map (·.params)).Nodup :=
    (List.filter_sublist.map _).nodup hn
  rw [← List.length_map (·.params)]
  exact (hnodup.subperm fun p hp => List.mem_singleton.2 (hparams p hp)).length_le

theorem Class.selectConstructor_eq (c : Class) (args : List Value) :
    (∃ k, c.accepting args = [k] ∧ c.selectConstructor args = .ok k) ∨
    ((c.accepting args).length ≠ 1 ∧
      c.selectConstructor args = .error (c.noConstructor args (c.accepting args).length)) := by
  show (∃ k, c.constructors.filter _ = [k] ∧ _) ∨ _
  unfold selectConstructor
  split
  · rename_i k hk
    exact .inl ⟨k, hk, rfl⟩
  · rename_i hno
    refine .inr ⟨fun hlen => ?_, rfl⟩
    obtain ⟨k, hk⟩ := List.length_eq_one_iff.1 hlen
    exact hno k hk

end Accepting

/-! ## Steps -/

section Steps

variable {env : Env} {c : Class} {args : List Value}

/-- Both ways of running a constructor are one: it is selected, and then it is entered from the state
`s'`, which is as deep as `s`. -/
theorem State.proceed_constructs {s s' : State} (hdepth : s'.depth = s.depth) (cont : Cont)
    (frame : Constructor → Frame) :
    Constructs env c args s
      (fun k => ⟨.exec (frame k), cont :: s'.stack, s'.depth + 1, s'.store⟩)
      (s.proceed (c.selectConstructor args) fun k => s'.activate env cont (.exec (frame k))) := by
  rcases c.selectConstructor_eq args with ⟨k, hk, hsel⟩ | ⟨hlen, hsel⟩
  · simp only [hsel, State.proceed, State.activate, hdepth]
    refine ⟨fun k' hk' hd => ?_, fun g hg => ?_, fun k' hk' hd => ?_, fun hlen => ?_⟩
    · rw [hk] at hk'
      cases hk'
      rw [if_neg (not_le.2 hd)]
    · split at hg
      · cases hg
      · rename_i hd
        exact ⟨k, hk, not_le.1 hd, if_neg hd⟩
    · rw [if_pos hd]
      rfl
    · rw [hk] at hlen
      exact absurd rfl hlen
  · simp only [hsel, State.proceed]
    have hno : ∀ k, c.accepting args ≠ [k] := fun k hk => hlen (by rw [hk]; rfl)
    refine ⟨fun k hk _ => absurd hk (hno k), fun g hg => ?_, fun k hk _ => absurd hk (hno k), fun _ => rfl⟩
    cases hg

theorem State.allocate_constructs (env : Env) (s : State) (c : Class) (args : List Value) :
    Constructs env c args s (s.created env c args) (s.allocate env c args) := by
  have hdepth : ((s.makeRoom env).addObject c).depth = s.depth := by
    unfold State.makeRoom
    split <;> rfl
  exact State.proceed_constructs hdepth _ _

theorem State.superInit_constructs (env : Env) (s : State) {f : Frame} {ref : Handle} {p : Class}
    (args : List Value) (hthis : f.this = some ref) (hp : env.registry.parent? f.cls = some p) :
    Constructs env p args s (s.superBegun f ref p args)
      (s.superInit env f args) := by
  simp only [State.superInit, State.receiverOf, hthis, hp, State.proceed]
  exact State.proceed_constructs rfl _ _

/-- A class whose initialization has begun answers at once to what waits for it. -/
theorem State.construct_ready {s : State} (hc : (s.store.statics.state c).Ready) :
    (State.step env)^[2] (s.construct c args) = s.creating c args s.stack := by
  show State.step env (State.step env (s.construct c args)) = _
  have hinit : State.step env (s.construct c args) = (s.construct c args).goto (.answer none) := by
    rcases hc with h | h
    all_goals
      show State.beginInit env (s.construct c args) c = _
      unfold State.beginInit
      rw [show (s.construct c args).store.statics.state c = _ from h]
  rw [hinit]
  rfl

end Steps

section Runs

variable {m : Machine} {op : Operation} {n : Nat} {c : Class} {args : List Value} {K : List Cont}

/-- Asking for an instance begins with the initialization of its class. -/
theorem Machine.Requests.moment_eq (h : m.Requests op n c args K) :
    ∃ s : State, s.stack = K ∧ m.moment op n = s.construct c args := by
  cases h with
  | @host u cls c args hop hc =>
    subst hop
    refine ⟨⟨.answer none, [], 0, m.store⟩, rfl, ?_⟩
    show State.proceed _ (m.registry.lookup u cls) _ = _
    rw [hc]
    rfl
  | @code n f cls c args K hcomp hc =>
    refine ⟨{ m.moment op n with stack := K }, rfl, ?_⟩
    rw [m.moment_succ, hcomp.step]
    show State.proceed _ (m.registry.lookup f.cls.scope cls) _ = _
    rw [hc]
    rfl

theorem Machine.Requests.constructs (h : m.Requests op n c args K)
    (hready : ((m.moment op n).store.statics.state c).Ready) :
    Constructs m.env c args ((m.moment op n).creating c args K)
      (((m.moment op n).creating c args K).created m.env c args) (m.moment op (n + 3)) := by
  obtain ⟨s, rfl, hs⟩ := h.moment_eq
  rw [hs] at hready
  have hthree : m.moment op (n + 3) = (s.creating c args s.stack).allocate m.env c args := by
    rw [m.moment_succ, m.moment_add, hs, State.construct_ready (s := s) hready]
    rfl
  rw [hthree, hs]
  exact State.allocate_constructs _ _ _ _

/-- Code without a receiver does not come to the constructors. -/
theorem Completes.next_detached {f : Frame}
    (hcomp : Completes .superInit args f (m.moment op n).control (m.moment op n).stack K)
    (hthis : f.this = none) : m.moment op (n + 1) =
      { m.moment op n with control := .raise (.typeMismatch "receiver" "static context"), stack := K } := by
  rw [m.moment_succ, hcomp.step]
  show State.superInit m.env _ f args = _
  simp only [State.superInit, State.receiverOf, hthis, State.proceed]
  rfl

end Runs

/-! ## Main statement -/

/-- A class has the constructors that its source offers, no two with the same parameters, and those that
accept the arguments do so position by position; without a null argument there is one at most, the one
whose parameters have the types of the arguments.

An instance that is asked for waits for the initialization of its class, and when that has been done the
constructor that alone accepts the arguments begins on a new object, if the call depth permits; a number
other than one is reported, and nothing is allocated or run. A constructor of the parent that code with a
receiver asks for begins or is refused in the same way; code without a receiver gets a mismatch. -/
theorem constructors_exact {m : Machine} {past : List State} (h : History (fun _ => True) m past)
    (op : Operation) :
    (∀ c, m.registry.Has c →
      c.constructors = c.source.offered ∧ (c.constructors.map (·.params)).Nodup ∧
      ∀ args,
        (∀ k, k ∈ c.accepting args ↔ k ∈ c.constructors ∧
          List.Forall₂ (fun ty v => v.conformsTo ty = true) k.params args) ∧
        (Value.null ∉ args → (c.accepting args).length ≤ 1 ∧
          ∀ k, k ∈ c.accepting args ↔
            k ∈ c.constructors ∧ args.map Value.type? = k.params.map some)) ∧
    (∀ n c args K, m.Requests op n c args K →
      (m.moment op n).control = .init c ∧ (m.moment op n).stack = .thenCreate c args :: K ∧
      (((m.moment op n).store.statics.state c).Ready →
        Constructs m.env c args ((m.moment op n).creating c args K)
          (((m.moment op n).creating c args K).created m.env c args) (m.moment op (n + 3)))) ∧
    (∀ n v c args K, (m.moment op n).control = .answer v →
      (m.moment op n).stack = .thenCreate c args :: K →
      ((m.moment op n).store.statics.state c).Ready ∧
      Constructs m.env c args ((m.moment op n).creating c args K)
        (((m.moment op n).creating c args K).created m.env c args) (m.moment op (n + 2))) ∧
    (∀ u cls c args fuel, m.registry.lookup u cls = .ok c → (m.store.statics.state c).Ready →
      (c.accepting args).length ≠ 1 →
      m.perform (fuel + 3) (.construct u cls args) =
        some (.error (c.noConstructor args (c.accepting args).length), m)) ∧
    (∀ n f args K, Completes .superInit args f (m.moment op n).control (m.moment op n).stack K →
      (f.this = none → m.moment op (n + 1) =
        { m.moment op n with control := .raise (.typeMismatch "receiver" "static context"), stack := K }) ∧
      ∀ ref p, f.this = some ref → m.registry.parent? f.cls = some p →
        Constructs m.env p args { m.moment op n with stack := K }
          (State.superBegun { m.moment op n with stack := K } f ref p args) (m.moment op (n + 1))) := by
  refine ⟨fun c hc => ?_, fun n c args K hreq => ?_, fun n v c args K hv hK => ⟨?_, ?_⟩,
    fun u cls c args fuel hc hready hlen => ?_, fun n f args K hcomp => ⟨hcomp.next_detached, ?_⟩⟩
  · obtain ⟨hoffered, hnodup⟩ := h.sound.constructors_offered hc
    exact ⟨hoffered, hnodup, fun args => ⟨fun k => Class.mem_accepting, fun hargs =>
      ⟨Class.accepting_length_le hnodup hargs, fun k => Class.mem_accepting_of_present hargs⟩⟩⟩
  · obtain ⟨s, rfl, hs⟩ := hreq.moment_eq
    exact ⟨by rw [hs]; rfl, by rw [hs]; rfl, fun hready => hreq.constructs hready⟩
  · have hnested : State.Nested m.env (m.moment op n) := nested_invariant.moment h trivial n
    have hp := hnested.placed
    rw [hv, hK] at hp
    exact hp _ rfl _ rfl
  · have hnext : m.moment op (n + 1) = (m.moment op n).creating c args K := by
      rw [m.moment_succ, State.step, hv, hK]
      rfl
    rw [m.moment_succ, hnext]
    exact State.allocate_constructs _ _ _ _
  · have hreq : m.Requests (.construct u cls args) 0 c args [] := .host rfl hc
    have hthree := (hreq.constructs (by rw [m.start_store]; exact hready)).refuses hlen
    have hend : (m.moment (.construct u cls args) 3).outcome? =
        some (.error (c.noConstructor args (c.accepting args).length)) := by
      rw [hthree]
      rfl
    rw [Machine.perform_of_outcome? (Nat.le_add_left 3 fuel) hend, hthree]
    show some (_, { m with store := (m.moment (.construct u cls args) 0).store }) = _
    rw [m.start_store]
  · intro ref p hthis hp
    rw [m.moment_succ, hcomp.step]
    exact State.superInit_constructs _ _ args hthis hp

/-- A class that takes a text or a reference to make an instance of. -/
def notes : CompilationUnit :=
  { name := "notes"
    classes := [{ name := "Note", constructors := [⟨[.text], {}⟩, ⟨[.reference], {}⟩] }] }

/-- The class is loaded and initialized. -/
def notesMachine : Machine :=
  let m := (Machine.load (.boot {} {}) notes).2
  { m with store := (m.moment (.prepare 1 "Note") 10).store }

theorem notesMachine_history : ∃ past, History (fun _ => True) notesMachine past := by
  have hend : ((Machine.load (.boot {} {}) notes).2.moment (.prepare 1 "Note") 10).outcome? =
      some (.ok none) := by decide +kernel
  have hboot : History (fun _ => True) (.boot {} {}) [] := .boot
  have hload := hboot.act (a := .load notes) trivial .load
  exact ⟨_, hload.act trivial (.perform (Machine.perform_of_outcome? le_rfl hend))⟩

/-- Null is either, and no instance is made. -/
theorem constructors_exact_note : ∃ past c, History (fun _ => True) notesMachine past ∧
    notesMachine.registry.lookup 1 "Note" = .ok c ∧
    notesMachine.perform 3 (.construct 1 "Note" [.null]) =
      some (.error (c.noConstructor [.null] 2), notesMachine) := by
  obtain ⟨past, h⟩ := notesMachine_history
  have hclass : (notesMachine.registry.get? 1 "Note").map (fun c =>
      ((c.accepting [.null]).length, notesMachine.store.statics.state c)) = some (2, .done) := by
    decide +kernel
  obtain ⟨c, hc, hvalues⟩ := Option.map_eq_some_iff.1 hclass
  obtain ⟨hlen, hdone⟩ := Prod.mk.inj hvalues
  have hlookup : notesMachine.registry.lookup 1 "Note" = .ok c := by
    rw [Registry.lookup, hc]
  obtain ⟨-, -, -, hhost, -⟩ := constructors_exact h (.construct 1 "Note" [.null])
  have hrefused := hhost 1 "Note" c [.null] 0 hlookup (.inl hdone) (by rw [hlen]; decide)
  rw [hlen] at hrefused
  exact ⟨past, c, h, hlookup, hrefused⟩

/-- A static method with a call to the constructor of the class above. -/
def detached : CompilationUnit :=
  { name := "detached"
    classes := [
      { name := "Base" },
      { name := "Derived", parent := some "Base"
        methods := [.static "start" [] .void { code := [.superInit []] }] }] }

/-- The frame whose code comes to a super constructor without arguments. -/
def Control.superInit? : Control → Option Frame
  | .exec f => if f.code.head? = some (.superInit []) then some f else none
  | _ => none

theorem Control.superInit?_some {c : Control} {g : Frame} (h : c.superInit? = some g) :
    c = .exec g ∧ ∃ rest, g.code = .superInit [] :: rest := by
  unfold superInit? at h
  split at h
  · split at h
    · rename_i hcode
      cases h
      exact ⟨rfl, List.head?_eq_some_iff.1 hcode⟩
    · cases h
  · cases h

def detachedMachine : Machine := (Machine.load (.boot {} {}) detached).2

def detachedStart : Operation := .invokeStatic 1 "Derived" "start" []

/-- One constructor of the parent accepts the call, the class is initialized and the call depth permits,
but a static method has no receiver. -/
theorem constructor_without_receiver : ∃ past s f p k K,
    History (fun _ => True) detachedMachine past ∧ detachedMachine.moment detachedStart 9 = s ∧
    Completes .superInit [] f s.control s.stack K ∧
    detachedMachine.registry.parent? f.cls = some p ∧ p.accepting [] = [k] ∧
    s.store.statics.state p = .done ∧ s.depth < detachedMachine.options.maxCallDepth ∧
    (s.step detachedMachine.env).control = .raise (.typeMismatch "receiver" "static context") := by
  have hboot : History (fun _ => True) (.boot {} {}) [] := .boot
  have h : History (fun _ => True) detachedMachine _ := hboot.act (a := .load detached) trivial .load
  have hframe : (detachedMachine.moment detachedStart 9).control.superInit?.bind (fun f =>
      (detachedMachine.registry.parent? f.cls).map fun p => (f.this, p.accepting [],
        (detachedMachine.moment detachedStart 9).store.statics.state p)) = some (none, [⟨[], {}⟩], .done) := by
    decide +kernel
  have hdepth : (detachedMachine.moment detachedStart 9).depth < detachedMachine.options.maxCallDepth := by
    decide +kernel
  obtain ⟨g, hg, hparent⟩ := Option.bind_eq_some_iff.1 hframe
  obtain ⟨p, hp, hvalues⟩ := Option.map_eq_some_iff.1 hparent
  obtain ⟨hthis, hvalues⟩ := Prod.mk.inj hvalues
  obtain ⟨haccepting, hdone⟩ := Prod.mk.inj hvalues
  obtain ⟨hexec, rest, hcode⟩ := Control.superInit?_some hg
  have hcomp : Completes .superInit [] { g with code := rest } (detachedMachine.moment detachedStart 9).control
      (detachedMachine.moment detachedStart 9).stack (detachedMachine.moment detachedStart 9).stack := by
    rw [hexec]
    exact .init hcode
  refine ⟨_, _, _, p, _, _, h, rfl, hcomp, hp, haccepting, hdone, hdepth, ?_⟩
  rw [← Machine.moment_succ, hcomp.next_detached hthis]

end ObjectMachine
