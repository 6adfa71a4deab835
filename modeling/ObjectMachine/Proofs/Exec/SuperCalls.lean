/-
Calls to the class above. A super call in the code of a class looks in the table of the class's parent,
not in that of the receiver, and so finds a method that a class strictly above declares; a super
constructor is one of the parent itself. The body that is found runs as code of the class that declares
it, so what it calls in its turn lies higher still: along super calls that are made directly in one
another the classes ascend, and what a class has overridden, or a class below it, is out of reach.
-/
import ObjectMachine.Proofs.Exec.Activation

namespace ObjectMachine

/-! ## Definitions -/

/-- The arguments of a super call in the code of `f` are complete; what lies below is the last
argument. -/
inductive Completes : CallTarget → List Value → Frame → Control → List Cont → List Cont → Prop where
  | method {name f K} : Completes (.superMethod name) [] f (.eval f (.invokeSuper name [])) K K
  | init {f rest K} : f.code = .superInit [] :: rest →
      Completes .superInit [] { f with code := rest } (.exec f) K K
  | last {target before a f K} : Completes target (before.reverse ++ [a.getD .null]) f (.answer a)
      (.argument target before [] f :: K) K

/-- The class `d` is strictly above `c`, and so neither `c` nor a class below it. -/
structure Registry.Above (r : Registry) (c d : Class) : Prop where
  ancestor : d.id ∈ c.ancestors
  before : d.id < c.id
  unreached : ∀ a, r.Has a → a.descendsFrom c = true → a ≠ d

/-- A super call in the code of the class `c` finds the entry `e`: an instance method in the table of
the parent, declared above `c`. -/
structure FindsAbove (r : Registry) (c : Class) (name : String) (args : List Value) (e : Method)
    (declaring : Class) : Prop where
  parent : ∃ p, r.parent? c = some p ∧ p.select .onInstance name args = .ok e ∧ e ∈ p.methods.entries
  onInstance : e.isStatic = false
  registered : r.class? e.declaring = some declaring
  above : r.Above c declaring

/-- A call to the class above: the moment at which its arguments are complete, the moment at which its
body begins, the frame whose code calls, and the frame that the body begins as. -/
structure SuperCall where
  call : Nat
  body : Nat
  caller : Frame
  callee : Frame

/-- A run makes the call: of a method, which is entered first, or of a constructor. -/
inductive Machine.Makes (m : Machine) (op : Operation) : SuperCall → Prop where
  | method {i f g name args K e declaring receiver} :
      Completes (.superMethod name) args f (m.moment op i).control (m.moment op i).stack K →
      (m.moment op (i + 1)).control = .enter e declaring receiver args →
      (m.moment op (i + 2)).control = .exec g → Makes m op ⟨i, i + 2, f, g⟩
  | init {i f g args K} :
      Completes .superInit args f (m.moment op i).control (m.moment op i).stack K →
      (m.moment op (i + 1)).control = .exec g → Makes m op ⟨i, i + 1, f, g⟩

/-- The body of the call `x` makes the call `y` directly. -/
structure Machine.Nests (m : Machine) (op : Operation) (x y : SuperCall) : Prop where
  outer : m.Makes op x
  inner : m.Makes op y
  itself : m.RunsItself op x.body y.call

/-! ## Steps -/

section Steps

variable {env : Env} {s : State} {target : CallTarget} {args : List Value} {f : Frame} {K : List Cont}
  {name : String}

theorem Completes.runs {c : Control} {K' : List Cont} (h : Completes target args f c K K') :
    Runs f c K K' := by
  cases h with
  | method => exact .eval .rfl
  | init => exact .exec ⟨rfl, rfl⟩
  | last => exact .resumed ⟨rfl, rfl⟩ .rfl

/-- With its arguments complete, a call is made at once. -/
theorem Completes.step (h : Completes target args f s.control s.stack K) :
    s.step env = { s with stack := K }.call env target args f := by
  obtain ⟨c, K', d, σ⟩ := s
  simp only at h
  cases h with
  | method => rfl
  | @init f rest K hcode =>
    show State.exec env _ f = _
    unfold State.exec
    rw [hcode]
    rfl
  | @last target before a f K =>
    have hargs : (a.getD Value.null :: before).reverse = before.reverse ++ [a.getD Value.null] :=
      List.reverse_cons
    rw [← hargs]
    rfl

/-- An ancestor is registered before a class and everything below the class. -/
theorem Registry.Sound.above {r : Registry} (hwf : r.Sound) {c d : Class} (hc : r.Has c)
    (h : d.id ∈ c.ancestors) : r.Above c d := by
  have hlt := hwf.ancestors_lt hc h
  refine ⟨h, hlt, ?_⟩
  rintro a ha hbelow rfl
  exact absurd (hwf.descendsFrom_le ha hbelow) hlt.not_ge

/-- What the parent of a class selects is declared above the class. -/
theorem findsAbove {r : Registry} (hwf : r.Sound) {c p : Class} (hc : r.Has c)
    (hp : r.parent? c = some p) {e : Method} (he : p.select .onInstance name args = .ok e) :
    ∃ declaring, FindsAbove r c name args e declaring := by
  obtain ⟨hwants, hmem⟩ := Class.select_wants he
  obtain ⟨declaring, hd, -⟩ := hwf.entry_declaring (hwf.parent_before hc hp).1 hmem
  exact ⟨declaring, ⟨p, hp, he, hmem⟩, Class.select_onInstance he, hd,
    hwf.above hc (hwf.select_above hc hp he hd).2⟩

/-- The class of the code decides alone what a super call finds, and classes that come later change
nothing in it. -/
theorem FindsAbove.unique {r r' : Registry} (hwf : r.Sound) (hx : r.Extends r') {c : Class} (hc : r.Has c)
    {e e' : Method} {d d' : Class} (h : FindsAbove r c name args e d)
    (h' : FindsAbove r' c name args e' d') : e' = e ∧ d' = d := by
  obtain ⟨p, hp, he, -⟩ := h.parent
  obtain ⟨p', hp', he', -⟩ := h'.parent
  rw [hwf.parent?_extends hx hc, hp] at hp'
  cases hp'
  rw [he] at he'
  cases he'
  have hd := h'.registered
  rw [hx.class? h.registered] at hd
  cases hd
  exact ⟨rfl, rfl⟩

/-- A super call finds a method above the class whose code calls. -/
theorem callSuper_cases (hwf : env.registry.Sound) (hf : env.registry.Has f.cls) (s : State) :
    ((f.this = none ∨ ∀ p, env.registry.parent? f.cls = some p →
        ∃ err, p.select .onInstance name args = .error err) ∧
      ∃ err, s.callSuper env f name args = s.raise err) ∨
    ∃ ref e declaring, f.this = some ref ∧ FindsAbove env.registry f.cls name args e declaring ∧
      s.callSuper env f name args = s.goto (.enter e declaring (some ref) args) := by
  cases hthis : f.this with
  | none =>
    refine .inl ⟨.inl rfl, .dispatchOnNull ("super." ++ callText name args), ?_⟩
    simp only [State.callSuper, hthis]
  | some ref =>
    cases hp : env.registry.parent? f.cls with
    | none =>
      refine .inl ⟨.inr fun q hq => ?_, .noSuchMethod f.cls.name ("super." ++ callText name args), ?_⟩
      · cases hq
      · simp only [State.callSuper, hthis, hp]
    | some p =>
      cases he : p.select .onInstance name args with
      | error err =>
        refine .inl ⟨.inr fun q hq => by cases hq; exact ⟨err, he⟩, err, ?_⟩
        simp only [State.callSuper, hthis, hp, he, State.proceed]
      | ok e =>
        obtain ⟨declaring, hfinds⟩ := findsAbove hwf hf hp he
        refine .inr ⟨ref, e, declaring, rfl, hfinds, ?_⟩
        simp only [State.callSuper, hthis, hp, he, State.proceed, State.invoke, hfinds.registered,
          hfinds.onInstance, Bool.false_eq_true, if_false]

/-- A super constructor is one of the parent of the class whose code calls it. -/
theorem superInit_cases (env : Env) (s : State) (f : Frame) (args : List Value) :
    ((f.this = none ∨ (∀ p, env.registry.parent? f.cls = some p →
          ∃ err, p.selectConstructor args = .error err) ∨ env.options.maxCallDepth ≤ s.depth) ∧
      ∃ err, s.superInit env f args = s.raise err) ∨
    ∃ ref p k, f.this = some ref ∧ env.registry.parent? f.cls = some p ∧
      p.selectConstructor args = .ok k ∧ k ∈ p.constructors ∧
      s.superInit env f args =
        ⟨.exec (.enter p (some ref) (.object ref :: args) k.body), .superDone f :: s.stack, s.depth + 1,
          s.store⟩ := by
  cases hthis : f.this with
  | none =>
    refine .inl ⟨.inl rfl, .typeMismatch "receiver" "static context", ?_⟩
    simp only [State.superInit, State.receiverOf, hthis, State.proceed]
  | some ref =>
    cases hp : env.registry.parent? f.cls with
    | none =>
      refine .inl ⟨.inr (.inl fun q hq => ?_),
        .noMatchingConstructor f.cls.name (callText "super" args) 0, ?_⟩
      · cases hq
      · simp only [State.superInit, State.receiverOf, hthis, hp, State.proceed]
    | some p =>
      cases hk : p.selectConstructor args with
      | error err =>
        refine .inl ⟨.inr (.inl fun q hq => by cases hq; exact ⟨err, hk⟩), err, ?_⟩
        simp only [State.superInit, State.receiverOf, hthis, hp, hk, State.proceed]
      | ok k =>
        by_cases hd : env.options.maxCallDepth ≤ s.depth
        · refine .inl ⟨.inr (.inr hd), .stackOverflow env.options.maxCallDepth, ?_⟩
          simp only [State.superInit, State.receiverOf, hthis, hp, hk, State.proceed, State.activate,
            if_pos hd]
        · refine .inr ⟨ref, p, k, rfl, rfl, hk, Class.selectConstructor_mem hk, ?_⟩
          simp only [State.superInit, State.receiverOf, hthis, hp, hk, State.proceed, State.activate,
            if_neg hd]

/-- The body of a method runs as code of the class that declares it. -/
theorem enter_exec {e : Method} {declaring : Class} {receiver : Option Handle} {g : Frame}
    (hs : s.control = .enter e declaring receiver args) (hg : (s.step env).control = .exec g) :
    g.cls = declaring ∧ g.this = receiver ∧ (s.step env).stack = .returning e.returns :: s.stack := by
  have h := State.step_transition env s
  obtain ⟨c, K, d, σ⟩ := s
  simp only at hs
  subst hs
  generalize State.step env _ = t at h hg
  cases h with
  | enterBody =>
    cases hg
    exact ⟨rfl, rfl, rfl⟩
  | go h | answer h | fail h | callVirtual h | callSuper h | superOverflow h | evaluate h | access h
  | enterSuper h => cases h
  | enterHost | enterOverflow => cases hg
  | ended hc => rcases hc with ⟨v, hc⟩ | ⟨err, hc⟩ <;> cases hc

end Steps

/-! ## Calls -/

section Calls

variable {m : Machine} {past : List State} {op : Operation} {n : Nat} {target : CallTarget}
  {args : List Value} {f : Frame} {K : List Cont} {name : String}

/-- What a call to the class above comes to: its body begins on the same receiver, as code of a class
above. -/
structure Machine.Ascends (m : Machine) (op : Operation) (x : SuperCall) : Prop where
  caller : m.registry.Has x.caller.cls
  callee : m.registry.Has x.callee.cls
  above : x.callee.cls.id ∈ x.caller.cls.ancestors
  present : x.caller.this ≠ none
  same : x.callee.this = x.caller.this
  runs : ∃ K, Runs x.caller (m.moment op x.call).control (m.moment op x.call).stack K
  begins : m.BeginsBody op x.body x.callee

/-- The class whose code makes a call is registered. -/
theorem Completes.caller (h : History (fun _ => True) m past)
    (hcomp : Completes target args f (m.moment op n).control (m.moment op n).stack K) :
    m.registry.Has f.cls := by
  have hfits : State.Fits m.env (m.moment op n) := fits_invariant.moment h trivial n
  exact (hcomp.runs.fits hfits.control hfits.stack).1

/-- A super call in a run fails at the next moment, or the method that it has found is entered then. -/
theorem Completes.next_superMethod (h : History (fun _ => True) m past)
    (hcomp : Completes (.superMethod name) args f (m.moment op n).control (m.moment op n).stack K) :
    ((f.this = none ∨ ∀ p, m.registry.parent? f.cls = some p →
        ∃ err, p.select .onInstance name args = .error err) ∧
      ∃ err, m.moment op (n + 1) = { m.moment op n with control := .raise err, stack := K }) ∨
    ∃ ref e declaring, f.this = some ref ∧ FindsAbove m.registry f.cls name args e declaring ∧
      m.moment op (n + 1) =
        { m.moment op n with control := .enter e declaring (some ref) args, stack := K } := by
  have hf : m.env.registry.Has f.cls := hcomp.caller h
  have hnext := (m.moment_succ op n).trans hcomp.step
  rcases callSuper_cases h.sound hf { m.moment op n with stack := K } with
    ⟨hwhy, err, heq⟩ | ⟨ref, e, declaring, hthis, hfinds, heq⟩
  · exact .inl ⟨hwhy, err, hnext.trans heq⟩
  · exact .inr ⟨ref, e, declaring, hthis, hfinds, hnext.trans heq⟩

/-- A super constructor in a run fails at the next moment, or its body begins then. -/
theorem Completes.next_superInit
    (hcomp : Completes .superInit args f (m.moment op n).control (m.moment op n).stack K) :
    ((f.this = none ∨ (∀ p, m.registry.parent? f.cls = some p →
          ∃ err, p.selectConstructor args = .error err) ∨
        m.options.maxCallDepth ≤ (m.moment op n).depth) ∧
      ∃ err, m.moment op (n + 1) = { m.moment op n with control := .raise err, stack := K }) ∨
    ∃ ref p k, f.this = some ref ∧ m.registry.parent? f.cls = some p ∧
      p.selectConstructor args = .ok k ∧ k ∈ p.constructors ∧
      m.moment op (n + 1) =
        ⟨.exec (.enter p (some ref) (.object ref :: args) k.body), .superDone f :: K,
          (m.moment op n).depth + 1, (m.moment op n).store⟩ := by
  have hnext := (m.moment_succ op n).trans hcomp.step
  rcases superInit_cases m.env { m.moment op n with stack := K } f args with
    ⟨hwhy, err, heq⟩ | ⟨ref, p, k, hthis, hp, hk, hmem, heq⟩
  · exact .inl ⟨hwhy, err, hnext.trans heq⟩
  · exact .inr ⟨ref, p, k, hthis, hp, hk, hmem, hnext.trans heq⟩

theorem Machine.Makes.ascends (h : History (fun _ => True) m past) {x : SuperCall} (hx : m.Makes op x) :
    m.Ascends op x := by
  have hwf := h.sound
  cases hx with
  | @method i f g name args K e declaring receiver hcomp hctl hbody =>
    rcases hcomp.next_superMethod h with ⟨-, err, hnext⟩ | ⟨ref, e', declaring', hthis, hfinds, hnext⟩
    · rw [hnext] at hctl
      cases hctl
    · have hstep := m.moment_succ op (i + 1)
      rw [hstep] at hbody
      obtain ⟨hcls, hsame, hstack⟩ := enter_exec (by rw [hnext]) hbody
      refine ⟨hcomp.caller h, ?_, ?_, ?_, ?_, ⟨K, hcomp.runs⟩, ?_, ?_⟩
      · rw [hcls]
        exact hwf.has_of_class? hfinds.registered
      · rw [hcls]
        exact hfinds.above.ancestor
      · simp [hthis]
      · rw [hsame, hthis]
      · rw [hstep]
        exact hbody
      · exact ⟨_, _, by rw [hstep]; exact hstack, rfl⟩
  | @init i f g args K hcomp hbody =>
    have hf := hcomp.caller h
    rcases hcomp.next_superInit with ⟨-, err, hnext⟩ | ⟨ref, p, k, hthis, hp, -, -, hnext⟩
    · rw [hnext] at hbody
      cases hbody
    · have hctl := hbody
      rw [hnext] at hctl
      cases hctl
      refine ⟨hf, (hwf.parent_before hf hp).1, ?_, ?_, hthis.symm, ⟨K, hcomp.runs⟩, hbody, ?_⟩
      · rw [hwf.ancestors_of_parent hf hp]
        exact List.mem_cons_self
      · simp [hthis]
      · exact ⟨_, _, by rw [hnext], rfl⟩

/-- A call that a body makes directly is made on its receiver by the code of its class. -/
theorem Machine.Nests.sameSite (h : History (fun _ => True) m past) {x y : SuperCall}
    (hxy : m.Nests op x y) : x.callee.SameSite y.caller := by
  have hy := hxy.inner.ascends h
  obtain ⟨K, hruns⟩ := hy.runs
  exact (hxy.outer.ascends h).begins.sameSite h hxy.itself hruns hy.present

theorem Machine.Nests.ancestor (h : History (fun _ => True) m past) {x y : SuperCall}
    (hxy : m.Nests op x y) : y.callee.cls.id ∈ x.callee.cls.ancestors := by
  rw [← (hxy.sameSite h).cls]
  exact (hxy.inner.ascends h).above

/-- Along calls that are made directly in one another the classes ascend. -/
theorem Machine.nests_pairwise (h : History (fun _ => True) m past) {calls : List SuperCall}
    (hcalls : calls.IsChain (m.Nests op)) : calls.Pairwise fun x y =>
      m.registry.Above x.callee.cls y.callee.cls ∧ m.registry.Above x.caller.cls y.callee.cls := by
  have hwf := h.sound
  let up (x y : SuperCall) : Prop :=
    m.Ascends op x ∧ m.Ascends op y ∧ y.callee.cls.id ∈ x.callee.cls.ancestors
  have : IsTrans SuperCall up := ⟨fun x y z ⟨hx, hy, hxy⟩ ⟨_, hz, hyz⟩ =>
    ⟨hx, hz, hwf.ancestors_trans hx.callee hy.callee hxy (List.mem_cons_of_mem _ hyz)⟩⟩
  have hup : calls.IsChain up := hcalls.imp fun x y hxy =>
    ⟨hxy.outer.ascends h, hxy.inner.ascends h, hxy.ancestor h⟩
  refine hup.pairwise.imp fun {x y} ⟨hx, hy, hxy⟩ => ⟨hwf.above hx.callee hxy, ?_⟩
  exact hwf.above hx.caller
    (hwf.ancestors_trans hx.caller hx.callee hx.above (List.mem_cons_of_mem _ hxy))

end Calls

/-! ## Main statement -/

/-- At every moment of every run each receiver is an instance of the class whose code runs on it. A super
call fails, or it finds an instance method in the table of the parent of that class, declared above it,
which neither the receiver nor classes that come later change; a super constructor fails, or it is one of
the parent. Every call to the class above goes strictly up, and so do calls that are made directly in
one another, all the way. -/
theorem super_calls_ascend {m : Machine} {past : List State} (h : History (fun _ => True) m past)
    (op : Operation) :
    (∀ n, ∀ f ∈ (m.moment op n).frames, ∀ ref, f.this = some ref →
      ∃ own, (m.moment op n).store.classOf? m.registry ref = some own ∧
        own.descendsFrom f.cls = true) ∧
    (∀ n f name args K,
      Completes (.superMethod name) args f (m.moment op n).control (m.moment op n).stack K →
      ((f.this = none ∨ ∀ p, m.registry.parent? f.cls = some p →
          ∃ err, p.select .onInstance name args = .error err) ∧
        ∃ err, m.moment op (n + 1) = { m.moment op n with control := .raise err, stack := K }) ∨
      ∃ ref e declaring, f.this = some ref ∧ FindsAbove m.registry f.cls name args e declaring ∧
        m.moment op (n + 1) =
          { m.moment op n with control := .enter e declaring (some ref) args, stack := K }) ∧
    (∀ c name args e d, m.registry.Has c → FindsAbove m.registry c name args e d →
      ∀ r e' d', m.registry.Extends r → FindsAbove r c name args e' d' → e' = e ∧ d' = d) ∧
    (∀ n f args K, Completes .superInit args f (m.moment op n).control (m.moment op n).stack K →
      ((f.this = none ∨ (∀ p, m.registry.parent? f.cls = some p →
            ∃ err, p.selectConstructor args = .error err) ∨
          m.options.maxCallDepth ≤ (m.moment op n).depth) ∧
        ∃ err, m.moment op (n + 1) = { m.moment op n with control := .raise err, stack := K }) ∨
      ∃ ref p k, f.this = some ref ∧ m.registry.parent? f.cls = some p ∧
        p.selectConstructor args = .ok k ∧ k ∈ p.constructors ∧
        m.moment op (n + 1) =
          ⟨.exec (.enter p (some ref) (.object ref :: args) k.body), .superDone f :: K,
            (m.moment op n).depth + 1, (m.moment op n).store⟩) ∧
    (∀ x, m.Makes op x → m.registry.Above x.caller.cls x.callee.cls) ∧
    ∀ calls : List SuperCall, calls.IsChain (m.Nests op) → calls.Pairwise fun x y =>
      m.registry.Above x.callee.cls y.callee.cls ∧ m.registry.Above x.caller.cls y.callee.cls := by
  have hwf := h.sound
  refine ⟨fun n f hf => (suits_invariant.moment h trivial n).2.frames f hf,
    fun n f name args K hcomp => hcomp.next_superMethod h,
    fun c name args e d hc hd r e' d' hx hd' => hd.unique hwf hx hc hd',
    fun n f args K hcomp => hcomp.next_superInit,
    fun x hx => ?_, fun calls hcalls => Machine.nests_pairwise h hcalls⟩
  have hx := hx.ascends h
  exact hwf.above hx.caller hx.above

/-- Three classes on top of each other; the upper two hand the call on. -/
def ladder : CompilationUnit :=
  let handOn : MethodDecl :=
    .onInstance "go" [] .int { code := [.giveBack (some (.invokeSuper "go" []))] }
  { name := "ladder"
    classes := [
      { name := "Lowest", parent := some "Middle", methods := [handOn] },
      { name := "Middle", parent := some "Highest", methods := [handOn] },
      { name := "Highest"
        methods := [.onInstance "go" [] .int { code := [.giveBack (some (.ofInt 1))] }] }] }

/-- The control is a super call without arguments. -/
def Control.isSuperCall (name : String) : Control → Bool
  | .eval _ (.invokeSuper method []) => method = name
  | _ => false

def Control.isBody : Control → Bool
  | .exec _ => true
  | _ => false

/-- A super call without arguments whose body begins. -/
theorem Machine.makes_of_isSuperCall {m : Machine} {past : List State}
    (h : History (fun _ => True) m past) {op : Operation} {i : Nat} {name : String}
    (hcall : (m.moment op i).control.isSuperCall name = true)
    (hbegun : (m.moment op (i + 1)).control.method?.isSome = true)
    (hbody : (m.moment op (i + 2)).control.isBody = true) : ∃ f g, m.Makes op ⟨i, i + 2, f, g⟩ := by
  have hcomp : ∃ f, Completes (.superMethod name) [] f (m.moment op i).control (m.moment op i).stack
      (m.moment op i).stack := by
    generalize (m.moment op i).control = c at hcall
    unfold Control.isSuperCall at hcall
    split at hcall
    · obtain rfl := of_decide_eq_true hcall
      exact ⟨_, .method⟩
    · cases hcall
  obtain ⟨f, hcomp⟩ := hcomp
  have hexec : ∃ g, (m.moment op (i + 2)).control = .exec g := by
    generalize (m.moment op (i + 2)).control = c at hbody
    unfold Control.isBody at hbody
    split at hbody
    · exact ⟨_, rfl⟩
    · cases hbody
  obtain ⟨g, hexec⟩ := hexec
  rcases hcomp.next_superMethod h with ⟨-, err, hnext⟩ | ⟨ref, e, declaring, -, -, hnext⟩
  · rw [hnext] at hbegun
    cases hbegun
  · exact ⟨f, g, .method hcomp (congrArg State.control hnext) hexec⟩

def ladderMachine : Machine :=
  let m := (Machine.load (.boot {} {}) ladder).2
  { m with store := (m.moment (.construct 1 "Lowest" []) 20).store }

theorem ladderMachine_history : ∃ past, History (fun _ => True) ladderMachine past := by
  have hend : ((Machine.load (.boot {} {}) ladder).2.moment (.construct 1 "Lowest" []) 20).outcome? =
      some (.ok (some (.object ⟨0⟩))) := by
    decide +kernel
  have hboot : History (fun _ => True) (.boot {} {}) [] := .boot
  have hload := hboot.act (a := .load ladder) trivial .load
  exact ⟨_, hload.act trivial (.perform (Machine.perform_of_outcome? le_rfl hend))⟩

/-- Two super calls on one receiver, the second made by the body of the first. -/
theorem super_calls_ascend_ladder : ∃ op x y, ladderMachine.Nests op x y ∧
    ladderMachine.registry.Above x.callee.cls y.callee.cls := by
  obtain ⟨past, h⟩ := ladderMachine_history
  let op : Operation := .invokeVirtual (.object ⟨0⟩) "go" []
  have hfirst : ∃ f g, ladderMachine.Makes op ⟨2, 4, f, g⟩ :=
    Machine.makes_of_isSuperCall h (show Control.isSuperCall "go" _ = true by decide +kernel)
      (by decide +kernel) (by decide +kernel)
  have hsecond : ∃ f g, ladderMachine.Makes op ⟨5, 7, f, g⟩ :=
    Machine.makes_of_isSuperCall h (show Control.isSuperCall "go" _ = true by decide +kernel)
      (by decide +kernel) (by decide +kernel)
  obtain ⟨f, g, hx⟩ := hfirst
  obtain ⟨f', g', hy⟩ := hsecond
  -- the statement of the body puts its own continuation on the stack
  have hstay : (ladderMachine.moment op 4).stack <:+ (ladderMachine.moment op 5).stack := by
    have hlen : (ladderMachine.moment op 4).stack.length < (ladderMachine.moment op 5).stack.length := by
      decide +kernel
    obtain ⟨k, K, hB, hk⟩ := (hx.ascends h).begins.stack
    rw [ladderMachine.moment_succ op 4] at hlen ⊢
    cases (State.step_transition ladderMachine.env (ladderMachine.moment op 4)).frameStep with
    | keep hP => exact ⟨_, hP.symm⟩
    | pop hK hP hact =>
      obtain ⟨rfl, rfl⟩ := List.cons.inj (hB.symm.trans hK)
      rw [hP, hact hk, hB] at hlen
      exact absurd hlen (by simp)
  have hitself : ladderMachine.RunsItself op 4 5 := by
    refine ⟨by decide, fun l hl hl' => ?_, by decide +kernel⟩
    obtain rfl | rfl : l = 4 ∨ l = 5 := by omega
    · exact List.suffix_refl _
    · exact hstay
  have hnests : ladderMachine.Nests op ⟨2, 4, f, g⟩ ⟨5, 7, f', g'⟩ := ⟨hx, hy, hitself⟩
  obtain ⟨-, -, -, -, -, hchain⟩ := super_calls_ascend h op
  have hpairs := hchain [⟨2, 4, f, g⟩, ⟨5, 7, f', g'⟩] (.cons_cons hnests (.singleton _))
  exact ⟨op, _, _, hnests, (List.rel_of_pairwise_cons hpairs (List.mem_singleton.2 rfl)).1⟩

end ObjectMachine
