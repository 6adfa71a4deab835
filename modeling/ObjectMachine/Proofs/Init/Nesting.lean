/-
How initializations nest. The initialization of a class is entered from a continuation that waits
for it (`awaited?`), and while it goes on it stands directly above that continuation; its own parts
(`part?`) stand directly above it. So when an answer reaches a continuation that waits for a class,
the class is initialized or its initialization is going on, and the classes whose initialization is
going on are exactly those on the stack, each of them once.
-/
import ObjectMachine.Proofs.Exec.Registered

namespace ObjectMachine

/-! ## Definitions -/

namespace Cont

/-- The class whose initialization this is. -/
def initializes? : Cont → Option Class
  | .initializing c => some c
  | _ => none

/-- The class whose static fields are initialized here. -/
def part? : Cont → Option Class
  | .ownStatics c | .staticValue c _ _ _ => some c
  | _ => none

/-- The class whose initialization is waited for. -/
def awaited? (r : Registry) : Cont → Option Class
  | .ownStatics c => r.parent? c
  | .thenCreate c _ | .thenInvoke _ c _ | .thenRead c _ _ | .thenWrite c _ _ _ => some c
  | _ => none

/-- The continuation has nothing to do with initialization. -/
structure IsOrdinary (r : Registry) (k : Cont) : Prop where
  initializes : k.initializes? = none
  part : k.part? = none
  awaited : k.awaited? r = none

/-- What the continuations directly above and below each other have to do with each other. -/
structure Sits (r : Registry) (k : Cont) (K : List Cont) : Prop where
  part : ∀ c, k.part? = some c → K.head? = some (.initializing c)
  inner : ∀ c, k.initializes? = some c → ∀ b ∈ K.head?, b.awaited? r = some c
  waits : ∀ b ∈ K.head?, ∀ c, b.awaited? r = some c → k.initializes? = some c

end Cont

/-- Every continuation of a stack sits well on those below it. -/
def Laid (r : Registry) : List Cont → Prop
  | [] => True
  | k :: K => k.Sits r K ∧ Laid r K

/-- The top of the stack waits for no initialization. -/
def Plain (r : Registry) (K : List Cont) : Prop := ∀ b ∈ K.head?, b.awaited? r = none

/-- The classes whose initialization is on the stack, by position. -/
def running (K : List Cont) : List ClassId := K.filterMap fun k => k.initializes?.map (·.id)

/-- What is being done goes with the top of the stack. -/
def Control.Placed (r : Registry) (t : Statics) (K : List Cont) : Control → Prop
  | .init c => ∀ b ∈ K.head?, b.awaited? r = some c
  | .statics c _ _ => K.head? = some (.initializing c)
  | .answer _ => ∀ b ∈ K.head?, ∀ c, b.awaited? r = some c → (t.state c).Ready
  | .raise _ => True
  | .create c _ => Plain r K ∧ (t.state c).Ready
  | .enter e c _ _ => Plain r K ∧ (e.isStatic = true → (t.state c).Ready)
  | .eval _ _ | .exec _ | .host _ _ _ => Plain r K

/-- The initializations on the stack are exactly those that are going on, each of them once. -/
structure Running (t : Statics) (K : List Cont) : Prop where
  nodup : (running K).Nodup
  iff : ∀ id, t.stateOf id = .running ↔ id ∈ running K

/-- Initializations nest properly. -/
structure State.Nested (env : Env) (s : State) : Prop where
  placed : s.control.Placed env.registry s.store.statics s.stack
  laid : Laid env.registry s.stack
  running : Running s.store.statics s.stack

/-! ## Stacks -/

section Stacks

variable {env : Env} {r : Registry} {t : Statics} {f : Frame} {c : Control} {k : Cont} {K K' : List Cont}

theorem Cont.initializes?_eq {cls : Class} : k.initializes? = some cls ↔ k = .initializing cls := by
  cases k <;> simp [initializes?]

theorem Cont.IsCode.ordinary (hk : k.IsCode f) : k.IsOrdinary r := by
  obtain ⟨hf, ha⟩ := hk
  cases k <;> first | exact ⟨rfl, rfl, rfl⟩ | cases hf

theorem Cont.IsOperand.ordinary (hk : k.IsOperand) : k.IsOrdinary r := by
  cases k <;> first | exact ⟨rfl, rfl, rfl⟩ | exact hk.elim

theorem Plain.cons (hk : k.awaited? r = none) : Plain r (k :: K) := by
  intro b hb
  cases hb
  exact hk

theorem running_cons (hk : k.initializes? = none) : running (k :: K) = running K := by
  simp [running, hk]

theorem running_initializing (cls : Class) (K : List Cont) :
    running (.initializing cls :: K) = cls.id :: running K := rfl

/-- Below anything but an initialization nothing waits for one. -/
theorem Laid.pop (h : Laid r (k :: K)) (hk : k.initializes? = none) : Plain r K ∧ Laid r K := by
  refine ⟨fun b hb => ?_, h.2⟩
  cases hw : b.awaited? r with
  | none => rfl
  | some cls => rw [h.1.waits b hb cls hw] at hk; cases hk

theorem Plain.nil : Plain r [] := by
  intro b hb
  cases hb

theorem Laid.push (h : Laid r K) (hK : Plain r K) (hi : k.initializes? = none) (hp : k.part? = none) :
    Laid r (k :: K) := by
  refine ⟨⟨fun c hc => ?_, fun c hc => ?_, fun b hb c hc => ?_⟩, h⟩
  · rw [hp] at hc; cases hc
  · rw [hi] at hc; cases hc
  · rw [hK b hb] at hc; cases hc

theorem Laid.pushPart {cls : Class} (h : Laid r K) (hK : K.head? = some (.initializing cls))
    (hi : k.initializes? = none) (hp : k.part? = some cls) : Laid r (k :: K) := by
  refine ⟨⟨fun c hc => ?_, fun c hc => ?_, fun b hb c hc => ?_⟩, h⟩
  · rw [hp] at hc; cases hc; exact hK
  · rw [hi] at hc; cases hc
  · rw [hK] at hb; cases hb; cases hc

theorem Laid.pushInitializing {cls : Class} (h : Laid r K) (hK : ∀ b ∈ K.head?, b.awaited? r = some cls) :
    Laid r (.initializing cls :: K) := by
  refine ⟨⟨fun c hc => ?_, fun c hc => ?_, fun b hb c hc => ?_⟩, h⟩
  · cases hc
  · cases hc; exact hK
  · rw [hK b hb] at hc; exact hc

theorem plain_initializing {cls : Class} (hK : K.head? = some (.initializing cls)) : Plain r K := by
  intro b hb
  rw [hK] at hb
  cases hb
  rfl

/-- Where the code of a frame goes on. -/
theorem Runs.nested (h : Runs f c K K') (hp : c.Placed r t K) (hl : Laid r K) :
    Plain r K' ∧ Laid r K' ∧ running K' = running K := by
  cases h with
  | eval => exact ⟨hp, hl, rfl⟩
  | exec => exact ⟨hp, hl, rfl⟩
  | resumed hk =>
    obtain ⟨hK, hl⟩ := hl.pop (hk.ordinary (r := r)).initializes
    exact ⟨hK, hl, (running_cons (hk.ordinary (r := r)).initializes).symm⟩

theorem Plain.answer (h : Plain r K) (v : Option Value) : (Control.answer v).Placed r t K := by
  intro b hb c hc
  rw [h b hb] at hc
  cases hc

theorem Access.awaits {u : UnitId} {cls : Class} (h : Access env u k cls) :
    k.initializes? = none ∧ k.part? = none ∧ k.awaited? env.registry = some cls := by
  cases h <;> exact ⟨rfl, rfl, rfl⟩

end Stacks

/-! ## Running initializations -/

namespace Running

variable {t : Statics} {k : Cont} {K K' : List Cont} {c : Class}

theorem congr (h : Running t K) (hK : running K' = running K) : Running t K' :=
  ⟨hK ▸ h.nodup, fun id => hK ▸ h.iff id⟩

/-- Anything but an initialization comes off the stack. -/
theorem pop (h : Running t (k :: K)) (hk : k.initializes? = none) : Running t K :=
  h.congr (running_cons hk).symm

/-- Anything but an initialization is put on the stack. -/
theorem push (h : Running t K) (hk : k.initializes? = none) : Running t (k :: K) :=
  h.congr (running_cons hk)

theorem setCell (h : Running t K) (slot : Nat) (v : Value) : Running (t.setCell c slot v) K :=
  ⟨h.nodup, fun id => by rw [Statics.stateOf_setCell]; exact h.iff id⟩

/-- An initialization begins. -/
theorem begin (h : Running t K) (hc : t.state c = .pending) :
    Running (t.setState c .running) (.initializing c :: K) := by
  have hnot : c.id ∉ running K := fun hm => by
    have hrun := (h.iff c.id).2 hm
    rw [show t.stateOf c.id = .pending from hc] at hrun
    cases hrun
  refine ⟨List.nodup_cons.2 ⟨hnot, h.nodup⟩, fun id => ?_⟩
  rw [Statics.stateOf_setState, running_initializing, List.mem_cons]
  split
  · rename_i hid; simp [hid]
  · rename_i hid; simp [hid, h.iff id]

/-- An initialization ends. -/
theorem finish (h : Running t (.initializing c :: K)) {st : InitState} (hst : st ≠ .running) :
    Running (t.setState c st) K := by
  obtain ⟨hnot, hn⟩ := List.nodup_cons.1 h.nodup
  refine ⟨hn, fun id => ?_⟩
  have hiff := h.iff id
  rw [running_initializing, List.mem_cons] at hiff
  rw [Statics.stateOf_setState]
  split
  · rename_i hid
    rw [hid]
    exact ⟨fun h => absurd h hst, fun h => absurd h hnot⟩
  · rename_i hid; simpa [hid] using hiff

theorem of_initializing (h : Running t K) (hc : Cont.initializing c ∈ K) : t.state c = .running :=
  (h.iff c.id).2 (List.mem_filterMap.2 ⟨_, hc, rfl⟩)

end Running

/-! ## Steps -/

section Steps

variable {env : Env} {s s' : State}

theorem Cont.initializes?_activation {k : Cont} (h : k.isActivation = true) : k.initializes? = none := by
  cases k <;> first | rfl | cases h

theorem Cont.initializes?_none {k : Cont} (h : ∀ c, k ≠ .initializing c) : k.initializes? = none := by
  cases hk : k.initializes? with
  | none => rfl
  | some c => exact absurd (initializes?_eq.1 hk) (h c)

/-- Where an operation starts nothing is going on. -/
theorem Starts.nested {op : Operation} {σ : Store} (h : Starts env op σ s)
    (hσ : ∀ id, σ.statics.stateOf id ≠ .running) : s.Nested env := by
  have hr : Running σ.statics [] := ⟨List.nodup_nil, fun id => by simp [hσ id, ObjectMachine.running]⟩
  cases h with
  | failed => exact ⟨trivial, trivial, hr⟩
  | access hk =>
    obtain ⟨hi, hp, hw⟩ := hk.awaits
    exact ⟨fun b hb => by cases hb; exact hw, Laid.push trivial .nil hi hp, hr.push hi⟩
  | virtual hsel => exact ⟨⟨.nil, by simp [hsel.onInstance]⟩, trivial, hr⟩
  | prepare => exact ⟨by simp [Control.Placed], trivial, hr⟩
  | eval | run => exact ⟨Plain.nil, trivial, hr⟩

/-- A step keeps initializations nested. -/
theorem Transition.nested (h : Transition env s s') (hs : s.Nested env) : s'.Nested env := by
  obtain ⟨hp, hl, hr⟩ := hs
  cases h with
  -- the code of a frame
  | go h =>
    obtain ⟨hK, hl, heq⟩ := h.nested hp hl
    exact ⟨hK, hl, hr.congr heq⟩
  | evaluate h hk =>
    obtain ⟨hK, hl, heq⟩ := h.nested hp hl
    have hk := hk.elim Cont.IsOperand.ordinary (Cont.IsCode.ordinary (r := env.registry))
    exact ⟨Plain.cons hk.awaited, hl.push hK hk.initializes hk.part, (hr.congr heq).push hk.initializes⟩
  | answer h =>
    obtain ⟨hK, hl, heq⟩ := h.nested hp hl
    exact ⟨hK.answer _, hl, hr.congr heq⟩
  | fail h | superOverflow h =>
    obtain ⟨hK, hl, heq⟩ := h.nested hp hl
    exact ⟨trivial, hl, hr.congr heq⟩
  | access h hk =>
    obtain ⟨hK, hl, heq⟩ := h.nested hp hl
    obtain ⟨hi, hpart, hw⟩ := hk.awaits
    exact ⟨fun b hb => by cases hb; exact hw, hl.push hK hi hpart, (hr.congr heq).push hi⟩
  | @accessWrite f _ _ _ _ _ _ _ _ hk =>
    obtain ⟨hi, hpart, hw⟩ := hk.awaits
    obtain ⟨hK, hl⟩ := hl.pop rfl
    have hf := hl.push (k := .resume f) hK rfl rfl
    exact ⟨fun b hb => by cases hb; exact hw, hf.push (Plain.cons rfl) hi hpart,
      ((hr.pop rfl).push (k := .resume f) rfl).push hi⟩
  | failWrite =>
    obtain ⟨hK, hl⟩ := hl.pop rfl
    exact ⟨trivial, hl.push hK rfl rfl, (hr.pop rfl).push rfl⟩
  | callVirtual h hsel =>
    obtain ⟨hK, hl, heq⟩ := h.nested hp hl
    exact ⟨⟨hK, by simp [hsel.onInstance]⟩, hl, hr.congr heq⟩
  | callSuper h hsel =>
    obtain ⟨hK, hl, heq⟩ := h.nested hp hl
    exact ⟨⟨hK, by simp [hsel.onInstance]⟩, hl, hr.congr heq⟩
  | enterSuper h =>
    obtain ⟨hK, hl, heq⟩ := h.nested hp hl
    exact ⟨Plain.cons rfl, hl.push hK rfl rfl, (hr.congr heq).push rfl⟩
  | putField | superReturned =>
    obtain ⟨hK, hl⟩ := hl.pop rfl
    exact ⟨hK, hl, hr.pop rfl⟩
  -- operands
  | operate hk =>
    have hk := hk.ordinary (r := env.registry)
    obtain ⟨hK, hl⟩ := hl.pop hk.initializes
    exact ⟨hK.answer _, hl, hr.pop hk.initializes⟩
  | operateFail hk =>
    have hk := hk.ordinary (r := env.registry)
    exact ⟨trivial, hl.2, hr.pop hk.initializes⟩
  -- bodies and host functions
  | enterBody | enterHost => exact ⟨Plain.cons rfl, hl.push hp.1 rfl rfl, hr.push rfl⟩
  | enterOverflow | createOverflow | createFail | hostFail | initFailed => exact ⟨trivial, hl, hr⟩
  | give | constructed | hostReturned | blockDone | thenRead =>
    obtain ⟨hK, hl⟩ := hl.pop rfl
    exact ⟨hK.answer _, hl, hr.pop rfl⟩
  | giveFail | staticFail | thenReadFail | thenWriteFail => exact ⟨trivial, hl.2, hr.pop rfl⟩
  | hostService hst => exact ⟨hp, hl, hst ▸ hr⟩
  | hostReply => exact ⟨hp.answer _, hl, hr⟩
  -- new objects
  | create => exact ⟨Plain.cons rfl, hl.push hp.1 rfl rfl, hr.push rfl⟩
  -- static initialization
  | initReady hready =>
    refine ⟨fun b hb c hc => ?_, hl, hr⟩
    rw [hp b hb] at hc
    cases hc
    exact hready
  | initParent hpend hparent =>
    have hc := hl.pushInitializing hp
    exact ⟨fun b hb => by cases hb; exact hparent, hc.pushPart rfl rfl rfl, (hr.begin hpend).push rfl⟩
  | initRoot hpend => exact ⟨rfl, hl.pushInitializing hp, hr.begin hpend⟩
  | parentDone => exact ⟨hl.1.part _ rfl, hl.2, hr.pop rfl⟩
  | skipStatic => exact ⟨hp, hl, hr⟩
  | evalStatic => exact ⟨Plain.cons rfl, hl.pushPart hp rfl rfl, hr.push rfl⟩
  | storeStatic => exact ⟨hl.1.part _ rfl, hl.2, (hr.pop rfl).setCell _ _⟩
  | enterBlock =>
    have hK := plain_initializing (r := env.registry) hp
    exact ⟨Plain.cons rfl, hl.push hK rfl rfl, hr.push rfl⟩
  | noBlock => exact ⟨(plain_initializing hp).answer _, hl, hr⟩
  | @initDone c =>
    refine ⟨fun b hb d hd => ?_, hl.2, hr.finish nofun⟩
    -- what is below an initialization waits for its class
    have hid := hl.1.waits b hb d hd
    cases hid
    simp [Statics.state, InitState.Ready]
  -- accesses to an initialized class
  | thenCreate =>
    obtain ⟨hK, hl'⟩ := hl.pop rfl
    exact ⟨⟨hK, hp _ rfl _ rfl⟩, hl', hr.pop rfl⟩
  | thenInvoke =>
    obtain ⟨hK, hl'⟩ := hl.pop rfl
    exact ⟨⟨hK, fun _ => hp _ rfl _ rfl⟩, hl', hr.pop rfl⟩
  | thenWrite =>
    obtain ⟨hK, hl⟩ := hl.pop rfl
    exact ⟨hK.answer _, hl, (hr.pop rfl).setCell _ _⟩
  -- errors on their way up
  | unwindInit => exact ⟨trivial, hl.2, hr.finish nofun⟩
  | unwindActivation hk => exact ⟨trivial, hl.2, hr.pop (Cont.initializes?_activation hk)⟩
  | unwind _ hk => exact ⟨trivial, hl.2, hr.pop (Cont.initializes?_none hk)⟩
  | ended => exact ⟨hp, hl, hr⟩

/-- Where nothing is on the stack, nothing is being initialized. -/
theorem State.Nested.idle (hs : s.Nested env) (hK : s.stack = []) (id : ClassId) :
    s.store.statics.stateOf id ≠ .running := by
  intro hrun
  have hm := (hs.running.iff id).1 hrun
  rw [hK] at hm
  cases hm

end Steps

/-- In every state of every history initializations nest properly; between two operations none is
going on. -/
theorem nested_invariant {allowed : Act → Prop} :
    Invariant allowed (fun _ σ => ∀ id, σ.statics.stateOf id ≠ .running) State.Nested where
  boot := fun _ _ _ => nofun
  load := fun _ _ _ hσ => hσ
  track := fun _ hσ => hσ
  allocate := fun _ _ _ _ hσ => hσ
  start := fun _ _ h hσ => h.nested hσ
  step := fun _ h hs => h.nested hs
  stop := fun hr hs => hs.idle (State.outcome?_some hr).1

end ObjectMachine
