/-
The classes a state speaks of are registered. A control and a continuation hold classes by value;
they `Fits` a registry when each of these is registered at its own position, when a method goes with
the class that declares it, and when the initialization of static fields is at the declaration that
its slot says. A static area, too, belongs to a registered class. Every state of every history fits
the registry of its machine. A method that is about to be entered was selected from the table of a
registered class (`Listed`).
-/
import ObjectMachine.Proofs.Exec.History
import ObjectMachine.Proofs.Statics

namespace ObjectMachine

/-! ## Definitions -/

/-- The classes of a continuation are registered. -/
def Cont.Fits (r : Registry) : Cont → Prop
  | .initializing c | .ownStatics c | .thenCreate c _ | .thenRead c _ _ | .thenWrite c _ _ _ => r.Has c
  | .staticValue c slot type rest =>
    r.Has c ∧ ∃ decl, c.statics[slot]? = some decl ∧ decl.type = type ∧ rest = c.statics.drop (slot + 1)
  | .thenInvoke e c _ => e.isStatic = true ∧ r.class? e.declaring = some c
  | k => ∀ f, k.frame? = some f → r.Has f.cls

/-- The classes of a control are registered. -/
def Control.Fits (r : Registry) : Control → Prop
  | .eval f _ | .exec f => r.Has f.cls
  | .init c | .create c _ => r.Has c
  | .statics c slot rest => r.Has c ∧ slot ≤ c.statics.length ∧ rest = c.statics.drop slot
  | .enter e c receiver _ => r.class? e.declaring = some c ∧ (e.isStatic = true ↔ receiver = none)
  | .host _ _ _ | .answer _ | .raise _ => True

/-- Only registered classes have static areas. -/
def Store.Fits (r : Registry) (σ : Store) : Prop :=
  ∀ entry ∈ σ.statics.areas, ∃ c, r.class? entry.1 = some c

/-- Every class that a state speaks of is registered. -/
structure State.Fits (env : Env) (s : State) : Prop where
  control : s.control.Fits env.registry
  stack : ∀ k ∈ s.stack, k.Fits env.registry
  store : s.store.Fits env.registry

/-! ## Parts -/

section Parts

variable {env : Env} {f : Frame} {c : Control} {k : Cont} {K K' : List Cont}

theorem State.Fits.of_control {s : State} (hf : s.Fits env) (h : s.control = c) : c.Fits env.registry :=
  h ▸ hf.control

theorem Cont.IsCode.fits {r : Registry} (hk : k.IsCode f) : k.Fits r ↔ r.Has f.cls := by
  obtain ⟨hf, ha⟩ := hk
  cases k <;> simp_all [Cont.Fits, Cont.frame?]

theorem Cont.IsOperand.fits {r : Registry} (hk : k.IsOperand) : k.Fits r := by
  cases k with
  | unary op => intro f hf; cases hf
  | binaryRight op lhs => intro f hf; cases hf
  | _ => exact hk.elim

theorem Cont.Fits.frame {r : Registry} (h : k.Fits r) (hf : k.frame? = some f) : r.Has f.cls := by
  cases k <;> first | exact h f hf | cases hf

theorem State.Fits.frames {s : State} (h : s.Fits env) : ∀ f ∈ s.frames, env.registry.Has f.cls := by
  refine State.forall_frames (fun f hf => ?_) fun k hk f hf => (h.stack k hk).frame hf
  have hc := h.control
  cases hcontrol : s.control <;> rw [hcontrol] at hf hc <;> cases hf <;> exact hc

theorem Runs.fits {r : Registry} (h : Runs f c K K') (hc : c.Fits r) (hK : ∀ k ∈ K, k.Fits r) :
    r.Has f.cls ∧ ∀ k ∈ K', k.Fits r := by
  cases h with
  | eval hs => exact ⟨hs.cls ▸ hc, hK⟩
  | exec hs => exact ⟨hs.cls ▸ hc, hK⟩
  | resumed hk hs =>
    obtain ⟨hg, hK⟩ := List.forall_mem_cons.1 hK
    exact ⟨hs.cls ▸ hk.fits.1 hg, hK⟩

theorem Access.fits {u : UnitId} {cls : Class} (hwf : env.registry.Sound) (h : Access env u k cls) :
    env.registry.Has cls ∧ k.Fits env.registry := by
  cases h with
  | create hl =>
    have hc := hwf.has_of_lookup hl
    exact ⟨hc, hc⟩
  | invoke _ _ hs hd => exact ⟨hwf.has_of_class? hd, hs, hd⟩
  | read _ ho =>
    have hc := (hwf.findStatic?_some ho).1
    exact ⟨hc, hc⟩
  | write _ ho =>
    have hc := (hwf.findStatic?_some ho).1
    exact ⟨hc, hc⟩

/-- The first of the remaining declarations is the one at the slot. -/
theorem drop_cons {xs rest : List StaticDecl} {decl : StaticDecl} {slot : Nat}
    (h : xs.drop slot = decl :: rest) : xs[slot]? = some decl ∧ rest = xs.drop (slot + 1) := by
  have hget : xs[slot]? = some decl := by rw [← List.head?_drop, h]; rfl
  have htail : xs.drop (slot + 1) = rest := by rw [← List.tail_drop, h]; rfl
  exact ⟨hget, htail.symm⟩

theorem Store.Fits.extends {r r' : Registry} {σ : Store} (h : σ.Fits r) (hx : r.Extends r') :
    σ.Fits r' := fun entry hm => (h entry hm).imp fun _ hc => hx.class? hc

/-- Changing the area of a registered class. -/
theorem Store.Fits.setArea {r : Registry} {σ : Store} (h : σ.Fits r) {c : Class} (hc : r.Has c)
    (a : StaticArea) : Store.Fits r { σ with statics := σ.statics.setArea c a } := by
  intro entry hm
  rcases Statics.mem_put hm with rfl | hm
  · exact ⟨c, hc⟩
  · exact h entry hm

end Parts

/-! ## Runs -/

section Runs

variable {env : Env} {s s' : State}

/-- Where an operation starts. -/
theorem Starts.fits {op : Operation} {σ : Store} (hwf : env.registry.Sound) (h : Starts env op σ s)
    (hσ : σ.Fits env.registry) : s.Fits env := by
  cases h with
  | failed => exact ⟨trivial, by simp, hσ⟩
  | access hk =>
    obtain ⟨hc, hk⟩ := hk.fits hwf
    exact ⟨hc, by simpa using hk, hσ⟩
  | virtual hsel => exact ⟨⟨hsel.registered, by simp [hsel.onInstance]⟩, by simp, hσ⟩
  | prepare hl => exact ⟨hwf.has_of_lookup hl, by simp, hσ⟩
  | eval _ hl => exact ⟨hwf.has_of_lookup hl, by simp, hσ⟩
  | run _ hl => exact ⟨hwf.has_of_lookup hl, by simp, hσ⟩

/-- A step speaks of no class that is not registered. -/
theorem Transition.fits (hwf : env.registry.Sound) (h : Transition env s s') (hs : s.Fits env) :
    s'.Fits env := by
  obtain ⟨hc, hK, hσ⟩ := hs
  cases h with
  -- the code of a frame
  | go h =>
    obtain ⟨hf, hK⟩ := h.fits hc hK
    exact ⟨hf, hK, hσ⟩
  | answer h | fail h | superOverflow h => exact ⟨trivial, (h.fits hc hK).2, hσ⟩
  | evaluate h hk =>
    obtain ⟨hf, hK⟩ := h.fits hc hK
    refine ⟨hf, List.forall_mem_cons.2 ⟨?_, hK⟩, hσ⟩
    rcases hk with hk | hk
    · exact hk.fits
    · exact hk.fits.2 hf
  | access h hk =>
    obtain ⟨hc, hk⟩ := hk.fits hwf
    exact ⟨hc, List.forall_mem_cons.2 ⟨hk, (h.fits ‹_› hK).2⟩, hσ⟩
  | accessWrite hk =>
    -- what goes on after the write is code of the same frame
    obtain ⟨hf, hK⟩ := List.forall_mem_cons.1 hK
    obtain ⟨hc, hk⟩ := hk.fits hwf
    exact ⟨hc, List.forall_mem_cons.2 ⟨hk, List.forall_mem_cons.2 ⟨hf, hK⟩⟩, hσ⟩
  | failWrite =>
    obtain ⟨hf, hK⟩ := List.forall_mem_cons.1 hK
    exact ⟨trivial, List.forall_mem_cons.2 ⟨hf, hK⟩, hσ⟩
  | callVirtual h hsel =>
    exact ⟨⟨hsel.registered, by simp [hsel.onInstance]⟩, (h.fits hc hK).2, hσ⟩
  | callSuper h hsel =>
    exact ⟨⟨hsel.registered, by simp [hsel.onInstance]⟩, (h.fits hc hK).2, hσ⟩
  | enterSuper h _ hp =>
    obtain ⟨hf, hK⟩ := h.fits hc hK
    have hk : (Cont.superDone _).Fits env.registry := fun g hg => by cases hg; exact hf
    exact ⟨(hwf.parent_before hf hp).1, List.forall_mem_cons.2 ⟨hk, hK⟩, hσ⟩
  | putField => exact ⟨hK _ List.mem_cons_self _ rfl, (List.forall_mem_cons.1 hK).2, hσ⟩
  -- operands, answers and errors that pass on
  | operate | operateFail | give | giveFail | constructed | hostReturned | staticFail | blockDone
  | thenRead | thenReadFail | thenWriteFail | unwindActivation | unwind =>
    exact ⟨trivial, (List.forall_mem_cons.1 hK).2, hσ⟩
  | superReturned => exact ⟨hK _ List.mem_cons_self _ rfl, (List.forall_mem_cons.1 hK).2, hσ⟩
  | enterOverflow | hostReply | hostFail | createFail | createOverflow | initReady | initFailed
  | noBlock => exact ⟨trivial, hK, hσ⟩
  | ended => exact ⟨hc, hK, hσ⟩
  -- bodies and host functions
  | enterBody =>
    exact ⟨hwf.has_of_class? hc.1, List.forall_mem_cons.2 ⟨nofun, hK⟩, hσ⟩
  | enterHost => exact ⟨trivial, List.forall_mem_cons.2 ⟨nofun, hK⟩, hσ⟩
  | hostService hst => exact ⟨trivial, hK, by unfold Store.Fits; rw [hst]; exact hσ⟩
  | create => exact ⟨hc, List.forall_mem_cons.2 ⟨nofun, hK⟩, hσ⟩
  -- static initialization
  | initParent _ hp =>
    exact ⟨(hwf.parent_before hc hp).1,
      List.forall_mem_cons.2 ⟨hc, List.forall_mem_cons.2 ⟨hc, hK⟩⟩, hσ.setArea hc _⟩
  | initRoot =>
    exact ⟨⟨hc, Nat.zero_le _, rfl⟩, List.forall_mem_cons.2 ⟨hc, hK⟩, hσ.setArea hc _⟩
  | parentDone =>
    obtain ⟨hc, hK⟩ := List.forall_mem_cons.1 hK
    exact ⟨⟨hc, Nat.zero_le _, rfl⟩, hK, hσ⟩
  | skipStatic =>
    obtain ⟨hc, hle, hrest⟩ := hc
    obtain ⟨hget, hdrop⟩ := drop_cons hrest.symm
    exact ⟨⟨hc, (List.getElem?_eq_some_iff.1 hget).1, hdrop⟩, hK, hσ⟩
  | evalStatic =>
    obtain ⟨hc, hle, hrest⟩ := hc
    obtain ⟨hget, hdrop⟩ := drop_cons hrest.symm
    exact ⟨hc, List.forall_mem_cons.2 ⟨⟨hc, _, hget, rfl, hdrop⟩, hK⟩, hσ⟩
  | storeStatic =>
    obtain ⟨⟨hc, decl, hget, -, hdrop⟩, hK⟩ := List.forall_mem_cons.1 hK
    exact ⟨⟨hc, (List.getElem?_eq_some_iff.1 hget).1, hdrop⟩, hK, hσ.setArea hc _⟩
  | enterBlock => exact ⟨hc.1, List.forall_mem_cons.2 ⟨nofun, hK⟩, hσ⟩
  | initDone =>
    obtain ⟨hc, hK⟩ := List.forall_mem_cons.1 hK
    exact ⟨trivial, hK, hσ.setArea hc _⟩
  | unwindInit =>
    obtain ⟨hc, hK⟩ := List.forall_mem_cons.1 hK
    exact ⟨trivial, hK, hσ.setArea hc _⟩
  -- accesses to an initialized class
  | thenCreate =>
    obtain ⟨hc, hK⟩ := List.forall_mem_cons.1 hK
    exact ⟨hc, hK, hσ⟩
  | thenInvoke =>
    obtain ⟨⟨hs, hd⟩, hK⟩ := List.forall_mem_cons.1 hK
    exact ⟨⟨hd, by simp [hs]⟩, hK, hσ⟩
  | thenWrite =>
    obtain ⟨hc, hK⟩ := List.forall_mem_cons.1 hK
    exact ⟨trivial, hK, hσ.setArea hc _⟩

end Runs

/-- The classes of every state of every history are registered. -/
theorem fits_invariant {allowed : Act → Prop} : Invariant allowed Store.Fits State.Fits where
  boot := by intro sink clock entry hm; cases hm
  load := fun _ _ hx hσ => hσ.extends hx
  track := fun _ hσ => hσ
  allocate := fun _ _ _ _ hσ => hσ
  start := fun hwf _ h hσ => h.fits hwf hσ
  step := fun hwf h hs => h.fits hwf hs
  stop := fun _ hs => hs.store

/-! ## Methods -/

/-- The method is in the table of a registered class. -/
def Registry.Lists (r : Registry) (e : Method) : Prop := ∃ c, r.Has c ∧ e ∈ c.methods.entries

/-- The method that is about to be entered. -/
def Control.method? : Control → Option Method
  | .enter e _ _ _ => some e
  | _ => none

/-- The method whose call waits for the initialization of its class. -/
def Cont.method? : Cont → Option Method
  | .thenInvoke e _ _ => some e
  | _ => none

/-- The methods that are called are in the tables of registered classes. -/
structure State.Listed (env : Env) (s : State) : Prop where
  control : ∀ e, s.control.method? = some e → env.registry.Lists e
  stack : ∀ k ∈ s.stack, ∀ e, k.method? = some e → env.registry.Lists e

section Methods

variable {env : Env} {s s' : State}

theorem Access.lists {u : UnitId} {k : Cont} {c : Class} (hwf : env.registry.Sound) (h : Access env u k c) :
    ∀ e, k.method? = some e → env.registry.Lists e := by
  intro e he
  cases h with
  | invoke hl hsel =>
    cases he
    exact ⟨_, hwf.has_of_lookup hl, (Class.select_wants hsel).2⟩
  | create | read | write => cases he

theorem SelectsVirtual.lists {σ : Store} {ref : Handle} {args : List Value} {e : Method} {c : Class}
    (hwf : env.registry.Sound) (h : SelectsVirtual env σ ref args e c) : env.registry.Lists e := by
  obtain ⟨own, name, hclass, hsel⟩ := h.own
  obtain ⟨o, -, hown⟩ := Option.bind_eq_some_iff.1 hclass
  exact ⟨own, hwf.has_of_class? hown, (Class.select_wants hsel).2⟩

theorem SelectsSuper.lists {f : Frame} {ref : Handle} {args : List Value} {e : Method} {c : Class}
    (hwf : env.registry.Sound) (h : SelectsSuper env f ref args e c) : env.registry.Lists e := by
  obtain ⟨p, name, hparent, hsel⟩ := h.above
  obtain ⟨id, -, hp⟩ := Option.bind_eq_some_iff.1 hparent
  exact ⟨p, hwf.has_of_class? hp, (Class.select_wants hsel).2⟩

theorem Starts.listed {op : Operation} {σ : Store} (hwf : env.registry.Sound) (h : Starts env op σ s) :
    s.Listed env := by
  cases h with
  | access hk =>
    refine ⟨nofun, fun k hm => ?_⟩
    rw [List.mem_singleton.1 hm]
    exact hk.lists hwf
  | virtual hsel =>
    refine ⟨fun e he => ?_, by simp⟩
    cases he
    exact hsel.lists hwf
  | failed | prepare | eval | run => exact ⟨nofun, by simp⟩

theorem Transition.listed (hwf : env.registry.Sound) (h : Transition env s s') (hs : s.Listed env) :
    s'.Listed env := by
  obtain ⟨hc, hK⟩ := hs
  -- most of what a step goes on with, and puts on the stack, calls no method
  have hnone : ∀ e, none = some e → env.registry.Lists e := nofun
  have hplain {k : Cont} (hk : k.method? = none) : ∀ e, k.method? = some e → env.registry.Lists e :=
    hk ▸ hnone
  have hcode {k : Cont} {f : Frame} (hk : k.IsOperand ∨ k.IsCode f) : k.method? = none := by
    rcases hk with hk | ⟨hf, -⟩
    · cases k <;> first | rfl | exact hk.elim
    · cases k <;> first | rfl | cases hf
  cases h with
  | go h | answer h | fail h | superOverflow h => exact ⟨hnone, fun k hk => hK k (h.mem hk)⟩
  | evaluate h hk =>
    exact ⟨hnone, List.forall_mem_cons.2 ⟨hplain (hcode hk), fun k hk => hK k (h.mem hk)⟩⟩
  | access h hk => exact ⟨hnone, List.forall_mem_cons.2 ⟨hk.lists hwf, fun k hk => hK k (h.mem hk)⟩⟩
  | accessWrite hk =>
    have hrest := (List.forall_mem_cons.1 hK).2
    exact ⟨hnone, List.forall_mem_cons.2 ⟨hk.lists hwf, List.forall_mem_cons.2 ⟨hnone, hrest⟩⟩⟩
  | failWrite => exact ⟨hnone, List.forall_mem_cons.2 ⟨hnone, (List.forall_mem_cons.1 hK).2⟩⟩
  | callVirtual h hsel =>
    refine ⟨fun e he => ?_, fun k hk => hK k (h.mem hk)⟩
    cases he
    exact hsel.lists hwf
  | callSuper h hsel =>
    refine ⟨fun e he => ?_, fun k hk => hK k (h.mem hk)⟩
    cases he
    exact hsel.lists hwf
  | enterSuper h =>
    exact ⟨hnone, List.forall_mem_cons.2 ⟨hnone, fun k hk => hK k (h.mem hk)⟩⟩
  | thenInvoke =>
    obtain ⟨hk, hK⟩ := List.forall_mem_cons.1 hK
    exact ⟨fun e he => hk e he, hK⟩
  | enterBody | enterHost | create | evalStatic | enterBlock | initRoot =>
    exact ⟨hnone, List.forall_mem_cons.2 ⟨hnone, hK⟩⟩
  | initParent => exact ⟨hnone, List.forall_mem_cons.2 ⟨hnone, List.forall_mem_cons.2 ⟨hnone, hK⟩⟩⟩
  | enterOverflow | hostService | hostReply | hostFail | createOverflow | createFail | initReady
  | initFailed | skipStatic | noBlock => exact ⟨hnone, hK⟩
  | ended => exact ⟨hc, hK⟩
  | _ => exact ⟨hnone, (List.forall_mem_cons.1 hK).2⟩

end Methods

/-- Every method that is called in a history is in the table of a registered class. -/
theorem listed_invariant {allowed : Act → Prop} : Invariant allowed (fun _ _ => True) State.Listed where
  boot := fun _ _ => trivial
  load := fun _ _ _ _ => trivial
  track := fun _ _ => trivial
  allocate := fun _ _ _ _ _ => trivial
  start := fun hwf _ h _ => h.listed hwf
  step := fun hwf h hs => h.listed hwf hs
  stop := fun _ _ => trivial

end ObjectMachine
