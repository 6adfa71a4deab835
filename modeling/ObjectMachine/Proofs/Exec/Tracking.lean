/-
What the collector cannot be asked. Beside its objects a heap keeps the table of those it tracks, the
length at which an allocation sweeps this table, the length made known last and a count of collections,
and an option says whether the hint to collect sweeps. Only a sweep, an allocation and a collection look
at these, and what they change is the table, these two lengths and the count again. The one thing that
gets out is the number of entries swept, which a host function that asks for a collection is told; the
bundled one does not look at it.

So the code of a program does not notice `retrack`, which replaces the tracking and leaves the rest of a
state alone, and two machines that differ in their tracking run in lockstep.
-/
import ObjectMachine.Proofs.Exec.Lockstep
import ObjectMachine.Proofs.Library.Bundled

namespace ObjectMachine

/-! ## Definitions -/

/-- What a heap keeps for its collector. -/
structure Heap.Tracking where
  table : Array Handle
  threshold : Nat
  published : Nat
  collections : Nat

def Heap.tracking (h : Heap) : Heap.Tracking := ⟨h.table, h.threshold, h.published, h.collections⟩

/-- The same objects under another tracking. -/
def Heap.retrack (h : Heap) (t : Heap.Tracking) : Heap :=
  { h with
    table := t.table, threshold := t.threshold, published := t.published, collections := t.collections }

def Store.retrack (σ : Store) (t : Heap.Tracking) : Store := { σ with heap := σ.heap.retrack t }

def State.retrack (s : State) (t : Heap.Tracking) : State := { s with store := s.store.retrack t }

/-- The environment with another choice of whether the hint to collect sweeps. -/
def Env.withHint (env : Env) (hint : Bool) : Env :=
  { env with options := { env.options with collectOnHint := hint } }

/-- The machine with another tracking, and another choice of whether the hint to collect sweeps. -/
def Machine.retrack (m : Machine) (t : Heap.Tracking) (hint : Bool) : Machine :=
  { m with options := { m.options with collectOnHint := hint }, store := m.store.retrack t }

/-- The program goes on in the same way whatever number of entries it is told was swept. -/
def HostProgram.IgnoresSweeps : HostProgram → Prop
  | .reply _ => True
  | .write _ _ next => ∀ outcome, (next outcome).IgnoresSweeps
  | .collect next => (∀ swept, next swept = next 0) ∧ ∀ swept, (next swept).IgnoresSweeps
  | .clock next => ∀ now, (next now).IgnoresSweeps

/-- The host function that a state is in the middle of ignores what sweeps remove. -/
def State.IgnoresSweeps (s : State) : Prop :=
  ∀ e args p, s.control = .host e args p → p.IgnoresSweeps

/-! ## Bundled host functions -/

/-- The bundled function that hints to collect does not ask what this has brought. -/
theorem Library.ignoresSweeps {key : BindingKey} {f : HostFunction} (h : natives.get? key = some f)
    (view : HostView) (args : List Value) : (f view args).IgnoresSweeps := by
  rcases bound h with rfl | rfl | rfl | rfl
  · rcases println_cases view args with ⟨r, hr⟩ | ⟨_, _, _, hp, hok, herror⟩
    · rw [hr]
      trivial
    · rw [hp]
      rintro (refusal | ⟨⟩)
      · rw [herror]
        trivial
      · rw [hok]
        trivial
  · exact ⟨fun _ => rfl, fun _ => trivial⟩
  · exact fun _ => trivial
  · obtain ⟨r, hr⟩ := readLong_reply view args
    rw [hr]
    trivial

/-! ## Heaps -/

namespace Heap

/-- Heaps with the same objects differ in their tracking only. -/
theorem retrack_tracking {h h' : Heap} (hobj : h'.objects = h.objects) : h.retrack h'.tracking = h' := by
  cases h
  cases h'
  cases hobj
  rfl

end Heap

/-! ## Steps -/

/-- Code that neither allocates nor runs a host function does not notice the tracking. -/
theorem unnoticed_retrack (env : Env) (hint : Bool) (t : Heap.Tracking) :
    Unnoticed env (env.withHint hint) (·.retrack t) where
  registry := rfl
  maxCallDepth := rfl
  objects := fun _ => rfl
  statics := fun _ => rfl
  setStatics := fun _ _ => rfl
  setCell := fun _ _ _ _ => rfl

namespace State

section Steps

variable {env : Env} {s : State} {t : Heap.Tracking} {hint : Bool}

@[simp] theorem retrack_control : (s.retrack t).control = s.control := rfl

@[simp] theorem retrack_outcome? : (s.retrack t).outcome? = s.outcome? := rfl

/-- An allocation may sweep under one tracking and not under the other. -/
theorem makeRoom_retrack (env : Env) (s : State) (t : Heap.Tracking) (hint : Bool) :
    ∃ t', (s.retrack t).makeRoom (env.withHint hint) = (s.makeRoom env).retrack t' := by
  obtain ⟨heap, hobj, heq⟩ := makeRoom_eq env s
  obtain ⟨heap', hobj', heq'⟩ := makeRoom_eq (env.withHint hint) (s.retrack t)
  refine ⟨heap'.tracking, ?_⟩
  rw [heq, heq', ← Heap.retrack_tracking (hobj'.trans hobj.symm)]
  rfl

theorem addObject_retrack (s : State) (t : Heap.Tracking) (c : Class) :
    (s.retrack t).addObject c =
      (s.addObject c).retrack
        { t with table := t.table.push s.store.heap.next, published := t.table.size + 1 } := by
  simp [addObject, retrack, Store.retrack, Heap.retrack, Heap.add, Heap.next]

theorem allocate_retrack (c : Class) (args : List Value) :
    ∃ t', (s.retrack t).allocate (env.withHint hint) c args = (s.allocate env c args).retrack t' := by
  obtain ⟨t', hroom⟩ := makeRoom_retrack env s t hint
  unfold allocate
  cases c.selectConstructor args with
  | error e => exact ⟨t, rfl⟩
  | ok k =>
    refine ⟨{ t' with
      table := t'.table.push (s.makeRoom env).store.heap.next, published := t'.table.size + 1 }, ?_⟩
    simp only [proceed, hroom, addObject_retrack]
    exact activate_change (unnoticed_retrack env hint _) _ _

theorem hostStep_retrack (e : Method) (args : List Value) {p : HostProgram} (hp : p.IgnoresSweeps) :
    ∃ t', (s.retrack t).hostStep (env.withHint hint) e args p = (s.hostStep env e args p).retrack t' := by
  cases p with
  | reply r => exact ⟨t, reply_change (·.retrack t) e args r⟩
  | write stream v next => exact ⟨t, rfl⟩
  | clock next => exact ⟨t, rfl⟩
  | collect next =>
    obtain ⟨swept, heap, hobj, heq⟩ := hostStep_collect env s e args next
    obtain ⟨swept', heap', hobj', heq'⟩ := hostStep_collect (env.withHint hint) (s.retrack t) e args next
    refine ⟨heap'.tracking, ?_⟩
    rw [heq, heq', ← Heap.retrack_tracking (hobj'.trans hobj.symm), hp.1 swept, hp.1 swept']
    rfl

/-- One step: the tracking changes in its own way, and everything else as it would have. -/
theorem step_retrack (hs : s.IgnoresSweeps) :
    ∃ t', (s.retrack t).step (env.withHint hint) = (s.step env).retrack t' := by
  by_cases hcreate : ∃ c args, s.control = .create c args
  · obtain ⟨c, args, hc⟩ := hcreate
    simp only [step, retrack_control, hc]
    exact allocate_retrack c args
  · by_cases hhost : ∃ e args p, s.control = .host e args p
    · obtain ⟨e, args, p, hc⟩ := hhost
      simp only [step, retrack_control, hc]
      exact hostStep_retrack e args (hs e args p hc)
    · -- the tracking stays as it is
      push Not at hcreate hhost
      exact ⟨t, step_change (unnoticed_retrack env hint t) hcreate hhost⟩

theorem hostStep_ignoresSweeps (e : Method) (args : List Value) {p : HostProgram} (hp : p.IgnoresSweeps) :
    (s.hostStep env e args p).IgnoresSweeps := by
  cases p with
  | reply r =>
    unfold hostStep proceed
    dsimp only
    split <;> exact nofun
  | write stream v next =>
    rintro _ _ _ ⟨⟩
    exact hp _
  | clock next =>
    rintro _ _ _ ⟨⟩
    exact hp _
  | collect next =>
    obtain ⟨swept, heap, -, heq⟩ := hostStep_collect env s e args next
    rw [heq]
    rintro _ _ _ ⟨⟩
    exact hp.2 swept

/-- Host functions that are entered are bundled ones, and these go on as they began. -/
theorem step_ignoresSweeps (hosts : env.registry.BundledHosts) (hlist : s.Listed env)
    (hs : s.IgnoresSweeps) : (s.step env).IgnoresSweeps := by
  refine step_host_keeps hlist (fun e f he hi view args => ?_) (fun e args p p' hp hc => ?_) hs
  · obtain ⟨key, hkey⟩ := hosts e he f hi
    exact Library.ignoresSweeps hkey view args
  · exact hostStep_ignoresSweeps e args hp e args p' hc

end Steps

/-! ## Runs -/

/-- A run under another tracking takes the same steps and comes to the same end. -/
theorem finish_retrack {env : Env} {hint : Bool} (hwf : env.registry.Sound)
    (hosts : env.registry.BundledHosts) (fuel : Nat) :
    ∀ {s : State} {t : Heap.Tracking}, s.Listed env → s.IgnoresSweeps →
      ∃ t', (s.retrack t).finish (env.withHint hint) fuel =
        (s.finish env fuel).map fun ended => (ended.1, ended.2.retrack t') := by
  induction fuel with
  | zero =>
    intro s t _ _
    refine ⟨t, ?_⟩
    simp only [finish, retrack_outcome?, Option.map_map]
    rfl
  | succ fuel ih =>
    intro s t hlist hs
    unfold finish
    rw [retrack_outcome?]
    cases hr : s.outcome? with
    | some r => exact ⟨t, rfl⟩
    | none =>
      have hlockstep : ∃ t', (s.retrack t).step (env.withHint hint) = (s.step env).retrack t' := step_retrack hs
      obtain ⟨t', hstep⟩ := hlockstep
      dsimp only
      rw [hstep]
      exact ih ((step_transition env s).listed hwf hlist) (step_ignoresSweeps hosts hlist hs)

end State

/-! ## Operations -/

theorem Operation.start_retrack (op : Operation) (env : Env) (σ : Store) (t : Heap.Tracking) (hint : Bool) :
    op.start (env.withHint hint) (σ.retrack t) = (op.start env σ).retrack t :=
  op.start_change (unnoticed_retrack env hint t) σ

/-- No operation starts in the middle of a host function. -/
theorem Starts.ignoresSweeps {env : Env} {op : Operation} {σ : Store} {s : State} (h : Starts env op σ s) :
    s.IgnoresSweeps := fun e args p hc => absurd hc (h.ne_host e args p)

/-- Garbage tracking is invisible to programs. Take any machine whose native methods are bundled ones, and
the same machine with any other tracking table, threshold, published length and count of collections, and
any choice of whether the hint to collect sweeps. An operation comes to its end on both or on neither, in as
many steps; it ends with the same result or error, and leaves machines behind that again differ in nothing
else: the objects with their cells, the static areas, the lines written and the clock are the same. -/
theorem perform_retrack {m : Machine} {past : List State} (h : History (fun _ => True) m past)
    (hosts : m.registry.BundledHosts) (t : Heap.Tracking) (hint : Bool) (fuel : Nat) (op : Operation) :
    ∃ t', (m.retrack t hint).perform fuel op =
      (m.perform fuel op).map fun ended => (ended.1, ended.2.retrack t' hint) := by
  have hstart := start_starts m.env op m.store
  have hrun : ∃ t', ((op.start m.env m.store).retrack t).finish (m.env.withHint hint) fuel =
      ((op.start m.env m.store).finish m.env fuel).map fun ended => (ended.1, ended.2.retrack t') :=
    State.finish_retrack h.sound hosts fuel (hstart.listed h.sound) hstart.ignoresSweeps
  obtain ⟨t', hfinish⟩ := hrun
  refine ⟨t', ?_⟩
  show (State.finish (m.env.withHint hint) fuel (op.start (m.env.withHint hint) (m.store.retrack t))).map _ = _
  rw [op.start_retrack, hfinish]
  show _ = ((State.finish m.env fuel (op.start m.env m.store)).map _).map _
  rw [Option.map_map, Option.map_map]
  rfl

/-- A program that allocates objects, asks for a collection and prints what is left. -/
def litter : CompilationUnit :=
  { name := "litter"
    entry := some "Litter"
    classes := [
      { name := "Litter"
        methods := [.static "main" [] .int { maxLocals := 1, code := [
          .store 0 (.create "Litter" []),
          .expr (.create "Litter" []),
          .expr (.invokeStatic "System" "gc" []),
          .expr (.invokeVirtual (.getStatic "System" "out") "println" [.slot 0]),
          .giveBack (some (.ofInt 7))] }] }] }

/-- One machine collects on the hint, as its count shows; the other one starts with a table that knows of
no object, sweeps at every allocation and ignores the hint. -/
theorem perform_retrack_litter : ∃ m past, History (fun _ => True) m past ∧ m.registry.BundledHosts ∧
    ∃ m', m.perform 120 (.main 1 "Litter") = some (.ok (some (.int 7)), m') ∧
      m'.store.heap.collections = 1 ∧ m'.store.sink.lines = #[(.out, "Litter@1")] ∧
    ∃ t', (m.retrack ⟨#[], 0, 5, 9⟩ false).perform 120 (.main 1 "Litter") =
      some (.ok (some (.int 7)), m'.retrack t' false) := by
  let m : Machine := (Machine.load (.boot {} {}) litter).2
  have hboot : History (fun _ => True) (.boot {} {}) [] := .boot
  have h : History (fun _ => True) m _ := hboot.act trivial .load
  have hbundled : (Machine.boot {} {}).registry.WF fun _ natives => natives = Library.natives := Library.registry_wf
  have hosts : m.registry.BundledHosts := (Machine.load_wf hbundled (fun _ _ => rfl) litter).1.bundledHosts
  have hend : (m.moment (.main 1 "Litter") 120).outcome? = some (.ok (some (.int 7))) := by decide +kernel
  have hp := Machine.perform_of_outcome? le_rfl hend
  obtain ⟨t', hother⟩ := perform_retrack h hosts ⟨#[], 0, 5, 9⟩ false 120 (.main 1 "Litter")
  rw [hp] at hother
  exact ⟨m, _, h, hosts, _, hp, by decide +kernel, by decide +kernel, t', hother⟩

end ObjectMachine
