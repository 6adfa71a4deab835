/-
The bundled classes in a history. They are registered when a machine is booted, before a host can
bind anything, and stay where they are; so their native methods run the bundled host functions,
whatever the host binds later and whatever classes are loaded above them.
-/
import ObjectMachine.Proofs.Exec.Registered
import ObjectMachine.Proofs.Registry.Methods

namespace ObjectMachine

theorem Bindings.get?_mem {t : Bindings} {key : BindingKey} {f : HostFunction}
    (h : t.get? key = some f) : (key, f) ∈ t.bindings := by
  obtain ⟨b, hb, rfl⟩ := Option.map_eq_some_iff.1 h
  have hkey : b.1 = key := by simpa using List.find?_some hb
  exact hkey ▸ List.mem_of_find?_eq_some hb

/-- The class is the bundled one of a source, and its name stands for it. -/
structure Registry.Bundles (r : Registry) (source : ClassDecl) (c : Class) : Prop where
  has : r.Has c
  lookup : r.lookup systemUnit source.name = .ok c
  source_eq : c.source = source
  scope : c.scope = systemUnit
  bundled : c.id < Library.registry.size

/-- Every native method of a registered class is bound to a bundled host function. -/
def Registry.BundledHosts (r : Registry) : Prop :=
  ∀ e, r.Lists e → ∀ f, e.impl = .native f → ∃ key, Library.natives.get? key = some f

/-- What printing on a stream fails with when the sink refuses the line. -/
def Library.refused (stream : Stream) (refusal : String) : String :=
  "write to " ++ stream.name ++ " failed: " ++ refusal

/-- Classes at the positions of the bundled ones came in with the bundled host functions. -/
abbrev Library.Came (id : ClassId) (natives : Bindings) : Prop :=
  id < Library.registry.size → natives = Library.natives

namespace Library

theorem registry_wf : Library.registry.WF fun _ natives => natives = Library.natives := by
  have hempty : Registry.empty.WF fun _ natives => natives = Library.natives := Registry.empty_wf
  exact (Registry.registerUnit_wf_extends hempty fun _ _ => rfl).1

/-- The bundled classes are registered when a machine is booted. -/
theorem registered {source : ClassDecl} (hs : source ∈ classes) : ∃ b, registry.Bundles source b := by
  have h : ∀ source ∈ classes, (registry.lookup systemUnit source.name).toOption.map
      (fun b => (b.source, b.scope)) = some (source, systemUnit) := by decide +kernel
  obtain ⟨b, hb, heq⟩ := Option.map_eq_some_iff.1 (h source hs)
  cases hl : registry.lookup systemUnit source.name with
  | error e => rw [hl] at hb; cases hb
  | ok c =>
    rw [hl] at hb
    cases hb
    obtain ⟨hsource, hscope⟩ := Prod.mk.inj heq
    have hhas := registry_wf.has_of_lookup hl
    exact ⟨b, hhas, hl, hsource, hscope, Registry.class?_lt hhas⟩

/-- The functions that the bundled table binds. -/
theorem bound {key : BindingKey} {f : HostFunction} (h : natives.get? key = some f) :
    f = println ∨ f = gc ∨ f = readClock ∨ f = readLong := by
  have hmem := Bindings.get?_mem h
  simp [natives, printedTypes, Bindings.bind, Bindings.put] at hmem
  tauto

/-- Printing fails or comes to a line, which is all it does. -/
theorem println_cases (view : HostView) (args : List Value) : (∃ r, println view args = .reply r) ∨
    ∃ stream v next, println view args = .write stream v next ∧ next (.ok ()) = .reply .void ∧
      ∀ refusal, next (.error refusal) = fail (refused stream refusal) := by
  unfold println
  cases ArgType.reference.arg args 0 with
  | error fault => exact .inl ⟨_, rfl⟩
  | ok ref =>
    simp only [HostProgram.withArg]
    split
    · exact .inl ⟨_, rfl⟩
    · cases ArgType.any.arg args 1 with
      | error fault => exact .inl ⟨_, rfl⟩
      | ok v => exact .inr ⟨_, _, _, rfl, rfl, fun _ => rfl⟩

theorem readLong_reply (view : HostView) (args : List Value) : ∃ r, readLong view args = .reply r := by
  unfold readLong
  cases ArgType.text.optional.arg args 0 with
  | error fault => exact ⟨_, rfl⟩
  | ok text? =>
    cases text? with
    | none => exact ⟨_, rfl⟩
    | some text =>
      simp only [HostProgram.withArg]
      split <;> exact ⟨_, rfl⟩

/-- Classes that came in with the bundled host functions call what these are bound to. -/
theorem listed_bound {r : Registry} (hwf : r.WF fun _ natives => natives = Library.natives) {e : Method}
    {f : HostFunction} (he : r.Lists e) (hf : e.impl = .native f) : ∃ key, natives.get? key = some f := by
  obtain ⟨c, hc, hm⟩ := he
  obtain ⟨owner, d, natives, -, -, -, rfl, hentry⟩ := hwf.entry_origin hc hm
  cases hd : d.body with
  | managed body =>
    rw [hentry.managed body hd] at hf
    cases hf
  | native =>
    obtain ⟨g, hg, hi⟩ := hentry.native hd
    rw [hi] at hf
    cases hf
    exact ⟨_, hg⟩

/-- Classes that came in with the bundled host functions call no others. -/
theorem listed_native {r : Registry} (hwf : r.WF fun _ natives => natives = Library.natives) {e : Method}
    {f : HostFunction} (he : r.Lists e) (hf : e.impl = .native f) :
    f = println ∨ f = gc ∨ f = readClock ∨ f = readLong := by
  obtain ⟨key, hkey⟩ := listed_bound hwf he hf
  exact bound hkey

end Library

/-- A unit that is loaded while nothing but the bundled functions is bound calls no others. -/
theorem Registry.WF.bundledHosts {r : Registry} (h : r.WF fun _ natives => natives = Library.natives) :
    r.BundledHosts := fun _ he _ hf => Library.listed_bound h he hf

/-- A unit is loaded with the host functions that are bound at the time. -/
theorem Machine.load_wf {m : Machine} {came : ClassId → Bindings → Prop} (hwf : m.registry.WF came)
    (hcame : ∀ i, m.registry.size ≤ i → came i m.natives) (unit : CompilationUnit) :
    (m.load unit).2.registry.WF came ∧ m.registry.Extends (m.load unit).2.registry := by
  have ho : (m.registry.openUnit unit.name).2.WF came := hwf.openUnit unit.name
  exact Registry.registerUnit_wf_extends ho hcame

/-- In every history the bundled classes are registered at their positions, with the bundled host
functions. -/
theorem History.library {allowed : Act → Prop} {m : Machine} {past : List State}
    (h : History allowed m past) : Library.registry.Extends m.registry ∧ m.registry.WF Library.Came := by
  induction h with
  | boot => exact ⟨.refl _, Library.registry_wf.mono fun _ _ _ hn => fun _ => hn⟩
  | @act m past a m' seen _ _ hd ih =>
    cases hd with
    | @load unit =>
      obtain ⟨hx, hwf⟩ := ih
      have hcame : ∀ i, m.registry.size ≤ i → Library.Came i m.natives := fun i hi hlt =>
        absurd (hlt.trans_le hx.size_le) (Nat.not_lt.2 hi)
      obtain ⟨hwf', hx'⟩ := m.load_wf hwf hcame unit
      exact ⟨hx.trans hx', hwf'⟩
    | perform hp => rw [(Machine.perform_some hp).2]; exact ih
    | _ => exact ih

/-- In every history the bundled classes are there, under their names. -/
theorem History.bundles {allowed : Act → Prop} {m : Machine} {past : List State}
    (h : History allowed m past) {source : ClassDecl} {b : Class}
    (hb : Library.registry.Bundles source b) : m.registry.Bundles source b := by
  obtain ⟨hx, hwf⟩ := h.library
  have hname : b.name = source.name := by rw [Class.name, hb.source_eq]
  have hfind := hwf.find?_iff.2 ⟨hx.has hb.has, hb.scope, hname⟩
  refine ⟨hx.has hb.has, ?_, hb.source_eq, hb.scope, hb.bundled⟩
  unfold Registry.lookup Registry.get?
  rw [hfind]
  rfl

/-- A class that a bundled name stands for is the bundled one. -/
theorem History.bundled {allowed : Act → Prop} {m : Machine} {past : List State}
    (h : History allowed m past) {source : ClassDecl} (hs : source ∈ Library.classes) {c : Class}
    (hc : m.registry.lookup systemUnit source.name = .ok c) : Library.registry.Bundles source c := by
  obtain ⟨b, hb⟩ := Library.registered hs
  cases (h.bundles hb).lookup.symm.trans hc
  exact hb

/-- A call of a method that a bundled class declares selects it; a native one runs what the bundled table
binds. -/
theorem History.selects_declared {allowed : Act → Prop} {m : Machine} {past : List State}
    (h : History allowed m past) {source : ClassDecl} {c : Class} (hc : m.registry.Bundles source c)
    {name : String} {args : List Value} {key : Signature} (hargs : Signature.ofArgs? name args = some key)
    {d : MethodDecl} (hd : source.methods.find? (·.signature = key) = some d) {kind : CallKind}
    (hkind : d.isStatic = true ↔ kind = .static) :
    ∃ e, c.select kind name args = .ok e ∧ Registry.EntryOf Library.natives c d e := by
  have hdecl : c.declared? key = some d := by
    unfold Class.declared?
    rw [hc.source_eq]
    exact hd
  obtain ⟨e, natives, hget, hcame, hentry⟩ := h.library.2.get?_declared hc.has hdecl
  obtain rfl := hcame hc.bundled
  refine ⟨e, Class.select_of_get? hargs hget ?_, hentry⟩
  rw [CallKind.wants_iff, hentry.isStatic]
  exact hkind

/-! ## Host functions in a run -/

namespace State

variable {env : Env} {s : State}

/-- A state in the middle of a host function has just entered it, or was there already. -/
theorem step_host {e : Method} {args : List Value} {p : HostProgram}
    (h : (s.step env).control = .host e args p) :
    (∃ declaring receiver given f view, s.control = .enter e declaring receiver given ∧
      e.impl = .native f ∧ p = f view args) ∨ ∃ q, s.control = .host e args q := by
  have ht := step_transition env s
  generalize s.step env = s' at h ht
  cases ht with
  | enterHost hi => cases h; exact .inl ⟨_, _, _, _, _, rfl, hi, rfl⟩
  | hostService => cases h; exact .inr ⟨_, rfl⟩
  | ended => exact .inr ⟨_, h⟩
  | _ => cases h

/-- What holds of every host function as it is entered, and as long as it goes on, holds of those that a
state is in the middle of. -/
theorem step_host_keeps {P : Method → List Value → HostProgram → Prop} (hlist : s.Listed env)
    (henter : ∀ e f, env.registry.Lists e → e.impl = .native f → ∀ view args, P e args (f view args))
    (hgoes : ∀ e args p p', P e args p → (s.hostStep env e args p).control = .host e args p' → P e args p')
    (hs : ∀ e args p, s.control = .host e args p → P e args p) :
    ∀ e args p, (s.step env).control = .host e args p → P e args p := by
  intro e args p h
  rcases step_host h with ⟨declaring, receiver, given, f, view, hfrom, hi, rfl⟩ | ⟨q, hfrom⟩
  · exact henter e f (hlist.control e (by rw [hfrom]; rfl)) hi view args
  · have heq : s.step env = s.hostStep env e args q := by simp only [step, hfrom]
    exact hgoes e args q p (hs e args q hfrom) (heq ▸ h)

end State

end ObjectMachine
