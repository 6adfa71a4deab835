/-
Printing on a stream object. The host function behind `println` looks for the stream in the last
field named `fd` of the receiver's own layout, while managed code reads and writes the field `fd` in
the layout of `PrintStream`. The two are the same cell as long as no class below `PrintStream`
declares an `fd` of its own; then printing goes to the stream that the `PrintStream` part of the
receiver names. Otherwise it goes where the field of the subclass points, or nowhere.
-/
import ObjectMachine.Proofs.Heap
import ObjectMachine.Proofs.Library.Bundled

namespace ObjectMachine

/-! ## The host function -/

/-- On a receiver whose last `fd` names a stream, printing asks for one line on it. -/
theorem Library.println_eq {view : HostView} {ref : Handle} {v : Value} {stream : Stream}
    (h : view.field ref "fd" = some (.int stream.fd)) : ∃ next,
      Library.println view [.object ref, v] = .write stream v next ∧ next (.ok ()) = .reply .void := by
  have hfd : ((view.field ref "fd").bind Value.asInt?).getD (-1) = stream.fd := by rw [h]; rfl
  unfold Library.println
  simp only [ArgType.arg, ArgType.reference, ArgType.any, HostProgram.withArg, Value.asObject?,
    List.getElem?_cons_zero, List.getElem?_cons_succ, hfd, Stream.ofFd?_fd]
  exact ⟨_, rfl, rfl⟩

/-! ## The entries of a stream object -/

section Entries

variable {allowed : Act → Prop} {m : Machine} {past : List State} {ps c : Class} {ty : Ty} {e : Method}

/-- An entry for `println` that the class of stream objects declares runs the bundled function. -/
theorem println_entry (h : History allowed m past)
    (hps : m.registry.lookup systemUnit "PrintStream" = .ok ps) (hc : m.registry.Has c)
    (he : c.methods.get? ⟨"println", [ty]⟩ = some e) (hd : e.declaring = ps.id) :
    e.impl = .native Library.println ∧ e.isStatic = false ∧ e.returns = .void := by
  have hwf := h.library.2
  have hb := h.bundled (show Library.printStream ∈ Library.classes by simp [Library.classes]) hps
  obtain ⟨owner, d, natives, ho, -, hmem, hcame, hentry⟩ :=
    hwf.entry_origin hc (List.mem_of_find?_eq_some he)
  have hown : owner = ps := ho.unique (hwf.has_of_lookup hps) (hentry.declaring.symm.trans hd)
  subst hown
  obtain rfl := hcame hb.bundled
  have hsig : e.signature = ⟨"println", [ty]⟩ := by simpa using List.find?_some he
  rw [hb.source_eq] at hmem
  obtain ⟨ty', hty, rfl⟩ := List.mem_map.1 hmem
  obtain ⟨f, hf, hi⟩ := hentry.native rfl
  have hname : owner.name = "PrintStream" := by rw [Class.name, hb.source_eq]; rfl
  have hprint : ∀ t ∈ Library.printedTypes,
      Library.natives.get? ⟨"PrintStream", "println", [t]⟩ = some Library.println := by
    simp only [Library.printedTypes, List.forall_mem_cons]
    exact ⟨rfl, rfl, rfl, rfl, rfl, by simp⟩
  rw [hname] at hf
  rw [show MethodDecl.params _ = [ty'] from rfl, show MethodDecl.name _ = "println" from rfl,
    hprint ty' hty] at hf
  cases hf
  exact ⟨hi, hentry.isStatic, hentry.returns⟩

/-- A call that finds the entry of the class of stream objects selects it. -/
theorem println_selected {v : Value} (hv : v.type? = some ty)
    (he : c.methods.get? ⟨"println", [ty]⟩ = some e) (hinst : e.isStatic = false) :
    c.select .onInstance "println" [v] = .ok e := by
  have hkey : Signature.ofArgs? "println" [v] = some ⟨"println", [ty]⟩ := by
    simp [Signature.ofArgs?, hv]
  exact Class.select_of_get? hkey he (by simp [CallKind.wants, hinst])

end Entries

/-! ## Printing -/

/-- The call of `println` in four steps: the entry, the line, the reply and the way out. -/
theorem State.println_run {env : Env} {σ : Store} {sink : Sink} {e : Method} {declaring : Class}
    {ref : Handle} {v : Value} {stream : Stream} (himpl : e.impl = .native Library.println)
    (hvoid : e.returns = .void) (hfd : σ.fieldByName? env.registry ref "fd" = some (.int stream.fd))
    (hdepth : 1 ≤ env.options.maxCallDepth)
    (hsink : σ.sink.write stream (σ.text env.registry v) = (.ok (), sink)) :
    (State.step env)^[4] ⟨.enter e declaring (some ref) [v], [], 0, σ⟩ =
      ⟨.answer (some .null), [], 0, { σ with sink }⟩ := by
  let s : State := ⟨.enter e declaring (some ref) [v], [], 0, σ⟩
  have hview : (s.hostView env).field ref "fd" = some (.int stream.fd) := hfd
  obtain ⟨next, hprint, hnext⟩ := Library.println_eq (v := v) hview
  have henter : s.step env = ⟨.host e [.object ref, v] (.write stream v next), [.hostCall], 1, σ⟩ := by
    rw [← hprint]
    simp only [s, State.step, State.enterMethod, himpl, State.activate, if_neg (Nat.not_le.2 hdepth)]
    rfl
  have hwrite : State.step env ⟨.host e [.object ref, v] (.write stream v next), [.hostCall], 1, σ⟩ =
      ⟨.host e [.object ref, v] (.reply .void), [.hostCall], 1, { σ with sink }⟩ := by
    simp only [State.step, State.hostStep, hsink, hnext]
  have hreply : State.step env ⟨.host e [.object ref, v] (.reply .void), [.hostCall], 1, { σ with sink }⟩ =
      ⟨.answer (some .null), [.hostCall], 1, { σ with sink }⟩ := by
    simp only [State.step, State.hostStep, HostReply.result, hvoid, if_true, State.proceed, State.goto]
  show State.step env (State.step env (State.step env (s.step env))) = _
  rw [henter, hwrite, hreply]
  rfl

/-- Printing a value that is not null on an object of `PrintStream` or of a class below it: if no
class below `PrintStream` on the way to the object's own declares a field `fd`, and the object's
method table still holds the entry of `PrintStream` for the type of the value, then the call answers
null and puts exactly one line, the canonical text of the value, on the stream that the `fd` of
`PrintStream` names, if the sink takes it. It changes nothing else. -/
theorem println_prints {allowed : Act → Prop} {m : Machine} {past : List State}
    (h : History allowed m past) {ps c : Class} (hps : m.registry.lookup systemUnit "PrintStream" = .ok ps)
    {ref : Handle} (ho : m.store.classOf? m.registry ref = some c) (hdesc : c.descendsFrom ps = true)
    (hown : ∀ a, m.registry.Has a → c.descendsFrom a = true → ps.id ∈ a.ancestors →
      "fd" ∉ a.source.fields.map (·.name))
    {stream : Stream} (hfd : (ps.fieldIndex? "fd").bind (m.store.heap.cell? ref) = some (.int stream.fd))
    {v : Value} {ty : Ty} (hv : v.type? = some ty)
    (hentry : (c.methods.get? ⟨"println", [ty]⟩).map (·.declaring) = some ps.id)
    (hdepth : 1 ≤ m.options.maxCallDepth) (htakes : m.store.sink.refusal? = none) :
    m.perform 4 (.invokeVirtual (.object ref) "println" [v]) =
      some (.ok (some .null), { m with store := { m.store with
        sink := m.store.sink.take stream (m.store.text m.registry v) } }) := by
  obtain ⟨o, -, hclass⟩ := Store.classOf?_some ho
  have hc : m.registry.Has c := h.sound.has_of_class? hclass
  have hpsHas : m.registry.Has ps := h.sound.has_of_lookup hps
  obtain ⟨e, he, hdecl⟩ := Option.map_eq_some_iff.1 hentry
  obtain ⟨himpl, hinst, hvoid⟩ := println_entry h hps hc he hdecl
  -- the receiver's own last `fd` is the cell of `PrintStream`
  have hindex : c.fieldIndex? "fd" = ps.fieldIndex? "fd" := by
    refine h.sound.fieldIndex?_ancestor hpsHas _ rfl hc (by simpa [Class.descendsFrom] using hdesc) ?_
    exact fun a ha hm hanc => hown a ha (by simpa [Class.descendsFrom] using hm) hanc
  have hfield : m.store.fieldByName? m.registry ref "fd" = some (.int stream.fd) := by
    unfold Store.fieldByName?
    rw [ho, Option.bind_some, hindex]
    exact hfd
  -- the call starts by entering the selected method
  have hdeclaring : m.registry.class? e.declaring = some ps := by rw [hdecl]; exact hpsHas
  have hstart : m.moment (.invokeVirtual (.object ref) "println" [v]) 0 =
      ⟨.enter e ps (some ref) [v], [], 0, m.store⟩ := by
    have hsel := println_selected hv he hinst
    show State.invokeVirtual m.env (.idle m.store) (.object ref) "println" [v] = _
    unfold State.invokeVirtual selectVirtual
    simp only [Machine.env, ho, hsel, Except.map, State.proceed, State.invoke, hdeclaring, hinst,
      Bool.false_eq_true, if_false]
    rfl
  have hend : m.moment (.invokeVirtual (.object ref) "println" [v]) 4 =
      ⟨.answer (some .null), [], 0, { m.store with
        sink := m.store.sink.take stream (m.store.text m.registry v) }⟩ := by
    have hrun : (State.step m.env)^[4] ⟨.enter e ps (some ref) [v], [], 0, m.store⟩ = _ :=
      State.println_run himpl hvoid hfield hdepth (Sink.write_taken htakes stream _)
    rw [← hstart] at hrun
    exact hrun
  rw [Machine.perform_of_outcome? le_rfl (r := .ok (some .null)) (by rw [hend]; rfl), hend]

/-! ## Stream objects of a subclass -/

/-- A class below `PrintStream` with one field of its own; its constructor passes the handle of the
stream on. -/
def teeUnit (field : String) : CompilationUnit :=
  { name := "tee"
    classes := [{ name := "Tee", parent := some "PrintStream", fields := [⟨field, .int⟩],
                  constructors := [{ params := [.int], body := { code := [.superInit [.slot 1]] } }] }] }

/-- A machine with one object of that class, for a stream. -/
def teeMachine (field : String) (stream : Stream) : Machine :=
  let m := (Machine.load (.boot {} {}) (teeUnit field)).2
  { m with store := (m.moment (.construct 1 "Tee" [.int stream.fd]) 40).store }

theorem teeMachine_history {field : String} {stream : Stream} {r : Except Failure (Option Value)}
    (h : ((Machine.load (.boot {} {}) (teeUnit field)).2.moment
      (.construct 1 "Tee" [.int stream.fd]) 40).outcome? = some r) :
    ∃ past, History (fun _ => True) (teeMachine field stream) past := by
  have hboot : History (fun _ => True) (.boot {} {}) [] := .boot
  have hload := hboot.act (a := .load (teeUnit field)) trivial .load
  exact ⟨_, hload.act trivial (.perform (Machine.perform_of_outcome? le_rfl h))⟩

/-- An object of a class that adds a field of another name prints on the stream it was made for. -/
theorem println_prints_tee : ∃ m past, History (fun _ => True) m past ∧
    m.perform 4 (.invokeVirtual (.object ⟨0⟩) "println" [.int 7]) =
      some (.ok (some .null), { m with store := { m.store with
        sink := m.store.sink.take .err (m.store.text m.registry (.int 7)) } }) := by
  have hend : ((Machine.load (.boot {} {}) (teeUnit "count")).2.moment
      (.construct 1 "Tee" [.int Stream.err.fd]) 40).outcome? = some (.ok (some (.object ⟨0⟩))) := by
    decide +kernel
  obtain ⟨past, h⟩ := teeMachine_history hend
  have hfacts : ∃ ps ∈ (teeMachine "count" .err).registry.get? systemUnit "PrintStream",
      ∃ c ∈ (teeMachine "count" .err).store.classOf? (teeMachine "count" .err).registry ⟨0⟩,
        c.descendsFrom ps = true ∧
        (∀ a ∈ (teeMachine "count" .err).registry.classes.toList, c.descendsFrom a = true →
          ps.id ∈ a.ancestors → "fd" ∉ a.source.fields.map (·.name)) ∧
        (ps.fieldIndex? "fd").bind ((teeMachine "count" .err).store.heap.cell? ⟨0⟩) =
          some (.int Stream.err.fd) ∧
        (c.methods.get? ⟨"println", [.int]⟩).map (·.declaring) = some ps.id := by
    decide +kernel
  obtain ⟨ps, hps, c, hc, hdesc, hown, hfd, hentry⟩ := hfacts
  have hlookup : (teeMachine "count" .err).registry.lookup systemUnit "PrintStream" = .ok ps := by
    unfold Registry.lookup
    rw [hps]
  refine ⟨_, past, h, println_prints h hlookup hc hdesc ?_ hfd rfl hentry ?_ ?_⟩
  · intro a ha
    exact hown a (List.mem_of_getElem? ((Registry.class?_toList _ _).symm.trans ha))
  · decide
  · decide +kernel

/-- An object of a class that declares an `fd` of its own has none to print on, although the `fd` of
its `PrintStream` part names the standard output and its table holds the entry of `PrintStream`. -/
theorem println_redeclared : ∃ m past, History (fun _ => True) m past ∧
    ∃ ps ∈ m.registry.get? systemUnit "PrintStream", ∃ c ∈ m.store.classOf? m.registry ⟨0⟩,
      c.descendsFrom ps = true ∧
      (ps.fieldIndex? "fd").bind (m.store.heap.cell? ⟨0⟩) = some (.int Stream.out.fd) ∧
      (c.methods.get? ⟨"println", [.int]⟩).map (·.declaring) = some ps.id ∧
      1 ≤ m.options.maxCallDepth ∧ m.store.sink.refusal? = none ∧
      (m.perform 4 (.invokeVirtual (.object ⟨0⟩) "println" [.int 1])).map (·.1) =
        some (.error (.nativeCallFailed "PrintStream.println(int)" "invalid stream handle 0")) := by
  have hend : ((Machine.load (.boot {} {}) (teeUnit "fd")).2.moment
      (.construct 1 "Tee" [.int Stream.out.fd]) 40).outcome? = some (.ok (some (.object ⟨0⟩))) := by
    decide +kernel
  obtain ⟨past, h⟩ := teeMachine_history hend
  refine ⟨_, past, h, ?_⟩
  decide +kernel

end ObjectMachine
