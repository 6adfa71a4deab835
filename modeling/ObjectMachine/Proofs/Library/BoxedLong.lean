/-
The boxed integer and the numeral reader. Managed code of the bundled class makes a box: `valueOf` has the
numeral read by the bundled host function and passes the number to the constructor, and `longValue` reads
the field back. Its names stand for the bundled class whatever user code declares, the class can be
initialized wherever that begins, and two levels of call depth are enough. So the calls come to what the
reader answers for the numeral, in every state that a history leads to.
-/
import ObjectMachine.Proofs.Library.Usable
import ObjectMachine.Proofs.Numeral

namespace ObjectMachine

/-! ## Definitions -/

/-- The call of the numeral reader, of a class as seen from a unit. -/
def Operation.parseLong (u : UnitId) (text : String) : Operation :=
  .invokeStatic u "Long" "parseLong" [.text text]

/-- The call that boxes the number that a text spells. -/
def Operation.valueOf (u : UnitId) (text : String) : Operation :=
  .invokeStatic u "Long" "valueOf" [.text text]

/-- The call that reads a box. -/
def Operation.longValue (ref : Handle) : Operation := .invokeVirtual (.object ref) "longValue" []

/-- An operation comes to an end: with this result, on that machine. -/
def Machine.Ends (m : Machine) (op : Operation) (r : Except Failure (Option Value)) (m' : Machine) : Prop :=
  ∃ fuel, m.perform fuel op = some (r, m')

namespace Library

/-- The body of `valueOf`. -/
def boxing : Body := { code := [.giveBack (some (.create "Long" [.invokeStatic "Long" "parseLong" [.slot 0]]))] }

/-- The body of `longValue`. -/
def unboxing : Body := { code := [.giveBack (some (.thisField "Long" "value"))] }

end Library

/-! ## Ends -/

theorem Machine.Ends.unique {m m₁ m₂ : Machine} {op : Operation} {r₁ r₂ : Except Failure (Option Value)}
    (h₁ : m.Ends op r₁ m₁) (h₂ : m.Ends op r₂ m₂) : r₁ = r₂ ∧ m₁ = m₂ := by
  obtain ⟨fuel₁, hp₁⟩ := h₁
  obtain ⟨fuel₂, hp₂⟩ := h₂
  exact Machine.perform_unique hp₁ hp₂

/-! ## The code of the bundled class -/

/-- Where a level of call depth is left, a method with code runs its body. -/
theorem State.enter_managed {env : Env} {e : Method} {body : Body} (himpl : e.impl = .managed body)
    (c : Class) (receiver : Option Handle) (args : List Value) (K : List Cont) {depth : Nat} (σ : Store)
    (hdepth : depth < env.options.maxCallDepth) :
    State.step env ⟨.enter e c receiver args, K, depth, σ⟩ =
      ⟨.exec (.enter c receiver ((receiver.map Value.object).toList ++ args) body), .returning e.returns :: K,
        depth + 1, σ⟩ := by
  simp only [step, enterMethod, himpl, activate, if_neg (Nat.not_le.2 hdepth)]

section Code

variable {env : Env} {long : Class} (hlong : env.registry.Bundles Library.long long) (K : List Cont) (depth : Nat)

include hlong

/-- In its own code the name of the class stands for it. -/
theorem lookup_long (f : Frame) (hf : f.cls = long) : State.lookup env f "Long" = .ok long := by
  show env.registry.lookup f.cls.scope _ = _
  rw [hf, hlong.scope]
  exact hlong.lookup

/-- The body of `valueOf` comes to the numeral reader. -/
theorem leads_numeral (hwf : env.registry.Sound) {σ : Store} (husable : ¬ (σ.statics.state long).IsFailed)
    (text : String) {e : Method} (hselect : long.select .static "parseLong" [.text text] = .ok e)
    (hdeclaring : e.declaring = long.id) :
    ∃ σ', σ'.heap = σ.heap ∧ ¬ (σ'.statics.state long).IsFailed ∧
      State.Leads env ⟨.exec (.enter long none [.text text] Library.boxing), K, depth, σ⟩
        ⟨.enter e long none [.text text], .argument (.create "Long") [] [] (.enter long none [.text text] {}) ::
          .giveBack (.enter long none [.text text] {}) :: K, depth, σ'⟩ := by
  let f : Frame := .enter long none [.text text] {}
  let L : List Cont := .argument (.create "Long") [] [] f :: .giveBack f :: K
  have hargument : State.Leads env ⟨.exec (.enter long none [.text text] Library.boxing), K, depth, σ⟩
      ⟨.answer (some (.text text)), .argument (.static "Long" "parseLong") [] [] f :: L, depth, σ⟩ := ⟨4, rfl⟩
  have hcall : State.step env
      ⟨.answer (some (.text text)), .argument (.static "Long" "parseLong") [] [] f :: L, depth, σ⟩ =
      State.invokeStatic env ⟨.answer (some (.text text)), L, depth, σ⟩ long "parseLong" [.text text] := by
    simp only [State.step, State.resume, State.arguments, State.call, lookup_long hlong f rfl, State.proceed]
    rfl
  obtain ⟨σ', hheap, husable', hstatic⟩ := leads_static depth L hwf hlong.has
    (hlong.source_eq ▸ Library.long_isConstant) husable hselect hdeclaring (.answer (some (.text text)))
  rw [← hcall] at hstatic
  exact ⟨σ', hheap, husable', hargument.trans (.step hstatic)⟩

/-- With the number read, `valueOf` makes a box where a level of call depth is left. -/
theorem leads_boxed (hwf : env.registry.Sound) {σ : Store} (husable : ¬ (σ.statics.state long).IsFailed)
    (f : Frame) (hf : f.cls = long) (n : Int64) (hdepth : depth < env.options.maxCallDepth) :
    ∃ σ', Store.WithBox σ' env.registry long (.long n) σ.heap ∧
      State.Leads env ⟨.answer (some (.long n)), .argument (.create "Long") [] [] f :: K, depth, σ⟩
        ⟨.answer (some (.object σ.heap.next)), K, depth, σ'⟩ := by
  have hcall : State.step env ⟨.answer (some (.long n)), .argument (.create "Long") [] [] f :: K, depth, σ⟩ =
      ⟨.init long, .thenCreate long [.long n] :: K, depth, σ⟩ := by
    simp only [State.step, State.resume, State.arguments, State.call, lookup_long hlong f hf, State.proceed]
    rfl
  obtain ⟨σ₁, hheap, -, hready⟩ := leads_ready depth (.thenCreate long [.long n] :: K) hwf hlong.has
    (hlong.source_eq ▸ Library.long_isConstant) husable
  obtain ⟨σ₂, -, hbox, hmade⟩ := leads_created (hlong.long hwf) K σ₁ (v := .long n) rfl hdepth
  rw [hheap] at hbox hmade
  refine ⟨σ₂, hbox, (State.Leads.of_eq hcall).trans (hready.trans ?_)⟩
  exact (State.Leads.of_eq rfl).trans hmade

/-- The body of `longValue` gives the number in a box back. -/
theorem leads_unboxed (hwf : env.registry.Sound) {σ : Store} {ref : Handle} {n : Int64}
    (hbox : σ.classOf? env.registry ref = some long) (hcell : σ.heap.cell? ref 0 = some (.long n)) :
    State.Leads env ⟨.exec (.enter long (some ref) [.object ref] Library.unboxing), .returning .long :: K,
        depth + 1, σ⟩
      ⟨.answer (some (.long n)), K, depth, σ⟩ := by
  let f : Frame := .enter long (some ref) [.object ref] {}
  have hoperand : State.Leads env
      ⟨.exec (.enter long (some ref) [.object ref] Library.unboxing), .returning .long :: K, depth + 1, σ⟩
      ⟨.answer (some (.object ref)), .readField "Long" "value" f :: .giveBack f :: .returning .long :: K,
        depth + 1, σ⟩ := ⟨3, rfl⟩
  have hread : State.step env
      ⟨.answer (some (.object ref)), .readField "Long" "value" f :: .giveBack f :: .returning .long :: K,
        depth + 1, σ⟩ =
      ⟨.answer (some (.long n)), .giveBack f :: .returning .long :: K, depth + 1, σ⟩ := by
    have hlocate := (hlong.long hwf).located hbox "read"
    simp only [State.step, State.resume, State.readField, lookup_long hlong f rfl, State.proceed,
      Option.getD_some, hlocate, hcell, State.goto]
  exact hoperand.trans ((State.Leads.of_eq hread).trans ⟨2, rfl⟩)

end Code

/-! ## Calls in a history -/

section Calls

variable {allowed : Act → Prop} {m : Machine} {past : List State} {long : Class} {u : UnitId}
  (h : History allowed m past) (hlong : m.registry.Bundles Library.long long)

include h hlong

/-- A call of `valueOf` begins with the initialization of the class and comes to its body. -/
theorem leads_valueOf (hdepth : 2 ≤ m.options.maxCallDepth) (husable : ¬ (m.store.statics.state long).IsFailed)
    (hu : m.registry.lookup u "Long" = .ok long) (text : String) :
    ∃ σ, σ.heap = m.store.heap ∧ ¬ (σ.statics.state long).IsFailed ∧
      State.Leads m.env (m.moment (.valueOf u text) 0)
        ⟨.exec (.enter long none [.text text] Library.boxing), [.returning .reference], 1, σ⟩ := by
  have hlimit : 0 < m.env.options.maxCallDepth := Nat.lt_of_lt_of_le (by decide) hdepth
  have hdeclared : ∃ e, long.select .static "valueOf" [.text text] = .ok e ∧
      Registry.EntryOf Library.natives long (.static "valueOf" [.text] .reference Library.boxing) e :=
    h.selects_declared hlong rfl rfl (by decide)
  obtain ⟨e, hselect, hentry⟩ := hdeclared
  have himpl : e.impl = .managed Library.boxing := hentry.managed _ rfl
  have hreturns : e.returns = .reference := hentry.returns
  obtain ⟨σ, hheap, husable', hcall⟩ := leads_call h hlong husable hu hselect hentry.declaring
  have henter := State.enter_managed himpl long none [.text text] [] σ hlimit
  rw [hreturns] at henter
  exact ⟨σ, hheap, husable', hcall.trans (.of_eq henter)⟩

/-- A call of `valueOf` makes a box for the number that the text spells, or fails with the error of the
numeral and allocates nothing. -/
theorem valueOf_ends (hdepth : 2 ≤ m.options.maxCallDepth) (husable : ¬ (m.store.statics.state long).IsFailed)
    (hu : m.registry.lookup u "Long" = .ok long) (text : String) :
    (∀ n, parseLong text = .ok n → ∃ σ, Store.WithBox σ m.registry long (.long n) m.store.heap ∧
      m.Ends (.valueOf u text) (.ok (some (.object m.store.heap.next))) { m with store := σ }) ∧
    (∀ err, parseLong text = .error err → ∃ σ, σ.heap = m.store.heap ∧
      m.Ends (.valueOf u text) (.error (.numberFormat err)) { m with store := σ }) := by
  have hwf : m.env.registry.Sound := h.sound
  have hlong' : m.env.registry.Bundles Library.long long := hlong
  have hlimit : 1 < m.env.options.maxCallDepth := hdepth
  obtain ⟨e, hselect, himpl, hreturns, hdeclaring⟩ := parseLong_selected h hlong text
  obtain ⟨σ₁, hheap₁, husable₁, hbody⟩ := leads_valueOf h hlong hdepth husable hu text
  obtain ⟨σ₂, hheap₂, husable₂, hnumeral⟩ :=
    leads_numeral hlong' [.returning .reference] 1 hwf husable₁ text hselect hdeclaring
  have hread := hbody.trans (hnumeral.trans (leads_parseLong long _ σ₂ text himpl hreturns hlimit))
  have hheap : σ₂.heap = m.store.heap := hheap₂.trans hheap₁
  let f : Frame := .enter long none [.text text] {}
  constructor
  · intro n hparse
    rw [hparse] at hread
    obtain ⟨σ₃, hbox, hboxed⟩ :=
      leads_boxed hlong' [.giveBack f, .returning .reference] 1 hwf husable₂ f rfl n hlimit
    rw [hheap] at hbox hboxed
    have hleave : State.Leads m.env
        ⟨.answer (some (.object m.store.heap.next)), [.giveBack f, .returning .reference], 1, σ₃⟩
        ⟨.answer (some (.object m.store.heap.next)), [], 0, σ₃⟩ := ⟨2, rfl⟩
    exact ⟨σ₃, hbox, ((hread.trans hboxed).trans hleave).perform rfl⟩
  · intro err hparse
    rw [hparse] at hread
    have hunwind : State.Leads m.env ⟨.raise (.numberFormat err),
        [.argument (.create "Long") [] [] f, .giveBack f, .returning .reference], 1, σ₂⟩
        ⟨.raise (.numberFormat err), [], 0, σ₂⟩ := ⟨3, rfl⟩
    exact ⟨σ₂, hheap, (hread.trans hunwind).perform rfl⟩

/-- A call of `longValue` reads the number in a box. -/
theorem longValue_ends (hdepth : 1 ≤ m.options.maxCallDepth) {σ : Store} {ref : Handle} {n : Int64}
    (hbox : σ.classOf? m.registry ref = some long) (hcell : σ.heap.cell? ref 0 = some (.long n)) :
    Machine.Ends { m with store := σ } (.longValue ref) (.ok (some (.long n))) { m with store := σ } := by
  have hwf : m.env.registry.Sound := h.sound
  have hlimit : 0 < m.env.options.maxCallDepth := hdepth
  have hdeclared : ∃ e, long.select .onInstance "longValue" [] = .ok e ∧
      Registry.EntryOf Library.natives long (.onInstance "longValue" [] .long Library.unboxing) e :=
    h.selects_declared hlong rfl rfl (by decide)
  obtain ⟨e, hselect, hentry⟩ := hdeclared
  have himpl : e.impl = .managed Library.unboxing := hentry.managed _ rfl
  have hreturns : e.returns = .long := hentry.returns
  have hinst : e.isStatic = false := hentry.isStatic
  have hclass : m.registry.class? e.declaring = some long := by
    rw [hentry.declaring]
    exact hlong.has
  have hstart : Machine.moment { m with store := σ } (.longValue ref) 0 =
      ⟨.enter e long (some ref) [], [], 0, σ⟩ := by
    show State.invokeVirtual m.env (.idle σ) (.object ref) "longValue" [] = _
    simp only [State.invokeVirtual, selectVirtual, Machine.env, hbox, hselect, Except.map, State.proceed,
      State.invoke, hclass, hinst, Bool.false_eq_true, if_false]
    rfl
  have henter := State.enter_managed himpl long (some ref) [] [] σ hlimit
  rw [hreturns] at henter
  have hlong' : m.env.registry.Bundles Library.long long := hlong
  have hleads := (State.Leads.of_eq henter).trans (leads_unboxed hlong' [] 0 hwf hbox hcell)
  exact State.Leads.perform (m := { m with store := σ }) (hstart ▸ hleads) rfl

end Calls

/-! ## Main statement -/

/-- The boxed integer agrees with the numeral reader in every state. Take any machine with two levels of
call depth or more, after any history: with any units loaded, among them units with a class `Long` of their
own, and any operations performed, failed ones included. Called on the bundled class, `parseLong` yields a
number exactly if the text is read as that number. Then `valueOf` answers an object that was not there
before, of the bundled class, and allocates no other, and `longValue` of this object yields the number. If
the text is refused, both calls fail with the error of the numeral and allocate nothing. So `valueOf` of the
canonical text of a number, and then `longValue`, yield the number. -/
theorem boxed_numerals {m : Machine} {past : List State} (h : History (fun _ => True) m past)
    (hdepth : 2 ≤ m.options.maxCallDepth) :
    ∃ long, m.registry.lookup systemUnit "Long" = .ok long ∧ long.source = Library.long ∧
      ∀ u, m.registry.lookup u "Long" = .ok long →
        (∀ text n, (∃ m', m.Ends (.parseLong u text) (.ok (some (.long n))) m') ↔ parseLong text = .ok n) ∧
        (∀ text n, parseLong text = .ok n → ∃ ref m', m.store.heap.get? ref = none ∧
          m.Ends (.valueOf u text) (.ok (some (.object ref))) m' ∧
          m'.store.classOf? m'.registry ref = some long ∧
          m'.store.heap.allocated = m.store.heap.allocated + 1 ∧
          ∃ m'', m'.Ends (.longValue ref) (.ok (some (.long n))) m'') ∧
        (∀ text err, parseLong text = .error err → ∀ op ∈ [Operation.parseLong u text, .valueOf u text],
          ∃ m', m.Ends op (.error (.numberFormat err)) m' ∧
            m'.store.heap.allocated = m.store.heap.allocated) ∧
        ∀ (n : Int64) (nameOf : Handle → String), ∃ ref m' m'',
          m.Ends (.valueOf u ((Value.long n).canonical nameOf)) (.ok (some (.object ref))) m' ∧
          m'.Ends (.longValue ref) (.ok (some (.long n))) m'' := by
  obtain ⟨ps, hps⟩ := Library.registered (show Library.printStream ∈ _ by simp [Library.classes])
  obtain ⟨sys, hsys⟩ := Library.registered (show Library.system ∈ _ by simp [Library.classes])
  obtain ⟨long, hlong⟩ := Library.registered (show Library.long ∈ _ by simp [Library.classes])
  have husable := (library_history h hps hsys hlong).1.long
  have hlimit : 1 ≤ m.options.maxCallDepth := by omega
  have hbundles := h.bundles hlong
  refine ⟨long, hbundles.lookup, hbundles.source_eq, fun u hu => ?_⟩
  have hparse := parseLong_performs h hlimit hbundles husable hu
  have hbox := valueOf_ends h hbundles hdepth husable hu
  -- a box that is made holds the number
  have hmade : ∀ text n, parseLong text = .ok n → ∃ ref m', m.store.heap.get? ref = none ∧
      m.Ends (.valueOf u text) (.ok (some (.object ref))) m' ∧
      m'.store.classOf? m'.registry ref = some long ∧
      m'.store.heap.allocated = m.store.heap.allocated + 1 ∧
      ∃ m'', m'.Ends (.longValue ref) (.ok (some (.long n))) m'' := by
    intro text n hn
    obtain ⟨σ, hwith, hends⟩ := (hbox text).1 n hn
    exact ⟨_, _, Array.getElem?_size, hends, hwith.isBox, hwith.allocated, _,
      longValue_ends h hbundles hlimit hwith.isBox hwith.cell⟩
  refine ⟨fun text n => ?_, hmade, fun text err herr op hop => ?_, fun n nameOf => ?_⟩
  · obtain ⟨fuel, m', -, hp⟩ := hparse text
    constructor
    · rintro ⟨m'', hends⟩
      have hsame := (hends.unique ⟨fuel, hp⟩).1
      cases htext : parseLong text with
      | error err => rw [htext] at hsame; cases hsame
      | ok k => rw [htext] at hsame; cases hsame; rfl
    · intro hn
      rw [hn] at hp
      exact ⟨m', fuel, hp⟩
  · simp only [List.mem_cons, List.not_mem_nil, or_false] at hop
    rcases hop with rfl | rfl
    · obtain ⟨fuel, m', hheap, hp⟩ := hparse text
      rw [herr] at hp
      exact ⟨m', ⟨fuel, hp⟩, by rw [hheap]⟩
    · obtain ⟨σ, hheap, hends⟩ := (hbox text).2 err herr
      exact ⟨_, hends, congrArg Heap.allocated hheap⟩
  · obtain ⟨ref, m', -, hends, -, -, m'', hvalue⟩ := hmade _ n (parseLong_toString n)
    exact ⟨ref, m', m'', hends, hvalue⟩

/-- A unit with a class of the same name, whose `valueOf` answers null. -/
def rivalUnit : CompilationUnit :=
  { name := "rival"
    classes := [
      { name := "Long"
        methods := [.static "valueOf" [.text] .reference
          { code := [.giveBack (some (.literal .null))] }] }] }

/-- A machine that has loaded it, with two levels of call depth, after the bundled class has refused a
numeral. -/
def rivalMachine : Machine :=
  let m := (Machine.load (.boot { maxCallDepth := 2 } {}) rivalUnit).2
  { m with store := (m.moment (.valueOf systemUnit "12a") 30).store }

/-- There the least number is boxed and read back all the same. -/
theorem boxed_numerals_rival : ∃ m past, History (fun _ => True) m past ∧ 2 ≤ m.options.maxCallDepth ∧
    (m.registry.lookup 1 "Long").toOption.map (·.source) = rivalUnit.classes.head? ∧
    (∃ ref m' m'', m.store.heap.get? ref = none ∧
      m.Ends (.valueOf systemUnit "-9223372036854775808") (.ok (some (.object ref))) m' ∧
      m'.Ends (.longValue ref) (.ok (some (.long Int64.minValue))) m'') ∧
    ∃ m', m.Ends (.valueOf systemUnit "9223372036854775808")
      (.error (.numberFormat ⟨"9223372036854775808", .overflow⟩)) m' := by
  have hend : ((Machine.load (.boot { maxCallDepth := 2 } {}) rivalUnit).2.moment
      (.valueOf systemUnit "12a") 30).outcome? =
      some (.error (.numberFormat ⟨"12a", .invalidDigit⟩)) := by decide +kernel
  have hboot : History (fun _ => True) (.boot { maxCallDepth := 2 } {}) [] := .boot
  have hload := hboot.act (a := .load rivalUnit) trivial .load
  have h : History (fun _ => True) rivalMachine _ :=
    hload.act trivial (.perform (Machine.perform_of_outcome? le_rfl hend))
  obtain ⟨long, hlong, -, hcalls⟩ := boxed_numerals h (by decide)
  obtain ⟨-, hboxes, hrefuses, -⟩ := hcalls systemUnit hlong
  obtain ⟨ref, m', hnew, hends, -, -, m'', hvalue⟩ :=
    hboxes "-9223372036854775808" Int64.minValue (by decide +kernel)
  obtain ⟨m₃, hrefused, -⟩ := hrefuses "9223372036854775808" ⟨"9223372036854775808", .overflow⟩
    (by decide +kernel) (.valueOf systemUnit "9223372036854775808") (by simp)
  exact ⟨_, _, h, by decide, by decide +kernel, ⟨ref, m', m'', hnew, hends, hvalue⟩, m₃, hrefused⟩

end ObjectMachine
