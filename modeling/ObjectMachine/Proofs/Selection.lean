/-
What a call selects. A call without null arguments is a look-up under its one key, any other a search
through the table; both come to the same: the entries of the kind that is called for whose signature
accepts the call (`matching`) are considered, and there has to be exactly one. Without a null argument
there is never more than one, because a value conforms to its own type only and no table has a
signature twice. The order in which classes list their methods shows in nothing but the order in which
an error names the candidates.
-/
import ObjectMachine.Proofs.Exec.Checks
import ObjectMachine.Proofs.Registry.MethodOrder

namespace ObjectMachine

/-! ## Definitions -/

namespace Class

/-- The entries of a kind whose signature accepts a call, in slot order. -/
def matching (c : Class) (kind : CallKind) (name : String) (args : List Value) : List Method :=
  c.methods.entries.filter fun e => kind.wants e && e.signature.accepts name args

/-- The one method among those that accept a call; `call` is the call as messages write it. -/
def single (c : Class) (call : String) : List Method → Except Failure Method
  | [] => .error (.noSuchMethod c.name call)
  | [e] => .ok e
  | many => .error (.ambiguousOverload c.name call (many.map (·.qualifiedName)))

end Class

/-- The same outcome, but for the order in which an error names its candidates. -/
inductive SameSelection : Except Failure Method → Except Failure Method → Prop where
  | same {r : Except Failure Method} : SameSelection r r
  | ambiguous {cls call : String} {names names' : List String} : names'.Perm names →
      SameSelection (.error (.ambiguousOverload cls call names))
        (.error (.ambiguousOverload cls call names'))

/-! ## The key of a call -/

namespace Signature

variable {name : String} {args : List Value} {key : Signature}

/-- A call has a key if every argument has a type, and the key has these types. -/
theorem mapM_type?_iff : ∀ {args : List Value} {params : List Ty},
    args.mapM Value.type? = some params ↔ args.map Value.type? = params.map some
  | [], params => by cases params <;> simp
  | v :: args, params => by
    simp only [List.mapM_cons, Option.bind_eq_bind, Option.bind_eq_some_iff, Option.pure_def,
      mapM_type?_iff, Option.some.injEq]
    cases params with
    | nil => simp
    | cons ty params => simp

theorem ofArgs?_some_iff :
    ofArgs? name args = some key ↔ key.name = name ∧ args.map Value.type? = key.params.map some := by
  unfold ofArgs?
  rw [Option.map_eq_some_iff]
  constructor
  · rintro ⟨params, hp, rfl⟩
    exact ⟨rfl, mapM_type?_iff.1 hp⟩
  · rintro ⟨rfl, hp⟩
    exact ⟨key.params, mapM_type?_iff.2 hp, rfl⟩

/-- Arguments that are present have types. -/
theorem exists_types : ∀ {args : List Value}, Value.null ∉ args →
    ∃ params : List Ty, args.map Value.type? = params.map some
  | [], _ => ⟨[], rfl⟩
  | v :: args, h => by
    rw [List.mem_cons, not_or] at h
    obtain ⟨params, hp⟩ := exists_types h.2
    obtain ⟨ty, hty⟩ : ∃ ty, v.type? = some ty := by
      cases v with
      | null => exact absurd rfl h.1
      | _ => exact ⟨_, rfl⟩
    exact ⟨ty :: params, by rw [List.map_cons, List.map_cons, hty, hp]⟩

theorem null_mem_of_ofArgs?_none (h : ofArgs? name args = none) : Value.null ∈ args := by
  by_contra hno
  obtain ⟨params, hp⟩ := exists_types hno
  have hkey : ofArgs? name args = some ⟨name, params⟩ := ofArgs?_some_iff.2 ⟨rfl, hp⟩
  rw [hkey] at h
  cases h

/-- Present arguments are accepted by the list of their types alone. -/
theorem acceptsAll_iff : ∀ {args : List Value} {types params : List Ty},
    args.map Value.type? = types.map some → (acceptsAll params args = true ↔ params = types)
  | [], types, params, h => by
    cases types with
    | nil => cases params <;> simp [acceptsAll]
    | cons ty types => cases h
  | v :: args, types, params, h => by
    cases types with
    | nil => cases h
    | cons ty types =>
      obtain ⟨hv, hargs⟩ := List.cons.inj h
      cases params with
      | nil => simp [acceptsAll]
      | cons p params =>
        have ih := @acceptsAll_iff args types params hargs
        simp only [acceptsAll, Bool.and_eq_true, decide_eq_true_eq] at ih
        simp only [acceptsAll, List.length_cons, List.zip_cons_cons, List.all_cons, Bool.and_eq_true,
          decide_eq_true_eq, Value.conformsTo_of_type? hv, List.cons.injEq, ← ih, Nat.add_right_cancel_iff]
        tauto

/-- The key of a call is the one signature that accepts it. -/
theorem accepts_iff_eq (h : ofArgs? name args = some key) (s : Signature) :
    s.accepts name args = true ↔ s = key := by
  obtain ⟨hname, htypes⟩ := ofArgs?_some_iff.1 h
  rw [accepts, Bool.and_eq_true, decide_eq_true_eq, acceptsAll_iff htypes, ← hname]
  cases s
  cases key
  simp

/-- A key is written as its call is. -/
theorem text_eq_callText (h : ofArgs? name args = some key) : key.text = callText name args := by
  obtain ⟨rfl, htypes⟩ := ofArgs?_some_iff.1 h
  have hnames : key.params.map Ty.name = args.map Value.typeName := by
    have hname : ∀ v : Value, v.typeName = (v.type?.map Ty.name).getD "null" := fun v => by
      unfold Value.typeName
      cases v.type? <;> rfl
    calc key.params.map Ty.name
        = (key.params.map some).map fun t => (t.map Ty.name).getD "null" := by simp
      _ = (args.map Value.type?).map fun t => (t.map Ty.name).getD "null" := by rw [htypes]
      _ = args.map Value.typeName := by simp [hname]
  rw [text, callText, hnames]

end Signature

/-! ## One match -/

namespace Class

variable {c : Class} {call : String} {M : List Method}

theorem single_ok_iff {e : Method} : c.single call M = .ok e ↔ M = [e] := by
  rcases M with _ | ⟨x, _ | ⟨y, M⟩⟩ <;> simp [single]

theorem single_noSuchMethod_iff {cls text : String} :
    c.single call M = .error (.noSuchMethod cls text) ↔ M = [] ∧ cls = c.name ∧ text = call := by
  rcases M with _ | ⟨x, _ | ⟨y, M⟩⟩ <;> simp [single, eq_comm]

theorem single_ambiguous_iff {cls text : String} {names : List String} :
    c.single call M = .error (.ambiguousOverload cls text names) ↔
      2 ≤ M.length ∧ cls = c.name ∧ text = call ∧ names = M.map (·.qualifiedName) := by
  rcases M with _ | ⟨x, _ | ⟨y, M⟩⟩ <;> simp [single, eq_comm]

/-- The order of the entries shows in the list of candidates alone. -/
theorem single_perm {d : Class} {M' : List Method} (h : M'.Perm M) (hname : d.name = c.name) :
    SameSelection (c.single call M) (d.single call M') := by
  rcases M with _ | ⟨x, _ | ⟨y, M⟩⟩
  · obtain rfl := h.eq_nil
    simp only [single, hname]
    exact .same
  · obtain rfl := h.eq_singleton
    exact .same
  · have hlen := h.length_eq
    rcases M' with _ | ⟨x', _ | ⟨y', M'⟩⟩
    · cases hlen
    · cases hlen
    · simp only [single, hname]
      exact .ambiguous (h.map _)

end Class

/-! ## The look-up and the search -/

namespace Class

variable {c : Class} {kind : CallKind} {name : String} {args : List Value}

/-- The entries under one signature are what a look-up finds. -/
theorem filter_signature {xs : List Method} (hn : (xs.map (·.signature)).Nodup) (key : Signature) :
    xs.filter (·.signature = key) = (xs.find? (·.signature = key)).toList := by
  induction xs with
  | nil => rfl
  | cons x xs ih =>
    obtain ⟨hx, hxs⟩ := List.nodup_cons.1 hn
    by_cases hkey : x.signature = key
    · -- the other entries have other signatures
      have hno : xs.filter (·.signature = key) = [] := by
        rw [ih hxs, Option.toList_eq_nil_iff, List.find?_eq_none]
        intro y hy hyk
        exact hx (List.mem_map.2 ⟨y, hy, (of_decide_eq_true hyk).trans hkey.symm⟩)
      simp [hkey, hno]
    · simp [hkey, ih hxs]

/-- With a key, what accepts the call is what the look-up finds, if it is of the right kind. -/
theorem matching_of_key (hn : c.methods.keys.Nodup) {key : Signature}
    (h : Signature.ofArgs? name args = some key) :
    c.matching kind name args = (c.methods.get? key).toList.filter kind.wants := by
  have haccepts : (fun e : Method => kind.wants e && e.signature.accepts name args) =
      fun e => kind.wants e && decide (e.signature = key) := by
    funext e
    rw [Bool.eq_iff_iff]
    simp only [Bool.and_eq_true, decide_eq_true_eq, Signature.accepts_iff_eq h]
  rw [matching, haccepts, ← List.filter_filter, filter_signature hn]
  rfl

/-- Either way of selecting comes to the single entry that accepts the call. -/
theorem select_eq_single (hn : c.methods.keys.Nodup) (kind : CallKind) (name : String)
    (args : List Value) :
    c.select kind name args = c.single (callText name args) (c.matching kind name args) := by
  cases hkey : Signature.ofArgs? name args with
  | some key =>
    simp only [select, hkey, matching_of_key hn hkey, ← Signature.text_eq_callText hkey]
    cases c.methods.get? key with
    | none => rfl
    | some e => cases hw : kind.wants e <;> simp [single, hw]
  | none =>
    have hsame : (c.methods.candidates name args).filter kind.wants = c.matching kind name args := by
      rw [MethodTable.candidates, List.filter_filter, matching]
    simp only [select, hkey, hsame]
    rcases c.matching kind name args with _ | ⟨x, _ | ⟨y, M⟩⟩ <;> rfl

/-- Two entries accept a call only if an argument is null. -/
theorem null_mem_of_matching (hn : c.methods.keys.Nodup) (h : 2 ≤ (c.matching kind name args).length) :
    Value.null ∈ args := by
  have hkeyless : Signature.ofArgs? name args = none := by
    rw [Option.eq_none_iff_forall_ne_some]
    intro key hkey
    rw [matching_of_key hn hkey] at h
    have hle := List.length_filter_le kind.wants (c.methods.get? key).toList
    have hone : (c.methods.get? key).toList.length ≤ 1 := by cases c.methods.get? key <;> simp
    omega
  exact Signature.null_mem_of_ofArgs?_none hkeyless

end Class

/-! ## Main statement -/

open Registry in
/-- A call selects the single entry of its kind that accepts it; it is an error that there is none, and
that there are several, which takes a null argument. A virtual call selects so in the table of the
object's own class. Classes that list their methods in another order select the same. -/
theorem selects_single_match (changes : List Change) {id : ClassId} {c : Class}
    (hc : (grow changes).class? id = some c) (name : String) (args : List Value) :
    (∀ kind,
      c.select kind name args = c.single (callText name args) (c.matching kind name args) ∧
      (∀ e, c.select kind name args = .ok e ↔ c.matching kind name args = [e]) ∧
      (∀ cls call, c.select kind name args = .error (.noSuchMethod cls call) ↔
        c.matching kind name args = [] ∧ cls = c.name ∧ call = callText name args) ∧
      (∀ cls call names, c.select kind name args = .error (.ambiguousOverload cls call names) ↔
        2 ≤ (c.matching kind name args).length ∧ cls = c.name ∧ call = callText name args ∧
          names = (c.matching kind name args).map (·.qualifiedName)) ∧
      (2 ≤ (c.matching kind name args).length → Value.null ∈ args)) ∧
    (∀ (classOf : Handle → Option Class) ref, classOf ref = some c →
      selectVirtual classOf (.object ref) name args =
        (c.select .onInstance name args).map fun e => (ref, e)) ∧
    ∀ ρ, (∀ u, Reorders (ρ u)) → ∃ d, (grow (changes.map (Change.reordered ρ))).class? id = some d ∧
      ∀ kind, SameSelection (c.select kind name args) (d.select kind name args) := by
  have hwf := grow_sound changes
  have hhas := hwf.has_of_class? hc
  have hn := hwf.keys_nodup _ rfl hhas
  refine ⟨fun kind => ?_, fun classOf ref hclass => ?_, fun ρ hρ => ?_⟩
  · rw [Class.select_eq_single hn]
    exact ⟨rfl, fun _ => Class.single_ok_iff, fun _ _ => Class.single_noSuchMethod_iff,
      fun _ _ _ => Class.single_ambiguous_iff, Class.null_mem_of_matching hn⟩
  · simp only [selectVirtual, hclass]
  · obtain ⟨d, hd, hsame⟩ := (grow_reordered hρ changes).classes id c hc
    have hwf' := grow_sound (changes.map (Change.reordered ρ))
    have hhas' := hwf'.has_of_class? hd
    have hname : d.name = c.name := by
      rw [hsame.rest]
      exact (hρ c.scope).name c.source
    refine ⟨d, hd, fun kind => ?_⟩
    rw [Class.select_eq_single hn, Class.select_eq_single (hwf'.keys_nodup _ rfl hhas')]
    exact Class.single_perm ((hsame.entries hwf hwf' hhas hhas').filter _) hname

/-- Takes a text or a reference, and a null argument is either. -/
def taker : ClassDecl :=
  { name := "Taker",
    methods := [.onInstance "take" [.text] .void {}, .onInstance "take" [.reference] .void {}] }

/-- Below it, a class with its own way of taking a text, which also takes numbers. -/
def counter : ClassDecl :=
  { name := "Counter", parent := some "Taker",
    methods := [.onInstance "take" [.int] .void {}, .onInstance "take" [.text] .void {}] }

def takers : List Registry.Change := [.openUnit "takers", .registerUnit 1 [counter, taker] {}]

open Registry in
theorem selects_single_match_null :
    ∃ c d, (grow takers).class? 1 = some c ∧
      (grow (takers.map (Change.reordered fun _ =>
        Equiv.swap taker { taker with methods := taker.methods.reverse }))).class? 1 = some d ∧
      c.select .onInstance "take" [.null] = .error (.ambiguousOverload "Counter" "take(null)"
        ["Counter.take(text)", "Taker.take(reference)"]) ∧
      SameSelection (c.select .onInstance "take" [.null]) (d.select .onInstance "take" [.null]) := by
  have h : ((grow takers).class? 1).map (fun c =>
      (c.name, (c.matching .onInstance "take" [.null]).map (·.qualifiedName))) =
      some ("Counter", ["Counter.take(text)", "Taker.take(reference)"]) := by decide +kernel
  obtain ⟨c, hc, hvalues⟩ := Option.map_eq_some_iff.1 h
  obtain ⟨hname, hnames⟩ := Prod.mk.inj hvalues
  obtain ⟨hkinds, -, hrest⟩ := selects_single_match takers hc "take" [.null]
  obtain ⟨d, hd, hsame⟩ := hrest _ fun _ => Reorders.swap (List.reverse_perm taker.methods)
  obtain ⟨-, -, -, hambiguous, -⟩ := hkinds .onInstance
  have hlen : 2 ≤ (c.matching .onInstance "take" [.null]).length := by
    rw [← List.length_map (·.qualifiedName), hnames]
    decide
  exact ⟨c, d, hc, hd, (hambiguous _ _ _).2 ⟨hlen, hname.symm, by decide +kernel, hnames.symm⟩,
    hsame _⟩

end ObjectMachine
