/-
Registering the sources of a batch one after the other, in an order with parents first. Each of them can
be registered exactly if it is registered already, or names a parent that is in the batch or visible and
declares nothing twice (`Admissible`). `registerBatch_isOk` says that a batch succeeds exactly if `Admits`
holds of the set of its sources, and `registerBatch_registered` what a successful batch leaves behind
(`Registered`): among other things, the parent of a new class is what its name stands for in the end.
-/
import ObjectMachine.Proofs.Registry.Methods
import ObjectMachine.Proofs.Registry.Order

namespace ObjectMachine.Registry

/-! ## Definitions -/

/-- The methods and constructors of the source can be declared. -/
def Declares (natives : Bindings) (s : ClassDecl) : Prop :=
  (∃ t, declareMethods 0 s.name natives s.methods [] {} = .ok t) ∧ ∃ ks, buildConstructors s = .ok ks

/-- The source is registered already, or it can be as soon as the batch has its parent. -/
def Admissible (r : Registry) (u : UnitId) (natives : Bindings) (batch : List ClassDecl)
    (s : ClassDecl) : Prop :=
  match r.find? u s.name with
  | some c => c.source = s
  | none => (∀ p, s.parent = some p → p ∈ batch.map (·.name) ∨ (r.get? u p).isSome) ∧
      Declares natives s

/-- What a batch needs in order to be registered. -/
structure Admits (r : Registry) (u : UnitId) (natives : Bindings) (batch : List ClassDecl) : Prop where
  consistent : ∀ s ∈ batch, ∀ t ∈ batch, s.name = t.name → s = t
  acyclic : ∀ n, ¬ Relation.TransGen (StandsOn batch) n n
  admissible : ∀ s ∈ batch, r.Admissible u natives batch s

/-- What registering sources one after the other leaves behind. -/
structure Registered (r : Registry) (u : UnitId) (natives : Bindings) (order : List ClassDecl)
    (cs : List Class) (r' : Registry) : Prop where
  wf : r'.WF fun _ _ => True
  kept : r.Extends r'
  units : r'.units = r.units
  sources : cs.map (·.source) = order
  found : ∀ c ∈ cs, r'.find? u c.name = some c
  others : ∀ v n, (v = u → n ∉ order.map (·.name)) → r'.find? v n = r.find? v n
  built : ∀ c ∈ cs, r.find? u c.name = none →
    r'.Built natives (c.source.parent.bind (r'.get? u)) c

/-! ## Registering one after the other -/

section Sequence

variable {u : UnitId} {natives : Bindings}

theorem registerAll_nil_ok {r r' : Registry} {cs : List Class} :
    registerAll u natives [] r = (.ok cs, r') ↔ cs = [] ∧ r' = r := by
  simp only [registerAll, Prod.mk.injEq, Except.ok.injEq]
  constructor
  · rintro ⟨rfl, rfl⟩
    exact ⟨rfl, rfl⟩
  · rintro ⟨rfl, rfl⟩
    exact ⟨rfl, rfl⟩

theorem registerAll_cons_ok {s : ClassDecl} {rest : List ClassDecl} {r r' : Registry}
    {cs : List Class} : registerAll u natives (s :: rest) r = (.ok cs, r') ↔
      ∃ c r1 ds, r.register u s natives = .ok (c, r1) ∧
        registerAll u natives rest r1 = (.ok ds, r') ∧ cs = c :: ds := by
  rw [registerAll]
  constructor
  · intro h
    split at h
    · cases h
    · rename_i c r1 h1
      split at h
      · cases h
      · rename_i ds r2 h2
        cases h
        exact ⟨c, r1, ds, h1, h2, rfl⟩
  · rintro ⟨c, r1, ds, h1, h2, rfl⟩
    simp only [h1, h2]

theorem registerAll_append_ok {b : List ClassDecl} {r' : Registry} : ∀ {a : List ClassDecl}
    {r : Registry} {cs : List Class}, registerAll u natives (a ++ b) r = (.ok cs, r') ↔
      ∃ cs1 r1 cs2, registerAll u natives a r = (.ok cs1, r1) ∧
        registerAll u natives b r1 = (.ok cs2, r') ∧ cs = cs1 ++ cs2
  | [], r, cs => by simp [registerAll_nil_ok]
  | s :: a, r, cs => by
    rw [List.cons_append, registerAll_cons_ok]
    constructor
    · rintro ⟨c, r1, ds, h1, h2, rfl⟩
      obtain ⟨cs1, r2, cs2, ha, hb, rfl⟩ := registerAll_append_ok.1 h2
      exact ⟨c :: cs1, r2, cs2, registerAll_cons_ok.2 ⟨c, r1, cs1, h1, ha, rfl⟩, hb, rfl⟩
    · rintro ⟨cs1, r2, cs2, ha, hb, rfl⟩
      obtain ⟨c, r1, ds, h1, h2, rfl⟩ := registerAll_cons_ok.1 ha
      exact ⟨c, r1, ds ++ cs2, h1, registerAll_append_ok.2 ⟨ds, r2, cs2, h2, hb, rfl⟩, rfl⟩

/-- Registering the names of a batch is registering its sources in their order. -/
theorem registerNames_ok_iff : ∀ {names : List String} {pending : List ClassDecl} {r r' : Registry}
    {cs : List Class}, registerNames u natives names pending r = (.ok cs, r') ↔
      ∃ order, schedule names pending = .ok order ∧ registerAll u natives order r = (.ok cs, r')
  | [], pending, r, r', cs => by simp [registerNames, schedule, registerAll]
  | name :: names, pending, r, r', cs => by
    unfold registerNames schedule
    cases climb pending pending.length [] name with
    | error e => simp
    | ok chain =>
      simp only
      constructor
      · intro h
        split at h
        · cases h
        · rename_i cs1 r1 h1
          split at h
          · cases h
          · rename_i cs2 r2 h2
            cases h
            obtain ⟨order, ho, hr⟩ := registerNames_ok_iff.1 h2
            exact ⟨chain ++ order, by rw [ho], registerAll_append_ok.2 ⟨cs1, r1, cs2, h1, hr, rfl⟩⟩
      · rintro ⟨order, ho, hr⟩
        split at ho
        · cases ho
        · rename_i rest hs
          cases ho
          obtain ⟨cs1, r1, cs2, h1, h2, rfl⟩ := registerAll_append_ok.1 hr
          have hnames := registerNames_ok_iff.2 ⟨rest, hs, h2⟩
          simp only [h1, hnames]

end Sequence

/-! ## Registering one source -/

/-- Whether methods can be declared depends neither on the class they are declared in nor on what it
inherits. -/
theorem declareMethods_isOk {cls : String} {natives : Bindings} (id id' : ClassId) :
    ∀ (ds : List MethodDecl) (seen : List Signature) (t t' : MethodTable),
    (∃ a, declareMethods id cls natives ds seen t = .ok a) →
      ∃ b, declareMethods id' cls natives ds seen t' = .ok b
  | [], _, _, t', _ => ⟨t', rfl⟩
  | d :: ds, seen, t, t', ⟨a, h⟩ => by
    obtain ⟨hs, impl, hi, h⟩ := declareMethods_cons.1 h
    obtain ⟨b, hb⟩ := declareMethods_isOk id id' ds _ _
      (t'.insert ⟨d.signature, d.returns, d.isStatic, cls, id', impl⟩) ⟨a, h⟩
    exact ⟨b, declareMethods_cons.2 ⟨hs, impl, hi, hb⟩⟩

theorem build_isOk (id : ClassId) (u : UnitId) (s : ClassDecl) (parent : Option Class)
    (natives : Bindings) : (∃ c, build id u s parent natives = .ok c) ↔ Declares natives s := by
  constructor
  · rintro ⟨c, h⟩
    obtain ⟨-, -, -, -, -, hm, hk⟩ := build_ok h
    exact ⟨declareMethods_isOk id 0 _ _ _ _ ⟨_, hm⟩, _, hk⟩
  · rintro ⟨hm, ks, hk⟩
    obtain ⟨t, ht⟩ := declareMethods_isOk 0 id _ _ _ ((parent.map (·.methods)).getD {}) hm
    unfold build
    simp only [ht, hk]
    exact ⟨_, rfl⟩

theorem resolveParent_ok_iff {r : Registry} {u : UnitId} {s : ClassDecl} {parent : Option Class}
    (hself : ∀ p, s.parent = some p → p ≠ s.name) : r.resolveParent u s = .ok parent ↔
      parent = s.parent.bind (r.get? u) ∧ ∀ p, s.parent = some p → (r.get? u p).isSome := by
  unfold resolveParent
  cases hp : s.parent with
  | none =>
    simp only [Except.ok.injEq, Option.bind_none]
    exact ⟨fun h => ⟨h.symm, nofun⟩, fun h => h.1.symm⟩
  | some p =>
    simp only [if_neg (hself p hp), lookup, Option.bind_some, Option.some.injEq]
    cases hg : r.get? u p with
    | none =>
      refine ⟨nofun, fun h => ?_⟩
      have := h.2 p rfl
      rw [hg] at this
      cases this
    | some c =>
      simp only [Except.map, Except.ok.injEq]
      exact ⟨fun h => ⟨h.symm, fun _ hq => by rw [← hq, hg]; rfl⟩, fun h => h.1.symm⟩

/-- A source that is not its own parent can be registered if it is admissible. -/
theorem register_isOk {r : Registry} {u : UnitId} {s : ClassDecl} {natives : Bindings}
    (hself : ∀ p, s.parent = some p → p ≠ s.name) :
    (∃ c r', r.register u s natives = .ok (c, r')) ↔ r.Admissible u natives [] s := by
  unfold register Admissible
  cases r.find? u s.name with
  | some c =>
    simp only
    by_cases hs : c.source = s <;> simp [hs]
  | none =>
    simp only
    constructor
    · rintro ⟨c, r', h⟩
      split at h
      · cases h
      · rename_i parent hp
        split at h
        · cases h
        · rename_i c' hb
          exact ⟨fun p hsp => .inr (((resolveParent_ok_iff hself).1 hp).2 p hsp),
            (build_isOk _ _ _ _ _).1 ⟨_, hb⟩⟩
    · rintro ⟨hp, hd⟩
      have hparent := (resolveParent_ok_iff hself).2 ⟨rfl, fun p hsp => (hp p hsp).resolve_left (by simp)⟩
      obtain ⟨c, hc⟩ := (build_isOk r.size u s (s.parent.bind (r.get? u)) natives).2 hd
      rw [hparent]
      simp only [hc]
      exact ⟨_, _, rfl⟩

theorem WF.find?_push {r : Registry} {came : ClassId → Bindings → Prop} (hwf : r.WF came) (c : Class)
    (v : UnitId) (n : String) :
    (r.push c).find? v n = if (c.scope, c.name) = (v, n) then some c else r.find? v n := by
  unfold find?
  rw [Registry.push, List.find?_cons]
  by_cases h : (c.scope, c.name) = (v, n)
  · rw [if_pos h, decide_eq_true h]
    show (r.push c).class? r.size = some c
    rw [class?_push, if_pos rfl]
  · rw [if_neg h, decide_eq_false h]
    -- the entries that were there before are of earlier positions
    cases hf : r.names.find? (·.1 = (v, n)) with
    | none => rfl
    | some entry =>
      obtain ⟨d, hd, -⟩ := (hwf.index entry.1 entry.2).1 (List.mem_of_find?_eq_some hf)
      show (r.push c).class? entry.2 = r.class? entry.2
      rw [class?_push, if_neg (class?_lt hd).ne]

/-- Registering a source concerns no other name. -/
theorem WF.find?_register {r r' : Registry} {came : ClassId → Bindings → Prop} (hwf : r.WF came)
    {u : UnitId} {s : ClassDecl} {natives : Bindings} {c : Class}
    (h : r.register u s natives = .ok (c, r')) (v : UnitId) (n : String) :
    r'.find? v n = if (u, s.name) = (v, n) then some c else r.find? v n := by
  rcases register_ok h with ⟨rfl, hf, -⟩ | ⟨-, rfl, parent, -, hb⟩
  · split
    · rename_i heq
      cases heq
      exact hf
    · rfl
  · obtain ⟨-, hscope, hsource, -⟩ := build_ok hb
    rw [hwf.find?_push, hscope, Class.name, hsource]

/-- A registered source can be seen from its scope, and what could be seen before can be seen still. -/
theorem WF.get?_register {r r' : Registry} {came : ClassId → Bindings → Prop} (hwf : r.WF came)
    {u : UnitId} {s : ClassDecl} {natives : Bindings} {c : Class}
    (h : r.register u s natives = .ok (c, r')) (p : String) :
    (r'.get? u p).isSome ↔ p = s.name ∨ (r.get? u p).isSome := by
  unfold get?
  rw [hwf.find?_register h, hwf.find?_register h]
  by_cases hp : s.name = p
  · simp [hp]
  · rw [if_neg fun heq => hp (Prod.mk.inj heq).2, if_neg fun heq => hp (Prod.mk.inj heq).2]
    exact ⟨.inr, fun h => h.resolve_left fun heq => hp heq.symm⟩

/-! ## Registering sources in order -/

section Order

variable {u : UnitId} {natives : Bindings}

/-- Whether a source is admissible does not change when another one is registered, except that the
registry now has what the batch had. -/
theorem WF.admissible_register {r r' : Registry} {came : ClassId → Bindings → Prop} (hwf : r.WF came)
    {s t : ClassDecl} {rest : List ClassDecl} {c : Class} (h : r.register u s natives = .ok (c, r'))
    (hne : s.name ≠ t.name) :
    r'.Admissible u natives rest t ↔ r.Admissible u natives (s :: rest) t := by
  unfold Admissible
  rw [hwf.find?_register h, if_neg fun heq => hne (Prod.mk.inj heq).2]
  cases r.find? u t.name with
  | some d => rfl
  | none =>
    have hseen (p : String) : p ∈ rest.map (·.name) ∨ (r'.get? u p).isSome ↔
        p ∈ (s :: rest).map (·.name) ∨ (r.get? u p).isSome := by
      rw [hwf.get?_register h, List.map_cons, List.mem_cons]
      tauto
    simp only [hseen]

/-- With parents first, sources can be registered exactly if each of them is admissible. -/
theorem registerAll_isOk {order : List ClassDecl} (ho : ParentsFirst order) : ∀ {r : Registry},
    (r.WF fun _ _ => True) → (order.map (·.name)).Nodup →
    ((∃ cs r', registerAll u natives order r = (.ok cs, r')) ↔
      ∀ s ∈ order, r.Admissible u natives order s) := by
  induction ho with
  | nil =>
    intro r _ _
    simp [registerAll]
  | @cons s rest hs _ ih =>
    intro r hwf hn
    rw [List.map_cons, List.nodup_cons] at hn
    have hself : ∀ p, s.parent = some p → p ≠ s.name := fun p hp heq =>
      hs p hp (heq ▸ List.mem_cons_self)
    -- the parent of the first source is not among the others
    have hfirst : r.Admissible u natives (s :: rest) s ↔ r.Admissible u natives [] s := by
      unfold Admissible
      cases r.find? u s.name with
      | some d => rfl
      | none =>
        refine and_congr_left fun _ => forall_congr' fun p => imp_congr_right fun hp => ?_
        rw [or_iff_right (hs p hp), or_iff_right (by simp)]
    have hother {c : Class} {r1 : Registry} (h : r.register u s natives = .ok (c, r1)) :
        (∀ t ∈ rest, r1.Admissible u natives rest t) ↔
          ∀ t ∈ rest, r.Admissible u natives (s :: rest) t := by
      refine forall₂_congr fun t ht => hwf.admissible_register h fun heq => hn.1 ?_
      exact heq ▸ List.mem_map.2 ⟨t, ht, rfl⟩
    rw [List.forall_mem_cons, hfirst, ← register_isOk hself]
    constructor
    · rintro ⟨cs, r', h⟩
      obtain ⟨c, r1, ds, h1, h2, -⟩ := registerAll_cons_ok.1 h
      have hwf1 := hwf.register (fun _ _ => trivial) h1
      exact ⟨⟨c, r1, h1⟩, (hother h1).1 ((ih hwf1 hn.2).1 ⟨ds, r', h2⟩)⟩
    · rintro ⟨⟨c, r1, h1⟩, hrest⟩
      have hwf1 := hwf.register (fun _ _ => trivial) h1
      obtain ⟨ds, r', h2⟩ := (ih hwf1 hn.2).2 ((hother h1).2 hrest)
      exact ⟨c :: ds, r', registerAll_cons_ok.2 ⟨c, r1, ds, h1, h2, rfl⟩⟩

theorem get?_congr {r r' : Registry} {v : UnitId} {n : String} (h : r'.find? v n = r.find? v n)
    (hsys : r'.find? systemUnit n = r.find? systemUnit n) : r'.get? v n = r.get? v n := by
  unfold get?
  rw [h, hsys]

/-- A name that is not registered stands for the same class as before. -/
theorem Registered.get?_eq {r r' : Registry} {order : List ClassDecl} {cs : List Class}
    (h : Registered r u natives order cs r') {v : UnitId} {n : String}
    (hv : v = u → n ∉ order.map (·.name)) (hsys : systemUnit = u → n ∉ order.map (·.name)) :
    r'.get? v n = r.get? v n :=
  get?_congr (h.others v n hv) (h.others systemUnit n hsys)

theorem Registered.names {r r' : Registry} {order : List ClassDecl} {cs : List Class}
    (h : Registered r u natives order cs r') : cs.map (·.name) = order.map (·.name) := by
  rw [← h.sources, List.map_map]
  rfl

theorem Registered.source_mem {r r' : Registry} {order : List ClassDecl} {cs : List Class}
    (h : Registered r u natives order cs r') {c : Class} (hc : c ∈ cs) : c.source ∈ order :=
  h.sources ▸ List.mem_map.2 ⟨c, hc, rfl⟩

theorem Registered.has {r r' : Registry} {order : List ClassDecl} {cs : List Class}
    (h : Registered r u natives order cs r') {c : Class} (hc : c ∈ cs) : r'.Has c ∧ c.scope = u := by
  obtain ⟨hhas, hscope, -⟩ := h.wf.find?_iff.1 (h.found c hc)
  exact ⟨hhas, hscope⟩

theorem Registered.get?_mem {r r' : Registry} {order : List ClassDecl} {cs : List Class}
    (h : Registered r u natives order cs r') {c : Class} (hc : c ∈ cs) :
    r'.get? u c.name = some c := by
  rw [get?, h.found c hc]
  rfl

/-- The parent of a source is resolved before the others are registered, and they do not change what
its name stands for. -/
theorem Registered.built_first {r r' : Registry} {s : ClassDecl} {rest : List ClassDecl} {c : Class}
    {ds : List Class} {parent : Option Class} (hwf : r.WF fun _ _ => True)
    (hp : r.resolveParent u s = .ok parent) (hb : build r.size u s parent natives = .ok c)
    (hs : ∀ p, s.parent = some p → p ∉ (s :: rest).map (·.name))
    (hr : Registered (r.push c) u natives rest ds r')
    (hfind : ∀ v n, n ∉ (s :: rest).map (·.name) → (r.push c).find? v n = r.find? v n) :
    r'.Built natives (s.parent.bind (r'.get? u)) c := by
  have hself : ∀ p, s.parent = some p → p ≠ s.name := fun p hsp heq =>
    hs p hsp (heq ▸ List.mem_cons_self)
  have hparent : s.parent.bind (r'.get? u) = parent := by
    rw [((resolveParent_ok_iff hself).1 hp).1]
    cases hsp : s.parent with
    | none => rfl
    | some p =>
      have hno := hs p hsp
      have hrest : p ∉ rest.map (·.name) := fun hm => hno (List.mem_cons_of_mem _ hm)
      show r'.get? u p = r.get? u p
      rw [hr.get?_eq (fun _ => hrest) fun _ => hrest]
      exact get?_congr (hfind _ _ hno) (hfind _ _ hno)
  rw [hparent]
  exact (hwf.built_push hp hb).extends hr.kept

theorem Registered.cons {r r1 r' : Registry} {s : ClassDecl} {rest : List ClassDecl} {c : Class}
    {ds : List Class} (hwf : r.WF fun _ _ => True) (h : r.register u s natives = .ok (c, r1))
    (hs : ∀ p, s.parent = some p → p ∉ (s :: rest).map (·.name)) (hfresh : s.name ∉ rest.map (·.name))
    (hr : Registered r1 u natives rest ds r') : Registered r u natives (s :: rest) (c :: ds) r' := by
  have hsource : c.source = s := register_source h
  have hname : c.name = s.name := by rw [Class.name, hsource]
  have hfind : ∀ v n, (v = u → n ∉ (s :: rest).map (·.name)) → r1.find? v n = r.find? v n := by
    intro v n hv
    rw [hwf.find?_register h, if_neg]
    rintro heq
    cases heq
    exact hv rfl List.mem_cons_self
  constructor
  · exact hr.wf
  · exact (register_extends h).trans hr.kept
  · rw [hr.units]
    rcases register_ok h with ⟨rfl, -⟩ | ⟨-, rfl, -⟩ <;> rfl
  · rw [List.map_cons, hsource, hr.sources]
  · intro d hd
    rcases List.mem_cons.1 hd with rfl | hd
    · rw [hr.others u d.name fun _ => hname ▸ hfresh, hwf.find?_register h, if_pos (by rw [hname])]
    · exact hr.found d hd
  · intro v n hv
    rw [hr.others v n fun hvu hn => hv hvu (List.mem_cons_of_mem _ hn), hfind v n hv]
  · intro d hd hnew
    rcases List.mem_cons.1 hd with rfl | hd
    · rcases register_ok h with ⟨-, hf, -⟩ | ⟨-, rfl, parent, hp, hb⟩
      · rw [hname, hf] at hnew
        cases hnew
      · rw [hsource]
        exact Registered.built_first hwf hp hb hs hr fun v n hn => hfind v n fun _ => hn
    · refine hr.built d hd ?_
      rw [hwf.find?_register h, if_neg, hnew]
      intro heq
      exact hfresh ((Prod.mk.inj heq).2 ▸ List.mem_map.2 ⟨d.source, hr.source_mem hd, rfl⟩)

/-- What registering sources with parents first leaves behind. -/
theorem registerAll_registered {order : List ClassDecl} (ho : ParentsFirst order) :
    ∀ {r r' : Registry} {cs : List Class}, (r.WF fun _ _ => True) → (order.map (·.name)).Nodup →
    registerAll u natives order r = (.ok cs, r') → Registered r u natives order cs r' := by
  induction ho with
  | nil =>
    intro r r' cs hwf _ h
    obtain ⟨rfl, rfl⟩ := registerAll_nil_ok.1 h
    exact ⟨hwf, .refl _, rfl, rfl, by simp, fun _ _ _ => rfl, by simp⟩
  | @cons s rest hs _ ih =>
    intro r r' cs hwf hn h
    rw [List.map_cons, List.nodup_cons] at hn
    obtain ⟨c, r1, ds, h1, h2, rfl⟩ := registerAll_cons_ok.1 h
    have hwf1 := hwf.register (fun _ _ => trivial) h1
    exact .cons hwf h1 hs hn.1 (ih hwf1 hn.2 h2)

end Order

/-! ## Batches -/

section Batch

variable {r r' : Registry} {u : UnitId} {natives : Bindings} {sources : List ClassDecl}

theorem Admissible.congr {a b : List ClassDecl} (h : ∀ s, s ∈ a ↔ s ∈ b) {s : ClassDecl} :
    r.Admissible u natives a s ↔ r.Admissible u natives b s := by
  have hnames (p : String) : p ∈ a.map (·.name) ↔ p ∈ b.map (·.name) := by simp [h]
  unfold Admissible
  simp only [hnames]

theorem registerBatch_ok_iff {cs : List Class} : r.registerBatch u sources natives = (.ok cs, r') ↔
    ∃ batch order, r.distinct u sources [] = .ok batch ∧
      schedule (batch.map (·.name)) batch = .ok order ∧
      registerAll u natives order r = (.ok cs, r') := by
  unfold registerBatch
  cases r.distinct u sources [] with
  | error e => simp
  | ok batch =>
    simp only [registerNames_ok_iff, Except.ok.injEq]
    constructor
    · rintro ⟨order, ho, hr⟩
      exact ⟨batch, order, rfl, ho, hr⟩
    · rintro ⟨_, order, rfl, ho, hr⟩
      exact ⟨order, ho, hr⟩

theorem distinct_ok {batch : List ClassDecl} (h : r.distinct u sources [] = .ok batch) :
    (batch.map (·.name)).Nodup ∧ ∀ s, s ∈ batch ↔ s ∈ sources := by
  have hspec := distinct_spec r u sources [] List.nodup_nil
  rw [h] at hspec
  exact ⟨hspec.1, fun s => (hspec.2 s).trans (or_iff_right List.not_mem_nil)⟩

theorem schedule_ok {batch order : List ClassDecl} (hb : r.distinct u sources [] = .ok batch)
    (ho : schedule (batch.map (·.name)) batch = .ok order) : Ordered sources order := by
  obtain ⟨hnodup, hmem⟩ := distinct_ok hb
  have hspec := schedule_spec (batch.map (·.name)) batch hnodup fun s hs => List.mem_map.2 ⟨s, hs, rfl⟩
  rw [ho] at hspec
  exact ⟨fun s => (hspec.mem s).trans (hmem s), hspec.nodup, hspec.parents⟩

/-- A unit succeeds as its batch does. -/
theorem registerUnit_isOk : (∃ cs r', r.registerUnit u sources natives = (.ok cs, r')) ↔
    ∃ cs r', r.registerBatch u sources natives = (.ok cs, r') := by
  constructor
  · rintro ⟨cs, r', h⟩
    exact ⟨cs, r', registerUnit_ok h⟩
  · rintro ⟨cs, r', h⟩
    refine ⟨cs, r', ?_⟩
    unfold registerUnit
    rw [h]

/-- A batch that succeeds has been put in order and registered. -/
theorem registerBatch_registered {cs : List Class} (hwf : r.WF fun _ _ => True)
    (h : r.registerBatch u sources natives = (.ok cs, r')) :
    ∃ order, Ordered sources order ∧ Registered r u natives order cs r' := by
  obtain ⟨batch, order, hb, hs, hr⟩ := registerBatch_ok_iff.1 h
  have ho := schedule_ok hb hs
  exact ⟨order, ho, registerAll_registered ho.parents hwf ho.nodup hr⟩

/-- A batch succeeds exactly if it has what it needs, in whatever order its sources are listed. -/
theorem registerBatch_isOk (hwf : r.WF fun _ _ => True) :
    (∃ cs r', r.registerBatch u sources natives = (.ok cs, r')) ↔ r.Admits u natives sources := by
  simp only [registerBatch_ok_iff]
  constructor
  · rintro ⟨cs, r', batch, order, hb, hs, hr⟩
    have ho := schedule_ok hb hs
    have hall := (registerAll_isOk ho.parents hwf ho.nodup).1 ⟨cs, r', hr⟩
    constructor
    · intro s hs t ht hname
      exact List.inj_on_of_nodup_map ho.nodup ((ho.mem s).2 hs) ((ho.mem t).2 ht) hname
    · intro n hc
      exact ho.parents.acyclic ho.nodup n (StandsOn.transGen_mono (fun s => (ho.mem s).2) hc)
    · intro s hs
      exact (Admissible.congr ho.mem).1 (hall s ((ho.mem s).2 hs))
  · intro ha
    have hdistinct := distinct_spec r u sources [] List.nodup_nil
    split at hdistinct
    · rename_i batch hb
      obtain ⟨hnodup, hmem⟩ := distinct_ok hb
      have hschedule := schedule_spec (batch.map (·.name)) batch hnodup fun s hs =>
        List.mem_map.2 ⟨s, hs, rfl⟩
      split at hschedule
      · rename_i order hs
        have ho := schedule_ok hb hs
        obtain ⟨cs, r', hr⟩ := (registerAll_isOk ho.parents hwf ho.nodup).2 fun s hs =>
          (Admissible.congr ho.mem).2 (ha.admissible s ((ho.mem s).1 hs))
        exact ⟨cs, r', batch, order, hb, hs, hr⟩
      · obtain ⟨n, -, hc⟩ := hschedule
        exact absurd (StandsOn.transGen_mono (fun s => (hmem s).1) hc) (ha.acyclic n)
    · obtain ⟨s, hs, t, ht, hname, hne⟩ := hdistinct
      exact absurd (ha.consistent s hs t (ht.resolve_left List.not_mem_nil) hname) hne

theorem Admits.congr {a b : List ClassDecl} (h : ∀ s, s ∈ a ↔ s ∈ b) (ha : r.Admits u natives a) :
    r.Admits u natives b := by
  constructor
  · intro s hs t ht
    exact ha.consistent s ((h s).2 hs) t ((h t).2 ht)
  · intro n hc
    exact ha.acyclic n (StandsOn.transGen_mono (fun s => (h s).2) hc)
  · intro s hs
    exact (Admissible.congr h).1 (ha.admissible s ((h s).2 hs))

end Batch

end ObjectMachine.Registry
