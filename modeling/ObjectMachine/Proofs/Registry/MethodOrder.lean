/-
The order in which the sources list their methods. `Reorders` is a change of sources that only lists
methods in another order, in each scope its own; a history goes on with the changed sources as it did
before: the same registrations succeed, and every class is as it was but for the order of its table
(`Reordered`). The
one thing to check is the declaration of methods: it succeeds in every order or in none, and enters the
same methods.
-/
import ObjectMachine.Proofs.Registry.Batch

namespace ObjectMachine.Registry

/-! ## Definitions -/

/-- The sources with their methods in another order; no two of them become the same. -/
structure Reorders (ρ : Equiv.Perm ClassDecl) : Prop where
  rest : ∀ s, ρ s = { s with methods := (ρ s).methods }
  methods : ∀ s, (ρ s).methods.Perm s.methods

/-- The change with the sources that `ρ` makes of its own in their scope. -/
def Change.reordered (ρ : UnitId → Equiv.Perm ClassDecl) : Change → Change
  | .openUnit name => .openUnit name
  | .register u source natives => .register u (ρ u source) natives
  | .registerUnit u sources natives => .registerUnit u (sources.map (ρ u)) natives

/-- The class `d` is `c` but for the order of methods, in its source and in its table. -/
structure SameMethods (ρ : UnitId → Equiv.Perm ClassDecl) (c d : Class) : Prop where
  rest : d = { c with source := ρ c.scope c.source, methods := d.methods }
  get? : ∀ s, d.methods.get? s = c.methods.get? s

/-- The registry `r'` has the classes of `r` but for the order of methods. -/
structure Reordered (ρ : UnitId → Equiv.Perm ClassDecl) (r r' : Registry) : Prop where
  size : r'.size = r.size
  classes : ∀ id c, r.class? id = some c → ∃ d, r'.class? id = some d ∧ SameMethods ρ c d
  names : r'.names = r.names
  units : r'.units = r.units

/-! ## Sources -/

section Sources

variable {ρ : Equiv.Perm ClassDecl} {s : ClassDecl}

theorem Reorders.name (h : Reorders ρ) (s : ClassDecl) : (ρ s).name = s.name := by rw [h.rest]

theorem Reorders.parent (h : Reorders ρ) (s : ClassDecl) : (ρ s).parent = s.parent := by rw [h.rest]

theorem Reorders.symm (h : Reorders ρ) : Reorders ρ.symm := by
  constructor <;> intro s <;> obtain ⟨t, rfl⟩ := ρ.surjective s <;> rw [ρ.symm_apply_apply]
  · rw [h.rest t]
  · exact (h.methods t).symm

/-- Exchanging two sources that differ in the order of methods alone. -/
theorem Reorders.swap {methods : List MethodDecl} (h : methods.Perm s.methods) :
    Reorders (Equiv.swap s { s with methods }) := by
  have hcases : ∀ t, t = s ∨ t = { s with methods } ∨
      Equiv.swap s { s with methods } t = t := by
    intro t
    by_cases h1 : t = s
    · exact .inl h1
    · by_cases h2 : t = { s with methods }
      · exact .inr (.inl h2)
      · exact .inr (.inr (Equiv.swap_apply_of_ne_of_ne h1 h2))
  constructor <;> intro t <;> rcases hcases t with rfl | rfl | ht
  · rw [Equiv.swap_apply_left]
  · rw [Equiv.swap_apply_right]
  · rw [ht]
  · rw [Equiv.swap_apply_left]
    exact h
  · rw [Equiv.swap_apply_right]
    exact h.symm
  · rw [ht]

end Sources

/-! ## Declaring methods -/

section Declaring

variable {id : ClassId} {cls : String} {natives : Bindings}

/-- Methods can be declared if their signatures are new and differ, and each has something to run. -/
theorem declareMethods_isOk_iff : ∀ {ds : List MethodDecl} {seen : List Signature} {t : MethodTable},
    (∃ a, declareMethods id cls natives ds seen t = .ok a) ↔
      (∀ d ∈ ds, d.signature ∉ seen) ∧ (ds.map (·.signature)).Nodup ∧
        ∀ d ∈ ds, ∃ impl, implementation cls natives d = .ok impl
  | [], seen, t => by simp [declareMethods]
  | d :: ds, seen, t => by
    simp only [declareMethods_cons, List.forall_mem_cons, List.map_cons, List.nodup_cons]
    constructor
    · rintro ⟨a, hs, impl, hi, h⟩
      obtain ⟨hseen, hn, himpl⟩ := declareMethods_isOk_iff.1 ⟨a, h⟩
      refine ⟨⟨hs, fun x hx hm => hseen x hx (List.mem_cons_of_mem _ hm)⟩, ⟨fun hm => ?_, hn⟩,
        ⟨impl, hi⟩, himpl⟩
      obtain ⟨x, hx, heq⟩ := List.mem_map.1 hm
      exact hseen x hx (heq ▸ List.mem_cons_self)
    · rintro ⟨⟨hs, hseen⟩, ⟨hd, hn⟩, ⟨impl, hi⟩, himpl⟩
      have hlater : ∀ x ∈ ds, x.signature ∉ d.signature :: seen := by
        intro x hx hm
        rcases List.mem_cons.1 hm with heq | hm
        · exact hd (List.mem_map.2 ⟨x, hx, heq⟩)
        · exact hseen x hx hm
      obtain ⟨a, h⟩ := declareMethods_isOk_iff.2 ⟨hlater, hn, himpl⟩
      exact ⟨a, hs, impl, hi, h⟩

/-- In another order the same methods can be declared, and are found as before. -/
theorem declareMethods_perm {ds ds' : List MethodDecl} (h : ds'.Perm ds) {seen : List Signature}
    {t t' a : MethodTable} (ht : ∀ s, t'.get? s = t.get? s)
    (ha : declareMethods id cls natives ds seen t = .ok a) :
    ∃ b, declareMethods id cls natives ds' seen t' = .ok b ∧ ∀ s, b.get? s = a.get? s := by
  obtain ⟨hseen, hn, himpl⟩ := declareMethods_isOk_iff.1 ⟨a, ha⟩
  have hn' : (ds'.map (·.signature)).Nodup := (h.map _).nodup_iff.2 hn
  obtain ⟨b, hb⟩ := declareMethods_isOk_iff.2 ⟨fun d hd => hseen d (h.subset hd), hn',
    fun d hd => himpl d (h.subset hd)⟩
  refine ⟨b, hb, fun s => ?_⟩
  have hfind : ds'.find? (·.signature = s) = ds.find? (·.signature = s) := by
    refine Option.ext fun d => ?_
    rw [MethodTable.find?_key_iff MethodDecl.signature hn,
      MethodTable.find?_key_iff MethodDecl.signature hn', h.mem_iff]
  have hga := declareMethods_get? _ ha s
  have hgb := declareMethods_get? _ hb s
  rw [hfind] at hgb
  rcases hga with ⟨hno, hga⟩ | ⟨d, impl, hd, hi, hga⟩
  · rcases hgb with ⟨-, hgb⟩ | ⟨d', -, hd', -⟩
    · rw [hgb, hga, ht]
    · rw [hno] at hd'
      cases hd'
  · rcases hgb with ⟨hno, -⟩ | ⟨d', impl', hd', hi', hgb⟩
    · rw [hd] at hno
      cases hno
    · rw [hd] at hd'
      cases hd'
      rw [hi] at hi'
      cases hi'
      rw [hgb, hga]

end Declaring

/-! ## Registering one source -/

section Register

variable {ρ : UnitId → Equiv.Perm ClassDecl} {r r' : Registry} {u : UnitId} {natives : Bindings}

theorem SameMethods.scope {c d : Class} (h : SameMethods ρ c d) : d.scope = c.scope := by rw [h.rest]

theorem SameMethods.source {c d : Class} (h : SameMethods ρ c d) :
    d.source = ρ c.scope c.source := by rw [h.rest]

theorem SameMethods.symm {c d : Class} (h : SameMethods ρ c d) :
    SameMethods (fun u => (ρ u).symm) d c where
  rest := by rw [h.rest, (ρ c.scope).symm_apply_apply]
  get? s := (h.get? s).symm

/-- What a class takes from its parent. -/
theorem SameMethods.inherited {parent parent' : Option Class}
    (h : Option.Rel (SameMethods ρ) parent parent') :
    (parent'.map (·.lineage)).getD [] = (parent.map (·.lineage)).getD [] ∧
    (parent'.map (·.fields)).getD [] = (parent.map (·.fields)).getD [] ∧
    ∀ s, ((parent'.map Class.methods).getD {}).get? s = ((parent.map Class.methods).getD {}).get? s := by
  cases h with
  | none => exact ⟨rfl, rfl, fun _ => rfl⟩
  | @some c d h =>
    refine ⟨?_, ?_, h.get?⟩
    · show d.lineage = c.lineage
      rw [h.rest]
      rfl
    · show d.fields = c.fields
      rw [h.rest]

theorem build_reordered (hρ : ∀ v, Reorders (ρ v)) {id : ClassId} {s : ClassDecl} {parent parent' : Option Class}
    (hp : Option.Rel (SameMethods ρ) parent parent') {c : Class}
    (h : build id u s parent natives = .ok c) :
    ∃ d, build id u (ρ u s) parent' natives = .ok d ∧ SameMethods ρ c d := by
  obtain ⟨hid, hscope, hsource, hancestors, hfields, hmethods, hconstructors⟩ := build_ok h
  obtain ⟨hlineage, hinherited, htable⟩ := SameMethods.inherited hp
  obtain ⟨t, ht, hget⟩ := declareMethods_perm ((hρ u).methods s) htable hmethods
  have hks : buildConstructors (ρ u s) = .ok c.constructors := by
    rw [← hconstructors, (hρ u).rest s]
    rfl
  refine ⟨{ c with source := ρ u s, methods := t }, ?_, by rw [hsource, hscope], hget⟩
  have hsame : (ρ u s).fields = s.fields := by rw [(hρ u).rest]
  unfold build
  simp only [(hρ u).name, ht, hks, hlineage, hinherited, hsame, ← hancestors, ← hfields, hid, hscope]

theorem Reordered.symm (h : Reordered ρ r r') : Reordered (fun u => (ρ u).symm) r' r where
  size := h.size.symm
  classes id d hd := by
    have hlt : id < r.size := h.size ▸ class?_lt hd
    obtain ⟨c, hc⟩ : ∃ c, r.class? id = some c := ⟨r.classes[id], Array.getElem?_eq_getElem hlt⟩
    obtain ⟨d', hd', hsame⟩ := h.classes id c hc
    rw [hd] at hd'
    cases hd'
    exact ⟨c, hc, hsame.symm⟩
  names := h.names.symm
  units := h.units.symm

theorem Reordered.find? (h : Reordered ρ r r') {v : UnitId} {n : String} :
    Option.Rel (SameMethods ρ) (r.find? v n) (r'.find? v n) := by
  unfold Registry.find?
  rw [h.names]
  cases r.names.find? (·.1 = (v, n)) with
  | none => exact .none
  | some entry =>
    show Option.Rel _ (r.class? entry.2) (r'.class? entry.2)
    cases hc : r.class? entry.2 with
    | some c =>
      obtain ⟨d, hd, hsame⟩ := h.classes _ c hc
      rw [hd]
      exact .some hsame
    | none =>
      cases hd : r'.class? entry.2 with
      | none => exact .none
      | some d =>
        obtain ⟨c, hc', -⟩ := h.symm.classes _ d hd
        rw [hc] at hc'
        cases hc'

theorem Reordered.get? (h : Reordered ρ r r') {v : UnitId} {n : String} :
    Option.Rel (SameMethods ρ) (r.get? v n) (r'.get? v n) := by
  have hown := h.find? (v := v) (n := n)
  unfold Registry.get?
  generalize r.find? v n = a at hown
  generalize r'.find? v n = b at hown
  cases hown with
  | none => exact h.find?
  | some hsame => exact .some hsame

theorem Reordered.resolveParent (hρ : ∀ v, Reorders (ρ v)) (h : Reordered ρ r r') {s : ClassDecl}
    {parent : Option Class} (hp : r.resolveParent u s = .ok parent) :
    ∃ parent', r'.resolveParent u (ρ u s) = .ok parent' ∧ Option.Rel (SameMethods ρ) parent parent' := by
  unfold Registry.resolveParent Registry.lookup at hp ⊢
  rw [(hρ u).parent, (hρ u).name]
  split at hp
  · cases hp
    exact ⟨none, rfl, .none⟩
  · rename_i name _
    split at hp
    · cases hp
    · rename_i hself
      simp only [if_neg hself]
      have hown := h.get? (v := u) (n := name)
      generalize r.get? u name = a at hown hp
      generalize r'.get? u name = b at hown
      cases hown with
      | none => cases hp
      | some hsame =>
        cases hp
        exact ⟨_, rfl, .some hsame⟩

theorem Reordered.push (hρ : ∀ v, Reorders (ρ v)) (h : Reordered ρ r r') {c d : Class} (hsame : SameMethods ρ c d) :
    Reordered ρ (r.push c) (r'.push d) where
  size := by
    have hs : r'.classes.size = r.classes.size := h.size
    simp [Registry.push, Registry.size, hs]
  classes id x hx := by
    rw [class?_push] at hx ⊢
    rw [h.size]
    split at hx
    · cases hx
      rw [if_pos ‹_›]
      exact ⟨d, rfl, hsame⟩
    · rw [if_neg ‹_›]
      exact h.classes id x hx
  names := by
    have hkey : (d.scope, d.name) = (c.scope, c.name) := by
      rw [hsame.rest]
      exact congrArg _ ((hρ c.scope).name c.source)
    simp only [Registry.push, h.names, h.size, hkey]
  units := h.units

/-- A source is registered as before when it lists its methods in another order. -/
theorem Reordered.register (hρ : ∀ v, Reorders (ρ v)) (hwf : r.WF fun _ _ => True)
    (h : Reordered ρ r r') {s : ClassDecl} {c : Class}
    {r1 : Registry} (hr : r.register u s natives = .ok (c, r1)) :
    ∃ d r1', r'.register u (ρ u s) natives = .ok (d, r1') ∧ Reordered ρ r1 r1' := by
  have hfind := h.find? (v := u) (n := s.name)
  unfold Registry.register
  rw [(hρ u).name]
  rcases register_ok hr with ⟨rfl, hf, hsource⟩ | ⟨hf, rfl, parent, hp, hb⟩ <;>
    rw [hf] at hfind <;> generalize r'.find? u s.name = found at hfind <;> cases hfind
  · rename_i d hsame
    have hd : d.source = ρ u s := by rw [hsame.source, hsource, (hwf.find?_iff.1 hf).2.1]
    exact ⟨d, r', if_pos hd, h⟩
  · obtain ⟨parent', hp', hrel⟩ := h.resolveParent hρ hp
    obtain ⟨d, hd, hsame⟩ := build_reordered hρ hrel hb
    rw [hp', h.size]
    simp only [hd]
    exact ⟨d, _, rfl, h.push hρ hsame⟩

end Register

/-! ## Putting sources in order -/

section Ordering

variable {ρ : Equiv.Perm ClassDecl} {r r' : Registry} {u : UnitId}

theorem any_name_reordered (hρ : Reorders ρ) (chain : List ClassDecl) (name : String) :
    (chain.map ρ).any (·.name = name) = chain.any (·.name = name) := by
  rw [List.any_map]
  exact congrArg chain.any (funext fun s => by simp [hρ.name])

theorem waiting?_reordered (hρ : Reorders ρ) (pending : List ClassDecl) (name : String) :
    waiting? (pending.map ρ) name = (waiting? pending name).map ρ := by
  unfold waiting?
  rw [List.find?_map]
  exact congrArg (fun p => (pending.find? p).map ρ) (funext fun s => by simp [hρ.name])

theorem distinct_reordered (hρ : Reorders ρ) (hu : r'.units = r.units) :
    ∀ (sources kept : List ClassDecl),
    r'.distinct u (sources.map ρ) (kept.map ρ) = (r.distinct u sources kept).map (List.map ρ)
  | [], kept => by
    simp only [List.map_nil, distinct, Except.map, List.map_reverse]
  | s :: rest, kept => by
    have htext : r'.unitText u = r.unitText u := by simp only [unitText, unitName?, hu]
    rw [List.map_cons, distinct, distinct, hρ.name, waiting?_reordered hρ]
    cases waiting? kept s.name with
    | none =>
      simp only [Option.map_none]
      exact distinct_reordered hρ hu rest (s :: kept)
    | some seen =>
      simp only [Option.map_some, ρ.injective.eq_iff, htext]
      split
      · exact distinct_reordered hρ hu rest kept
      · rfl

theorem climb_reordered (hρ : Reorders ρ) (pending : List ClassDecl) (fuel : Nat)
    (chain : List ClassDecl) (name : String) :
    climb (pending.map ρ) fuel (chain.map ρ) name = (climb pending fuel chain name).map (List.map ρ) := by
  have hany (chain : List ClassDecl) (name : String) := any_name_reordered hρ chain name
  have hwaiting (name : String) := waiting?_reordered hρ pending name
  have hparent := hρ.parent
  fun_induction climb pending fuel chain name with
  | case1 fuel chain name hloop =>
    unfold climb
    simp only [hany, hloop, if_true, Except.map]
  | case2 fuel chain name hnew hout =>
    unfold climb
    simp only [hany, hnew, hwaiting, hout, Option.map_none, Except.map, Bool.false_eq_true, if_false]
  | case3 fuel chain name hnew s hs htop =>
    unfold climb
    simp only [hany, hnew, hwaiting, hs, hparent, htop, Option.map_some, Except.map, List.map_cons,
      Bool.false_eq_true, if_false]
  | case4 chain name hnew s hs p hp =>
    unfold climb
    simp only [hany, hnew, hwaiting, hs, hparent, hp, Option.map_some, Except.map, List.map_cons,
      Bool.false_eq_true, if_false]
  | case5 chain name hnew s hs p fuel hp ih =>
    conv_lhs => unfold climb
    simp only [hany, hnew, hwaiting, hs, hparent, hp, Option.map_some, Bool.false_eq_true, if_false]
    exact ih

theorem schedule_reordered (hρ : Reorders ρ) : ∀ (names : List String) (pending : List ClassDecl),
    schedule names (pending.map ρ) = (schedule names pending).map (List.map ρ)
  | [], pending => rfl
  | name :: names, pending => by
    have hfirst := climb_reordered hρ pending pending.length [] name
    rw [List.map_nil] at hfirst
    unfold schedule
    rw [List.length_map, hfirst]
    cases climb pending pending.length [] name with
    | error e => rfl
    | ok chain =>
      have hrest : (pending.map ρ).filter (fun s => !(chain.map ρ).any (·.name = s.name)) =
          (pending.filter fun s => !chain.any (·.name = s.name)).map ρ := by
        rw [List.filter_map]
        refine congrArg (List.map ρ) (List.filter_congr fun s _ => ?_)
        rw [Function.comp_apply, any_name_reordered hρ, hρ.name]
      simp only [Except.map]
      rw [hrest, schedule_reordered hρ names]
      cases schedule names (pending.filter fun s => !chain.any (·.name = s.name)) with
      | error e => rfl
      | ok rest => simp only [Except.map, List.map_append]

end Ordering

/-! ## Batches -/

section Batches

variable {ρ : UnitId → Equiv.Perm ClassDecl} {r r' : Registry} {u : UnitId} {natives : Bindings}

theorem Reordered.registerAll (hρ : ∀ v, Reorders (ρ v)) : ∀ {order : List ClassDecl}
    {r r' r1 : Registry} {cs : List Class}, (r.WF fun _ _ => True) → Reordered ρ r r' →
      registerAll u natives order r = (.ok cs, r1) →
      ∃ ds r1', registerAll u natives (order.map (ρ u)) r' = (.ok ds, r1') ∧ Reordered ρ r1 r1'
  | [], r, r', r1, cs, _, h, hr => by
    obtain ⟨-, rfl⟩ := registerAll_nil_ok.1 hr
    exact ⟨[], r', rfl, h⟩
  | s :: rest, r, r', r1, cs, hwf, h, hr => by
    obtain ⟨c, r2, cs', h1, h2, -⟩ := registerAll_cons_ok.1 hr
    obtain ⟨d, r2', h1', hrel⟩ := h.register hρ hwf h1
    obtain ⟨ds, r1', h2', hrel'⟩ := Reordered.registerAll hρ (hwf.register (fun _ _ => trivial) h1) hrel h2
    exact ⟨d :: ds, r1', registerAll_cons_ok.2 ⟨d, r2', ds, h1', h2', rfl⟩, hrel'⟩

/-- A unit is registered as before when its sources list their methods in another order. -/
theorem Reordered.registerUnit (hρ : ∀ v, Reorders (ρ v)) (hwf : r.WF fun _ _ => True)
    (h : Reordered ρ r r') {sources : List ClassDecl}
    {cs : List Class} {r1 : Registry} (hr : r.registerUnit u sources natives = (.ok cs, r1)) :
    ∃ ds r1', r'.registerUnit u (sources.map (ρ u)) natives = (.ok ds, r1') ∧ Reordered ρ r1 r1' := by
  obtain ⟨batch, order, hb, ho, hall⟩ := registerBatch_ok_iff.1 (registerUnit_ok hr)
  have hb' := distinct_reordered (u := u) (hρ u) h.units sources []
  have ho' := schedule_reordered (hρ u) (batch.map (·.name)) batch
  have hnames : (batch.map (ρ u)).map (·.name) = batch.map (·.name) := by simp [(hρ u).name]
  rw [hb] at hb'
  rw [ho] at ho'
  obtain ⟨ds, r1', hall', hrel⟩ := Reordered.registerAll hρ hwf h hall
  have hbatch : r'.registerBatch u (sources.map (ρ u)) natives = (.ok ds, r1') :=
    registerBatch_ok_iff.2 ⟨batch.map (ρ u), order.map (ρ u), hb', by rw [hnames]; exact ho', hall'⟩
  exact ⟨ds, r1', by rw [Registry.registerUnit, hbatch], hrel⟩

end Batches

/-! ## Histories -/

section Histories

variable {ρ : UnitId → Equiv.Perm ClassDecl} {r r' : Registry}

theorem Reordered.change (hρ : ∀ v, Reorders (ρ v)) (hwf : r.WF fun _ _ => True) (hwf' : r'.WF fun _ _ => True)
    (h : Reordered ρ r r') (c : Change) : Reordered ρ (r.change c) (r'.change (c.reordered ρ)) := by
  cases c with
  | openUnit name => exact ⟨h.size, h.classes, h.names, congrArg (·.push name) h.units⟩
  | register u s natives =>
    simp only [Registry.change, Change.reordered]
    rcases hr : r.register u s natives with e | ⟨c, r1⟩
    · rcases hr' : r'.register u (ρ u s) natives with e' | ⟨d, r1'⟩
      · exact h
      · -- what succeeds in the other order succeeds in this one
        obtain ⟨c, r1, hback, -⟩ := h.symm.register (fun v => (hρ v).symm) hwf' hr'
        rw [(ρ u).symm_apply_apply, hr] at hback
        cases hback
    · obtain ⟨d, r1', hr', hrel⟩ := h.register hρ hwf hr
      rw [hr']
      exact hrel
  | registerUnit u sources natives =>
    simp only [Registry.change, Change.reordered]
    rcases hr : r.registerUnit u sources natives with ⟨e | cs, r1⟩
    · rcases hr' : r'.registerUnit u (sources.map (ρ u)) natives with ⟨e' | ds, r1'⟩
      · rw [registerUnit_error hwf hr, registerUnit_error hwf' hr']
        exact h
      · obtain ⟨cs, r2, hback, -⟩ := h.symm.registerUnit (fun v => (hρ v).symm) hwf' hr'
        rw [List.map_map, Equiv.symm_comp_self, List.map_id, hr] at hback
        cases hback
    · obtain ⟨ds, r1', hr', hrel⟩ := h.registerUnit hρ hwf hr
      rw [hr']
      exact hrel

/-- A history in which sources list their methods in another order leads to the same classes but for
the order of methods. -/
theorem grow_reordered (hρ : ∀ v, Reorders (ρ v)) (changes : List Change) :
    Reordered ρ (grow changes) (grow (changes.map (Change.reordered ρ))) := by
  induction changes using List.reverseRecOn with
  | nil => exact ⟨rfl, fun id c hc => by simp [grow, Registry.empty, Registry.class?] at hc, rfl, rfl⟩
  | append_singleton changes c ih =>
    rw [List.map_append, List.map_singleton, grow_snoc, grow_snoc]
    exact ih.change hρ (grow_sound _) (grow_sound _) c

/-- The tables of the two classes hold the same entries. -/
theorem SameMethods.entries {came came' : ClassId → Bindings → Prop} (hwf : r.WF came)
    (hwf' : r'.WF came') {c d : Class} (hc : r.Has c) (hd : r'.Has d) (h : SameMethods ρ c d) :
    d.methods.entries.Perm c.methods.entries := by
  have hn := hwf.keys_nodup _ rfl hc
  have hn' := hwf'.keys_nodup _ rfl hd
  refine (List.perm_ext_iff_of_nodup (.of_map _ hn') (.of_map _ hn)).2 fun e => ?_
  have hmem : ∀ {t : MethodTable}, t.keys.Nodup → (e ∈ t.entries ↔ t.get? e.signature = some e) :=
    fun hn => by rw [MethodTable.get?, MethodTable.find?_key_iff Method.signature hn]; simp
  rw [hmem hn, hmem hn', h.get?]

end Histories

end ObjectMachine.Registry
