/-
Bodies that reserve more local slots. A unit is `Widened` by raising the number of local slots that some of
its bodies ask for, and so is a registry, class by class. Nothing that registers, looks up or selects
reads that number, so what is found in the wider registry is what is found in the other, widened, and an
error is the same error. In particular the machines that a unit and the widened unit are loaded into stay
alike.
-/
import ObjectMachine.Proofs.Registry.Batch
import ObjectMachine.Proofs.Registry.Bodies
import ObjectMachine.Selection

namespace ObjectMachine

/-! ## Definitions -/

/-- The body `b'` is `b` with as many local slots reserved, or more. -/
structure Body.Widened (b b' : Body) : Prop where
  code : b'.code = b.code
  maxLocals : b.maxLocals ≤ b'.maxLocals

inductive MethodBody.Widened : MethodBody → MethodBody → Prop where
  | managed {b b'} : b.Widened b' → Widened (.managed b) (.managed b')
  | native : Widened .native .native

structure MethodDecl.Widened (d d' : MethodDecl) : Prop where
  rest : d' = { d with body := d'.body }
  body : d.body.Widened d'.body

structure ConstructorDecl.Widened (d d' : ConstructorDecl) : Prop where
  params : d'.params = d.params
  body : d.body.Widened d'.body

/-- The source with its bodies widened. -/
structure ClassDecl.Widened (s s' : ClassDecl) : Prop where
  rest : s' = { s with
    staticBlock := s'.staticBlock, constructors := s'.constructors, methods := s'.methods }
  staticBlock : Option.Rel Body.Widened s.staticBlock s'.staticBlock
  constructors : List.Forall₂ ConstructorDecl.Widened s.constructors s'.constructors
  methods : List.Forall₂ MethodDecl.Widened s.methods s'.methods

structure CompilationUnit.Widened (u u' : CompilationUnit) : Prop where
  rest : u' = { u with classes := u'.classes }
  classes : List.Forall₂ ClassDecl.Widened u.classes u'.classes

inductive Implementation.Widened : Implementation → Implementation → Prop where
  | managed {b b'} : b.Widened b' → Widened (.managed b) (.managed b')
  | native {f} : Widened (.native f) (.native f)

structure Method.Widened (e e' : Method) : Prop where
  rest : e' = { e with impl := e'.impl }
  impl : e.impl.Widened e'.impl

structure Constructor.Widened (k k' : Constructor) : Prop where
  params : k'.params = k.params
  body : k.body.Widened k'.body

/-- The table with the bodies of its methods widened. -/
def MethodTable.Widened (t t' : MethodTable) : Prop := List.Forall₂ Method.Widened t.entries t'.entries

/-- The class with its bodies widened. -/
structure Class.Widened (c c' : Class) : Prop where
  rest : c' = { c with source := c'.source, constructors := c'.constructors, methods := c'.methods }
  source : c.source.Widened c'.source
  constructors : List.Forall₂ Constructor.Widened c.constructors c'.constructors
  methods : c.methods.Widened c'.methods

/-- The registry with the bodies of its classes widened. -/
structure Registry.Widened (r r' : Registry) : Prop where
  classes : List.Forall₂ Class.Widened r.classes.toList r'.classes.toList
  names : r'.names = r.names
  units : r'.units = r.units

/-- Results that correspond, or the same error. -/
inductive Alike {α β : Type} (R : α → β → Prop) : Except Failure α → Except Failure β → Prop where
  | ok {a b} : R a b → Alike R (.ok a) (.ok b)
  | error {e} : Alike R (.error e) (.error e)

/-! ## Lists that correspond -/

section Lists

variable {α β γ : Type} {R : α → β → Prop}

theorem option_rel_cases {x : Option α} {y : Option β} (h : Option.Rel R x y) :
    (x = none ∧ y = none) ∨ ∃ a b, x = some a ∧ y = some b ∧ R a b := by
  cases h with
  | none => exact .inl ⟨rfl, rfl⟩
  | some hab => exact .inr ⟨_, _, rfl, rfl, hab⟩

theorem forall₂_find? {p : α → Bool} {q : β → Bool} (hpq : ∀ a b, R a b → q b = p a) :
    ∀ {l : List α} {l' : List β}, List.Forall₂ R l l' → Option.Rel R (l.find? p) (l'.find? q)
  | _, _, .nil => .none
  | a :: l, b :: l', .cons h hl => by
    rw [List.find?_cons, List.find?_cons, hpq a b h]
    cases p a with
    | true => exact .some h
    | false => exact forall₂_find? hpq hl

theorem forall₂_getElem? : ∀ {l : List α} {l' : List β}, List.Forall₂ R l l' → ∀ i : Nat,
    Option.Rel R l[i]? l'[i]?
  | _, _, .nil, _ => .none
  | _, _, .cons h _, 0 => .some h
  | _, _, .cons _ hl, i + 1 => by
    rw [List.getElem?_cons_succ, List.getElem?_cons_succ]
    exact forall₂_getElem? hl i

theorem forall₂_filter {p : α → Bool} {q : β → Bool} (hpq : ∀ a b, R a b → q b = p a) {l : List α}
    {l' : List β} (h : List.Forall₂ R l l') : List.Forall₂ R (l.filter p) (l'.filter q) :=
  List.rel_filter (fun a b hab => iff_of_eq (congrArg (· = true) (hpq a b hab).symm)) h

theorem forall₂_map_eq {f : α → γ} {g : β → γ} (hfg : ∀ a b, R a b → g b = f a) {l : List α}
    {l' : List β} (h : List.Forall₂ R l l') : l'.map g = l.map f := by
  induction h with
  | nil => rfl
  | cons hab _ ih => rw [List.map_cons, List.map_cons, hfg _ _ hab, ih]

theorem option_rel_bind {δ : Type} {S : γ → δ → Prop} {x : Option α} {y : Option β} {f : α → Option γ}
    {g : β → Option δ} (h : Option.Rel R x y) (hfg : ∀ a b, R a b → Option.Rel S (f a) (g b)) :
    Option.Rel S (x.bind f) (y.bind g) := by
  cases h with
  | none => exact .none
  | some hab => exact hfg _ _ hab

theorem option_rel_findSome? {δ : Type} {S : γ → δ → Prop} {f : α → Option γ} {g : α → Option δ}
    (hfg : ∀ a, Option.Rel S (f a) (g a)) : ∀ l : List α, Option.Rel S (l.findSome? f) (l.findSome? g)
  | [] => .none
  | a :: l => by
    rw [List.findSome?_cons, List.findSome?_cons]
    rcases option_rel_cases (hfg a) with ⟨hf, hg⟩ | ⟨b, b', hf, hg, hb⟩
    · rw [hf, hg]
      exact option_rel_findSome? hfg l
    · rw [hf, hg]
      exact .some hb

end Lists

/-! ## Nothing widened -/

theorem option_rel_refl {α : Type} {R : α → α → Prop} (h : ∀ a, R a a) : ∀ x : Option α, Option.Rel R x x
  | none => .none
  | some a => .some (h a)

theorem Body.Widened.refl (b : Body) : b.Widened b := ⟨rfl, UInt16.le_refl _⟩

theorem MethodDecl.Widened.refl (d : MethodDecl) : d.Widened d := by
  refine ⟨rfl, ?_⟩
  cases d.body with
  | managed body => exact .managed (.refl body)
  | native => exact .native

theorem ClassDecl.Widened.refl (s : ClassDecl) : s.Widened s :=
  ⟨rfl, option_rel_refl Body.Widened.refl _, List.forall₂_same.2 fun d _ => ⟨rfl, .refl d.body⟩,
    List.forall₂_same.2 fun d _ => .refl d⟩

theorem Method.Widened.refl (e : Method) : e.Widened e := by
  refine ⟨rfl, ?_⟩
  cases e.impl with
  | managed body => exact .managed (.refl body)
  | native f => exact .native

theorem Class.Widened.refl (c : Class) : c.Widened c :=
  ⟨rfl, .refl c.source, List.forall₂_same.2 fun k _ => ⟨rfl, .refl k.body⟩,
    List.forall₂_same.2 fun e _ => .refl e⟩

theorem Registry.Widened.refl (r : Registry) : r.Widened r :=
  ⟨List.forall₂_same.2 fun c _ => .refl c, rfl, rfl⟩

/-! ## Methods and constructors -/

theorem Method.Widened.signature {e e' : Method} (h : e.Widened e') : e'.signature = e.signature := by
  rw [h.rest]

theorem Method.Widened.returns {e e' : Method} (h : e.Widened e') : e'.returns = e.returns := by
  rw [h.rest]

theorem Method.Widened.isStatic {e e' : Method} (h : e.Widened e') : e'.isStatic = e.isStatic := by
  rw [h.rest]

theorem Method.Widened.declaring {e e' : Method} (h : e.Widened e') : e'.declaring = e.declaring := by
  rw [h.rest]

theorem Method.Widened.declaringName {e e' : Method} (h : e.Widened e') :
    e'.declaringName = e.declaringName := by
  rw [h.rest]

theorem Method.Widened.qualifiedName {e e' : Method} (h : e.Widened e') :
    e'.qualifiedName = e.qualifiedName := by
  rw [Method.qualifiedName, h.declaringName, h.signature, Method.qualifiedName]

theorem CallKind.wants_widened (kind : CallKind) {e e' : Method} (h : e.Widened e') :
    kind.wants e' = kind.wants e := by
  rw [CallKind.wants, h.isStatic, CallKind.wants]

namespace MethodTable.Widened

variable {t t' : MethodTable}

theorem get? (h : t.Widened t') (s : Signature) : Option.Rel Method.Widened (t.get? s) (t'.get? s) :=
  forall₂_find? (fun e e' he => by rw [he.signature]) h

theorem candidates (h : t.Widened t') (name : String) (args : List Value) :
    List.Forall₂ Method.Widened (t.candidates name args) (t'.candidates name args) :=
  forall₂_filter (fun e e' he => by rw [he.signature]) h

theorem insert (h : t.Widened t') {e e' : Method} (he : e.Widened e') :
    (t.insert e).Widened (t'.insert e') := by
  have hplace : ∀ {xs xs' : List Method}, List.Forall₂ Method.Widened xs xs' →
      List.Forall₂ Method.Widened (place xs e) (place xs' e') := by
    intro xs xs' hx
    induction hx with
    | nil => exact .cons he .nil
    | cons hx hxs ih =>
      unfold place
      rw [hx.signature, he.signature]
      split
      · exact .cons he hxs
      · exact .cons hx ih
  exact hplace h

end MethodTable.Widened

/-! ## Classes -/

namespace Class.Widened

variable {c c' d d' : Class}

theorem id (h : c.Widened c') : c'.id = c.id := by rw [h.rest]

theorem scope (h : c.Widened c') : c'.scope = c.scope := by rw [h.rest]

theorem ancestors (h : c.Widened c') : c'.ancestors = c.ancestors := by rw [h.rest]

theorem fields (h : c.Widened c') : c'.fields = c.fields := by rw [h.rest]

theorem name (h : c.Widened c') : c'.name = c.name := by rw [Class.name, h.source.rest, Class.name]

theorem statics (h : c.Widened c') : c'.statics = c.statics := by
  rw [Class.statics, h.source.rest, Class.statics]

theorem parent? (h : c.Widened c') : c'.parent? = c.parent? := by
  rw [Class.parent?, h.ancestors, Class.parent?]

theorem lineage (h : c.Widened c') : c'.lineage = c.lineage := by
  rw [Class.lineage, h.id, h.ancestors, Class.lineage]

theorem descendsFrom (h : c.Widened c') (hd : d.Widened d') :
    c'.descendsFrom d' = c.descendsFrom d := by
  rw [Class.descendsFrom, h.lineage, hd.id, Class.descendsFrom]

theorem fieldIndex? (h : c.Widened c') (name : String) : c'.fieldIndex? name = c.fieldIndex? name := by
  rw [Class.fieldIndex?, h.fields, Class.fieldIndex?]

theorem staticIndex? (h : c.Widened c') (name : String) :
    c'.staticIndex? name = c.staticIndex? name := by
  rw [Class.staticIndex?, h.statics, Class.staticIndex?]

/-- The same method is selected, or the same error. -/
theorem select (h : c.Widened c') (kind : CallKind) (name : String) (args : List Value) :
    Alike Method.Widened (c.select kind name args) (c'.select kind name args) := by
  unfold Class.select
  rw [h.name]
  cases Signature.ofArgs? name args with
  | some key =>
    rcases option_rel_cases (h.methods.get? key) with ⟨hx, hy⟩ | ⟨e, e', hx, hy, he⟩
    · simp only [hx, hy]
      exact .error
    · simp only [hx, hy, CallKind.wants_widened kind he]
      split
      · exact .ok he
      · exact .error
  | none =>
    simp only
    have hcandidates := forall₂_filter (fun _ _ he => CallKind.wants_widened kind he)
      (h.methods.candidates name args)
    revert hcandidates
    generalize (c.methods.candidates name args).filter kind.wants = M
    generalize (c'.methods.candidates name args).filter kind.wants = M'
    intro hM
    cases hM with
    | nil => exact .error
    | cons he hrest =>
      cases hrest with
      | nil => exact .ok he
      | cons he2 hrest =>
        have hM : List.Forall₂ Method.Widened _ _ := .cons he (.cons he2 hrest)
        simp only [forall₂_map_eq (fun _ _ he => he.qualifiedName) hM]
        exact .error

/-- The same constructor is selected, or the same error. -/
theorem selectConstructor (h : c.Widened c') (args : List Value) :
    Alike Constructor.Widened (c.selectConstructor args) (c'.selectConstructor args) := by
  have haccepting : List.Forall₂ Constructor.Widened (c.constructors.filter (·.accepts args))
      (c'.constructors.filter (·.accepts args)) :=
    forall₂_filter (fun k k' hk => by rw [Constructor.accepts, hk.params, Constructor.accepts])
      h.constructors
  unfold Class.selectConstructor
  rw [h.name]
  revert haccepting
  generalize c.constructors.filter (·.accepts args) = M
  generalize c'.constructors.filter (·.accepts args) = M'
  intro hM
  cases hM with
  | nil => exact .error
  | cons hk hrest =>
    cases hrest with
    | nil => exact .ok hk
    | cons hk2 hrest =>
      simp only [List.length_cons, hrest.length_eq]
      exact .error

end Class.Widened

/-! ## Looking up -/

namespace Registry.Widened

variable {r r' : Registry}

theorem size (h : r.Widened r') : r'.size = r.size := by
  have hlen := h.classes.length_eq
  rw [Array.length_toList, Array.length_toList] at hlen
  exact hlen.symm

theorem class? (h : r.Widened r') (id : ClassId) :
    Option.Rel Class.Widened (r.class? id) (r'.class? id) := by
  rw [class?_toList, class?_toList]
  exact forall₂_getElem? h.classes id

theorem find? (h : r.Widened r') (u : UnitId) (name : String) :
    Option.Rel Class.Widened (r.find? u name) (r'.find? u name) := by
  unfold Registry.find?
  rw [h.names]
  cases r.names.find? (·.1 = (u, name)) with
  | none => exact Option.Rel.none
  | some entry => exact h.class? entry.2

theorem get? (h : r.Widened r') (u : UnitId) (name : String) :
    Option.Rel Class.Widened (r.get? u name) (r'.get? u name) := by
  unfold Registry.get?
  rcases option_rel_cases (h.find? u name) with ⟨hx, hy⟩ | ⟨c, c', hx, hy, hc⟩
  · rw [hx, hy]
    exact h.find? systemUnit name
  · rw [hx, hy]
    exact .some hc

theorem lookup (h : r.Widened r') (u : UnitId) (name : String) :
    Alike Class.Widened (r.lookup u name) (r'.lookup u name) := by
  unfold Registry.lookup
  rcases option_rel_cases (h.get? u name) with ⟨hx, hy⟩ | ⟨c, c', hx, hy, hc⟩
  · rw [hx, hy]
    exact .error
  · rw [hx, hy]
    exact .ok hc

theorem parent? (h : r.Widened r') {c c' : Class} (hc : c.Widened c') :
    Option.Rel Class.Widened (r.parent? c) (r'.parent? c') := by
  unfold Registry.parent?
  rw [hc.parent?]
  cases c.parent? with
  | none => exact .none
  | some id => exact h.class? id

/-- The same class of the lineage declares a static, at the same slot. -/
theorem findStatic? (h : r.Widened r') {c c' : Class} (hc : c.Widened c') (name : String) :
    Option.Rel (fun x y : Class × Nat => x.1.Widened y.1 ∧ y.2 = x.2) (r.findStatic? c name)
      (r'.findStatic? c' name) := by
  unfold Registry.findStatic?
  rw [hc.lineage]
  refine option_rel_findSome? (fun id => option_rel_bind (h.class? id) fun owner owner' ho => ?_) _
  rw [ho.staticIndex?]
  cases owner.staticIndex? name with
  | none => exact .none
  | some slot => exact .some ⟨ho, rfl⟩

end Registry.Widened

/-! ## Sources -/

namespace ClassDecl.Widened

variable {s s' : ClassDecl}

theorem name (h : s.Widened s') : s'.name = s.name := by rw [h.rest]

theorem parent (h : s.Widened s') : s'.parent = s.parent := by rw [h.rest]

theorem offered (h : s.Widened s') : List.Forall₂ Constructor.Widened s.offered s'.offered := by
  have hconstructors := h.constructors
  unfold ClassDecl.offered
  revert hconstructors
  generalize s.constructors = ds
  generalize s'.constructors = ds'
  intro hds
  cases hds with
  | nil => exact .cons ⟨rfl, .refl _⟩ .nil
  | cons hd hds => exact List.rel_map (fun _ _ hd => ⟨hd.params, hd.body⟩) (.cons hd hds)

end ClassDecl.Widened

namespace Registry

section Sources

variable {r r' : Registry} {u : UnitId} {natives : Bindings}

theorem waiting?_widened {pending pending' : List ClassDecl}
    (h : List.Forall₂ ClassDecl.Widened pending pending') (name : String) :
    Option.Rel ClassDecl.Widened (waiting? pending name) (waiting? pending' name) :=
  forall₂_find? (fun s s' hs => by rw [hs.name]) h

theorem any_name_widened {chain chain' : List ClassDecl} (h : List.Forall₂ ClassDecl.Widened chain chain')
    (name : String) : chain'.any (·.name = name) = chain.any (·.name = name) := by
  induction h with
  | nil => rfl
  | cons hs _ ih => rw [List.any_cons, List.any_cons, hs.name, ih]

/-- Sources that are not registered twice in one batch are not so in the other, if both succeed. -/
theorem distinct_widened : ∀ {sources sources' kept kept' batch batch' : List ClassDecl},
    List.Forall₂ ClassDecl.Widened sources sources' → List.Forall₂ ClassDecl.Widened kept kept' →
    r.distinct u sources kept = .ok batch → r'.distinct u sources' kept' = .ok batch' →
    List.Forall₂ ClassDecl.Widened batch batch'
  | _, _, kept, kept', batch, batch', .nil, hkept, hb, hb' => by
    cases hb
    cases hb'
    exact List.forall₂_reverse_iff.2 hkept
  | _, _, kept, kept', batch, batch', .cons (a := s) (b := s') hs hrest, hkept, hb, hb' => by
    unfold distinct at hb hb'
    rw [hs.name] at hb'
    rcases option_rel_cases (waiting?_widened hkept s.name) with ⟨hx, hy⟩ | ⟨a, a', hx, hy, -⟩
    · rw [hx] at hb
      rw [hy] at hb'
      exact distinct_widened hrest (.cons hs hkept) hb hb'
    · simp only [hx] at hb
      simp only [hy] at hb'
      split at hb
      · split at hb'
        · exact distinct_widened hrest hkept hb hb'
        · cases hb'
      · cases hb

theorem climb_widened {pending pending' : List ClassDecl}
    (h : List.Forall₂ ClassDecl.Widened pending pending') : ∀ (fuel : Nat) {chain chain' : List ClassDecl}
    (name : String), List.Forall₂ ClassDecl.Widened chain chain' →
    Alike (List.Forall₂ ClassDecl.Widened) (climb pending fuel chain name)
      (climb pending' fuel chain' name) := by
  intro fuel
  induction fuel with
  | zero =>
    intro chain chain' name hc
    unfold climb
    rw [any_name_widened hc]
    split
    · exact .error
    · rcases option_rel_cases (waiting?_widened h name) with ⟨hx, hy⟩ | ⟨s, s', hx, hy, hs⟩
      · rw [hx, hy]
        exact .ok hc
      · simp only [hx, hy, hs.parent]
        cases s.parent <;> exact .ok (.cons hs hc)
  | succ fuel ih =>
    intro chain chain' name hc
    unfold climb
    rw [any_name_widened hc]
    split
    · exact .error
    · rcases option_rel_cases (waiting?_widened h name) with ⟨hx, hy⟩ | ⟨s, s', hx, hy, hs⟩
      · rw [hx, hy]
        exact .ok hc
      · simp only [hx, hy, hs.parent]
        cases s.parent with
        | none => exact .ok (.cons hs hc)
        | some parent => exact ih parent (.cons hs hc)

theorem schedule_widened : ∀ (names : List String) {pending pending' order order' : List ClassDecl},
    List.Forall₂ ClassDecl.Widened pending pending' → schedule names pending = .ok order →
    schedule names pending' = .ok order' → List.Forall₂ ClassDecl.Widened order order'
  | [], _, _, _, _, _, h, h' => by
    cases h
    cases h'
    exact .nil
  | name :: names, pending, pending', order, order', hpending, h, h' => by
    unfold schedule at h h'
    have hclimb := climb_widened hpending pending.length name .nil
    rw [← hpending.length_eq] at h'
    revert h h' hclimb
    generalize climb pending pending.length [] name = x
    generalize climb pending' pending.length [] name = x'
    intro h h' hclimb
    cases hclimb with
    | error => cases h
    | @ok chain chain' hchain =>
      have hrest : List.Forall₂ ClassDecl.Widened
          (pending.filter fun s => !chain.any (·.name = s.name))
          (pending'.filter fun s => !chain'.any (·.name = s.name)) :=
        forall₂_filter (fun s s' hs => by rw [hs.name, any_name_widened hchain]) hpending
      simp only at h h'
      split at h
      · cases h
      · rename_i rest hr
        split at h'
        · cases h'
        · rename_i rest' hr'
          cases h
          cases h'
          exact List.rel_append hchain (schedule_widened names hrest hr hr')

theorem implementation_widened (cls : String) (natives : Bindings) {d d' : MethodDecl}
    (hd : d.Widened d') :
    Alike Implementation.Widened (implementation cls natives d) (implementation cls natives d') := by
  have hbody := hd.body
  unfold implementation
  rw [hd.rest]
  simp only
  revert hbody
  generalize d.body = b
  generalize d'.body = b'
  intro hbody
  cases hbody with
  | managed hb => exact .ok (.managed hb)
  | native =>
    cases natives.get? ⟨cls, d.name, d.params⟩ with
    | none => exact .error
    | some f => exact .ok .native

theorem declareMethods_widened {id : ClassId} {cls : String} : ∀ {ds ds' : List MethodDecl}
    {seen : List Signature} {t t' a a' : MethodTable}, List.Forall₂ MethodDecl.Widened ds ds' →
    t.Widened t' → declareMethods id cls natives ds seen t = .ok a →
    declareMethods id cls natives ds' seen t' = .ok a' → a.Widened a'
  | _, _, seen, t, t', a, a', .nil, ht, h, h' => by
    cases h
    cases h'
    exact ht
  | _, _, seen, t, t', a, a', .cons (a := d) (b := d') hd hds, ht, h, h' => by
    obtain ⟨-, impl, hi, h⟩ := declareMethods_cons.1 h
    obtain ⟨-, impl', hi', h'⟩ := declareMethods_cons.1 h'
    have himpl := implementation_widened cls natives hd
    rw [hi, hi'] at himpl
    have hsignature : d'.signature = d.signature := by rw [hd.rest]; rfl
    have hreturns : d'.returns = d.returns := by rw [hd.rest]
    have hstatic : d'.isStatic = d.isStatic := by rw [hd.rest]
    rw [hsignature, hreturns, hstatic] at h'
    cases himpl with
    | ok himpl => exact declareMethods_widened hds (ht.insert ⟨rfl, himpl⟩) h h'

/-- Classes that are built below the same parent, widened, are the same but for their bodies. -/
theorem build_widened {id : ClassId} {s s' : ClassDecl} {p p' : Option Class} {c c' : Class}
    (hs : s.Widened s') (hp : Option.Rel Class.Widened p p') (h : build id u s p natives = .ok c)
    (h' : build id u s' p' natives = .ok c') : c.Widened c' := by
  obtain ⟨hid, hscope, hsource, hancestors, hfields, hmethods, hconstructors⟩ := build_ok h
  obtain ⟨hid', hscope', hsource', hancestors', hfields', hmethods', hconstructors'⟩ := build_ok h'
  have hinherited : (p'.map (·.lineage)).getD [] = (p.map (·.lineage)).getD [] ∧
      (p'.map (·.fields)).getD [] = (p.map (·.fields)).getD [] ∧
      ((p.map Class.methods).getD {}).Widened ((p'.map Class.methods).getD {}) := by
    cases hp with
    | none => exact ⟨rfl, rfl, .nil⟩
    | some hc => exact ⟨hc.lineage, hc.fields, hc.methods⟩
  have hown : s'.fields = s.fields := by rw [hs.rest]
  rw [hinherited.1] at hancestors'
  rw [hinherited.2.1, hown, hs.name] at hfields'
  rw [hs.name] at hmethods'
  have htable := declareMethods_widened hs.methods hinherited.2.2 hmethods hmethods'
  refine ⟨?_, by rw [hsource, hsource']; exact hs, ?_, htable⟩
  · obtain ⟨i, v, t, as, fs, ks, ms⟩ := c
    obtain ⟨i', v', t', as', fs', ks', ms'⟩ := c'
    simp only at *
    rw [hid', hscope', hancestors', hfields', hid, hscope, hancestors, hfields]
  · rw [(buildConstructors_ok hconstructors).1, (buildConstructors_ok hconstructors').1]
    exact hs.offered

theorem Widened.resolveParent (h : r.Widened r') {s s' : ClassDecl} (hs : s.Widened s') :
    Alike (Option.Rel Class.Widened) (r.resolveParent u s) (r'.resolveParent u s') := by
  unfold Registry.resolveParent
  rw [hs.parent, hs.name]
  cases s.parent with
  | none => exact .ok .none
  | some name =>
    simp only
    split
    · exact .error
    · have hlookup := h.lookup u name
      revert hlookup
      generalize r.lookup u name = x
      generalize r'.lookup u name = x'
      intro hx
      cases hx with
      | ok hc => exact .ok (.some hc)
      | error => exact .error

theorem Widened.push (h : r.Widened r') {c c' : Class} (hc : c.Widened c') :
    (r.push c).Widened (r'.push c') := by
  refine ⟨?_, ?_, h.units⟩
  · rw [Registry.push, Registry.push, Array.toList_push, Array.toList_push]
    exact List.rel_append h.classes (.cons hc .nil)
  · rw [Registry.push, Registry.push, hc.scope, hc.name, h.size, h.names]

/-- A source is registered on both sides, or found on both. -/
theorem register_widened (h : r.Widened r') {s s' : ClassDecl} (hs : s.Widened s') {c c' : Class}
    {r1 r1' : Registry} (hr : r.register u s natives = .ok (c, r1))
    (hr' : r'.register u s' natives = .ok (c', r1')) : r1.Widened r1' := by
  have hfind := h.find? u s.name
  rcases register_ok hr with ⟨rfl, hf, -⟩ | ⟨hf, rfl, p, hp, hb⟩ <;>
    rcases register_ok hr' with ⟨rfl, hf', -⟩ | ⟨hf', rfl, p', hp', hb'⟩ <;>
    rw [hs.name] at hf' <;> rw [hf, hf'] at hfind
  · exact h
  · cases hfind
  · cases hfind
  · have hparent := h.resolveParent (u := u) hs
    rw [hp, hp'] at hparent
    rw [h.size] at hb'
    cases hparent with
    | ok hparent => exact h.push (build_widened hs hparent hb hb')

theorem registerAll_widened : ∀ {order order' : List ClassDecl} {r r' r1 r1' : Registry} {cs cs' : List Class},
    List.Forall₂ ClassDecl.Widened order order' → r.Widened r' →
    registerAll u natives order r = (.ok cs, r1) → registerAll u natives order' r' = (.ok cs', r1') →
    r1.Widened r1'
  | _, _, r, r', r1, r1', cs, cs', .nil, h, hr, hr' => by
    obtain ⟨-, rfl⟩ := registerAll_nil_ok.1 hr
    obtain ⟨-, rfl⟩ := registerAll_nil_ok.1 hr'
    exact h
  | _, _, r, r', r1, r1', cs, cs', .cons hs hrest, h, hr, hr' => by
    obtain ⟨c, r2, ds, h1, h2, -⟩ := registerAll_cons_ok.1 hr
    obtain ⟨c', r2', ds', h1', h2', -⟩ := registerAll_cons_ok.1 hr'
    exact registerAll_widened hrest (register_widened h hs h1 h1') h2 h2'

/-- A unit and the widened unit leave registries behind that are the same but for bodies. -/
theorem registerUnit_widened (h : r.Widened r') {sources sources' : List ClassDecl}
    (hs : List.Forall₂ ClassDecl.Widened sources sources') {cs cs' : List Class} {r1 r1' : Registry}
    (hr : r.registerUnit u sources natives = (.ok cs, r1))
    (hr' : r'.registerUnit u sources' natives = (.ok cs', r1')) : r1.Widened r1' := by
  obtain ⟨batch, order, hb, ho, hall⟩ := registerBatch_ok_iff.1 (registerUnit_ok hr)
  obtain ⟨batch', order', hb', ho', hall'⟩ := registerBatch_ok_iff.1 (registerUnit_ok hr')
  have hbatch := distinct_widened hs .nil hb hb'
  rw [forall₂_map_eq (fun _ _ hs => ClassDecl.Widened.name hs) hbatch] at ho'
  exact registerAll_widened (schedule_widened _ hbatch ho ho') h hall hall'

end Sources

end Registry

end ObjectMachine
