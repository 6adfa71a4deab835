/-
The classes of a unit may be listed in any order. Whether a batch succeeds depends on its set of sources
alone (`Admits`). What a class becomes (`Description`) depends on its source and on the description of its
parent (`Built.describe_eq`), and its parent is found by name: it is a class of the batch, which by
induction has one description in whatever order it was registered, or a class that was there before.
Only positions differ: those of the classes, and with them the positions that a method table holds.
-/
import ObjectMachine.Proofs.Registry.Batch

namespace ObjectMachine

/-! ## Definitions -/

/-- A method without the position of the class that declares it. -/
def Method.unplaced (e : Method) : Method := { e with declaring := 0 }

/-- The methods of a table in slot order, without positions. -/
def MethodTable.unplaced (t : MethodTable) : List Method := t.entries.map (·.unplaced)

namespace Registry

/-- What a class is apart from its position and those of other classes. -/
structure Description where
  name : String
  scope : UnitId
  /-- The name and the scope of the parent. -/
  parent : Option (String × UnitId)
  fields : List FieldCell
  constructors : List Constructor
  statics : List StaticDecl
  staticBlock : Option Body
  methods : List Method

def describe (r : Registry) (c : Class) : Description where
  name := c.name
  scope := c.scope
  parent := (r.parent? c).map fun p => (p.name, p.scope)
  fields := c.fields
  constructors := c.constructors
  statics := c.statics
  staticBlock := c.staticBlock?
  methods := c.methods.unplaced

end Registry

/-! ## Method tables -/

namespace MethodTable

theorem place_unplaced (e : Method) : ∀ xs : List Method,
    (place xs e).map (·.unplaced) = place (xs.map (·.unplaced)) e.unplaced
  | [] => rfl
  | x :: xs => by
    have hx : x.unplaced.signature = e.unplaced.signature ↔ x.signature = e.signature := Iff.rfl
    unfold place
    simp only [List.map_cons, hx]
    split
    · rfl
    · rw [List.map_cons, place_unplaced e xs]

theorem insert_unplaced (t : MethodTable) (e : Method) :
    (t.insert e).unplaced = place t.unplaced e.unplaced :=
  place_unplaced e t.entries

end MethodTable

namespace Registry

/-- Tables that differ in positions alone do so after the same declarations. -/
theorem declareMethods_unplaced {cls : String} {natives : Bindings} {id id' : ClassId} :
    ∀ (ds : List MethodDecl) {seen : List Signature} {t t' a b : MethodTable},
    declareMethods id cls natives ds seen t = .ok a →
    declareMethods id' cls natives ds seen t' = .ok b → t.unplaced = t'.unplaced →
    a.unplaced = b.unplaced
  | [], seen, t, t', a, b, ha, hb, h => by
    cases ha
    cases hb
    exact h
  | d :: ds, seen, t, t', a, b, ha, hb, h => by
    obtain ⟨-, impl, hi, ha⟩ := declareMethods_cons.1 ha
    obtain ⟨-, impl', hi', hb⟩ := declareMethods_cons.1 hb
    rw [hi] at hi'
    cases hi'
    refine declareMethods_unplaced ds ha hb ?_
    rw [MethodTable.insert_unplaced, MethodTable.insert_unplaced, h]
    rfl

/-! ## Descriptions -/

section Descriptions

variable {r r1 r2 : Registry} {u : UnitId} {natives : Bindings}

/-- Classes built from one source below parents of one description have one description. -/
theorem Built.describe_eq {p1 p2 : Option Class} {c1 c2 : Class} (h1 : r1.Built natives p1 c1)
    (h2 : r2.Built natives p2 c2) (hsource : c1.source = c2.source) (hscope : c1.scope = c2.scope)
    (hparent : p1.map r1.describe = p2.map r2.describe) : r1.describe c1 = r2.describe c2 := by
  obtain ⟨-, -, -, -, hf1, hm1, hk1⟩ := build_ok h1.build
  obtain ⟨-, -, -, -, hf2, hm2, hk2⟩ := build_ok h2.build
  have hinherited : (p1.map (·.fields)).getD [] = (p2.map (·.fields)).getD [] ∧
      ((p1.map Class.methods).getD {}).unplaced = ((p2.map Class.methods).getD {}).unplaced ∧
      p1.map (fun p => (p.name, p.scope)) = p2.map fun p => (p.name, p.scope) := by
    cases p1 with
    | none =>
      cases p2 with
      | none => exact ⟨rfl, rfl, rfl⟩
      | some q2 => cases hparent
    | some q1 =>
      cases p2 with
      | none => cases hparent
      | some q2 =>
        have hq : r1.describe q1 = r2.describe q2 := Option.some.inj hparent
        exact ⟨congrArg (·.fields) hq, congrArg (·.methods) hq,
          congrArg (fun d : Description => some (d.name, d.scope)) hq⟩
  obtain ⟨hfields, htables, hup⟩ := hinherited
  rw [hsource] at hf1 hm1 hk1
  have hconstructors : c1.constructors = c2.constructors := Except.ok.inj (hk1.symm.trans hk2)
  have hmethods : c1.methods.unplaced = c2.methods.unplaced := declareMethods_unplaced _ hm1 hm2 htables
  unfold describe
  rw [h1.parent?_eq, h2.parent?_eq, hf1, hf2, hfields, hconstructors, hmethods, hup]
  simp only [Class.name, Class.statics, Class.staticBlock?, hsource, hscope]

/-- A class that was there before is described as before. -/
theorem Extends.describe_eq {r r' : Registry} (h : r.Extends r') (hwf : r.WF fun _ _ => True) {c : Class}
    (hc : r.Has c) : r'.describe c = r.describe c := by
  unfold describe
  rw [hwf.parent?_extends h hc]

/-- A class of the batch that was there before. -/
theorem Registered.old {r' : Registry} {order : List ClassDecl} {cs : List Class}
    (hwf : r.WF fun _ _ => True) (h : Registered r u natives order cs r') {c d : Class} (hc : c ∈ cs)
    (hd : r.find? u c.name = some d) : r.Has c := by
  obtain ⟨hold, hscope, hname⟩ := hwf.find?_iff.1 hd
  obtain ⟨hnew, hu⟩ := h.has hc
  obtain rfl := h.wf.names (h.kept.has hold) hnew (hscope.trans hu.symm) hname
  exact hold

theorem Registered.describe_others {r' : Registry} {order : List ClassDecl} {cs : List Class}
    (h : Registered r u natives order cs r') (hwf : r.WF fun _ _ => True) {p : String}
    (hp : p ∉ order.map (·.name)) : (r'.get? u p).map r'.describe = (r.get? u p).map r.describe := by
  rw [h.get?_eq (fun _ => hp) fun _ => hp]
  cases hg : r.get? u p with
  | none => rfl
  | some d => exact congrArg some (h.kept.describe_eq hwf (hwf.get?_some hg).1)

/-- Two registrations of the same sources, each in an order of its own, describe each class alike: by
induction on the position of the class in the first, for its parent stands before it. -/
theorem Registered.describe_eq {order1 order2 : List ClassDecl} {cs1 cs2 : List Class}
    (hwf : r.WF fun _ _ => True) (hr1 : Registered r u natives order1 cs1 r1)
    (hr2 : Registered r u natives order2 cs2 r2) (hn : (order1.map (·.name)).Nodup)
    (hmem : ∀ s, s ∈ order2 ↔ s ∈ order1) : ∀ (n : Nat) {c1 c2 : Class}, c1.id = n → c1 ∈ cs1 →
    c2 ∈ cs2 → c1.name = c2.name → r1.describe c1 = r2.describe c2 := by
  have hnames (p : String) : p ∈ order2.map (·.name) ↔ p ∈ order1.map (·.name) := by simp [hmem]
  intro n
  induction n using Nat.strong_induction_on with
  | _ n ih =>
    intro c1 c2 hid hc1 hc2 hname
    have hs1 : c1.source ∈ order1 := hr1.source_mem hc1
    have hs2 : c2.source ∈ order1 := (hmem _).1 (hr2.source_mem hc2)
    have hsource : c1.source = c2.source := List.inj_on_of_nodup_map hn hs1 hs2 hname
    have hscope : c1.scope = c2.scope := (hr1.has hc1).2.trans (hr2.has hc2).2.symm
    cases hold : r.find? u c1.name with
    | some c =>
      have h1 := hr1.old hwf hc1 hold
      have h2 := hr2.old hwf hc2 (hname ▸ hold)
      obtain rfl := hwf.names h1 h2 hscope hname
      rw [hr1.kept.describe_eq hwf h1, hr2.kept.describe_eq hwf h1]
    | none =>
      have hb1 := hr1.built c1 hc1 hold
      have hb2 := hr2.built c2 hc2 (hname ▸ hold)
      refine hb1.describe_eq hb2 hsource hscope ?_
      rw [← hsource]
      cases hp : c1.source.parent with
      | none => rfl
      | some p =>
        show (r1.get? u p).map r1.describe = (r2.get? u p).map r2.describe
        by_cases hin : p ∈ order1.map (·.name)
        · -- the parent is a class of the batch
          obtain ⟨d1, hd1, rfl⟩ := List.mem_map.1 (hr1.names ▸ hin)
          obtain ⟨d2, hd2, heq⟩ := List.mem_map.1 (hr2.names ▸ (hnames _).2 hin)
          have hg1 := hr1.get?_mem hd1
          have hg2 := hr2.get?_mem hd2
          rw [heq] at hg2
          rw [hp] at hb1
          obtain ⟨-, hlt, -⟩ := hb1.before d1 hg1
          rw [hg1, hg2]
          exact congrArg some (ih d1.id (hid ▸ hlt) rfl hd1 hd2 heq.symm)
        · -- the parent was there before
          have hin2 : p ∉ order2.map (·.name) := fun h => hin ((hnames p).1 h)
          rw [hr1.describe_others hwf hin, hr2.describe_others hwf hin2]

end Descriptions

/-! ## Main statement -/

/-- Two lists of the same sources succeed alike, and a class of the batch then has the same description
in both registries. -/
theorem registerUnit_perm (changes : List Change) (u : UnitId) (natives : Bindings)
    {sources sources' : List ClassDecl} (h : sources.Perm sources') :
    ((∃ cs r1, (grow changes).registerUnit u sources natives = (.ok cs, r1)) ↔
      ∃ cs r2, (grow changes).registerUnit u sources' natives = (.ok cs, r2)) ∧
    ∀ cs1 cs2 r1 r2, (grow changes).registerUnit u sources natives = (.ok cs1, r1) →
      (grow changes).registerUnit u sources' natives = (.ok cs2, r2) →
      ∀ n ∈ sources.map (·.name), ∃ c1 ∈ cs1, ∃ c2 ∈ cs2, r1.get? u n = some c1 ∧
        r2.get? u n = some c2 ∧ r1.describe c1 = r2.describe c2 := by
  have hwf := grow_sound changes
  refine ⟨?_, fun cs1 cs2 r1 r2 h1 h2 n hn => ?_⟩
  · rw [registerUnit_isOk, registerUnit_isOk, registerBatch_isOk hwf, registerBatch_isOk hwf]
    exact ⟨.congr fun _ => h.mem_iff, .congr fun _ => h.mem_iff.symm⟩
  · obtain ⟨order1, ho1, hr1⟩ := registerBatch_registered hwf (registerUnit_ok h1)
    obtain ⟨order2, ho2, hr2⟩ := registerBatch_registered hwf (registerUnit_ok h2)
    have hmem (s : ClassDecl) : s ∈ order2 ↔ s ∈ order1 := by rw [ho1.mem, ho2.mem, h.mem_iff]
    obtain ⟨s, hs, rfl⟩ := List.mem_map.1 hn
    have hin1 : s ∈ order1 := (ho1.mem s).2 hs
    obtain ⟨c1, hc1, heq1⟩ := List.mem_map.1 (hr1.sources ▸ hin1)
    obtain ⟨c2, hc2, heq2⟩ := List.mem_map.1 (hr2.sources ▸ (hmem s).2 hin1)
    have hname1 : c1.name = s.name := congrArg ClassDecl.name heq1
    have hname2 : c2.name = s.name := congrArg ClassDecl.name heq2
    refine ⟨c1, hc1, c2, hc2, ?_, ?_, ?_⟩
    · rw [← hname1]
      exact hr1.get?_mem hc1
    · rw [← hname2]
      exact hr2.get?_mem hc2
    · exact hr1.describe_eq hwf hr2 ho1.nodup hmem _ rfl hc1 hc2 (hname1.trans hname2.symm)

/-- A class below one of its own batch. -/
def layered : List ClassDecl :=
  [{ name := "Logger", parent := some "Device", fields := [⟨"level", .int⟩] },
    { name := "Device", fields := [⟨"clock", .long⟩],
      methods := [.onInstance "time" [] .long { code := [.giveBack (some (.ofLong 0))] }] }]

/-- With the child first and with the parent first. -/
theorem registerUnit_perm_layered : ∃ cs1 cs2 r1 r2 c1 c2,
    (grow []).registerUnit 1 layered {} = (.ok cs1, r1) ∧
    (grow []).registerUnit 1 layered.reverse {} = (.ok cs2, r2) ∧
    r1.get? 1 "Logger" = some c1 ∧ r2.get? 1 "Logger" = some c2 ∧ r1.describe c1 = r2.describe c2 := by
  have hperm : layered.Perm layered.reverse := (List.reverse_perm layered).symm
  have hok : ((grow []).registerUnit 1 layered {}).1.toBool = true := by decide
  rcases h1 : (grow []).registerUnit 1 layered {} with ⟨e | cs1, r1⟩
  · rw [h1] at hok
    cases hok
  · obtain ⟨cs2, r2, h2⟩ := (registerUnit_perm [] 1 {} hperm).1.1 ⟨cs1, r1, h1⟩
    obtain ⟨c1, -, c2, -, hc1, hc2, heq⟩ :=
      (registerUnit_perm [] 1 {} hperm).2 cs1 cs2 r1 r2 h1 h2 "Logger" (by decide)
    exact ⟨cs1, cs2, r1, r2, c1, c2, rfl, h2, hc1, hc2, heq⟩

end Registry

end ObjectMachine
