/-
The registered classes are a forest. Positions are handed out by the number of classes, and the parent
of a class is looked up before the class itself is entered, so that a parent always stands at a smaller
position: going up from a class never leads back to it and comes to an end (`Upward`), even where a
class hides a bundled class of its own name that it descends from. To descend from a class is to reach
it by parent steps, and it is a partial order of the registered classes.
-/
import ObjectMachine.Proofs.Registry.Methods

namespace ObjectMachine

theorem Class.descendsFrom_iff {c d : Class} : c.descendsFrom d = true ↔ d.id ∈ c.lineage :=
  List.contains_iff_mem

namespace Registry

/-! ## Definitions -/

/-- The way up from a class: the class, its parent, the parent of that, up to a class that has none. -/
inductive Upward (r : Registry) : Class → List Class → Prop where
  | top {c : Class} : c.parent? = none → Upward r c [c]
  | step {c p : Class} {way : List Class} :
      r.parent? c = some p → Upward r p way → Upward r c (c :: way)

/-- A registry whose classes form a forest. -/
structure Forest (r : Registry) : Prop where
  /-- A class is at the position that it has as its own. -/
  ids : ∀ i c, r.class? i = some c → c.id = i
  /-- The index has no key twice, and exactly the keys of registered classes. -/
  keys : (r.names.map (·.1)).Nodup
  index : ∀ key id, (key, id) ∈ r.names ↔ ∃ c, r.class? id = some c ∧ key = (c.scope, c.name)
  /-- A class has a parent if its source names one; it is registered under that name, before the
  class, in the same scope or among the bundled classes. -/
  top : ∀ c, r.Has c → (c.parent? = none ↔ c.source.parent = none)
  parent : ∀ c, r.Has c → ∀ id, c.parent? = some id → ∃ p, r.class? id = some p ∧
    c.source.parent = some p.name ∧ id < c.id ∧ (p.scope = c.scope ∨ p.scope = systemUnit)
  /-- No chain of parents leads back. -/
  loopless : ∀ c, ¬ Relation.TransGen (fun a b => r.parent? a = some b) c c
  /-- Going up from a class ends, and whether the class descends from another is whether that one is
  met on the way, where classes are told apart by their positions. -/
  ends : ∀ c, r.Has c → ∃ way, r.Upward c way ∧ ∀ d, c.descendsFrom d = way.any (·.id = d.id)
  descends : ∀ c d, r.Has c → r.Has d → (c.descendsFrom d = true ↔ r.OnChain c d)
  order : IsPartialOrder { c // r.Has c } fun c d => c.1.descendsFrom d.1 = true

/-! ## The way up -/

namespace WF

variable {r : Registry} {came : ClassId → Bindings → Prop}

/-- The parent that a class holds the position of is the one its source names. -/
theorem parent_named (hwf : r.WF came) {c : Class} (hc : r.Has c) :
    c.parent? = (r.parent? c).map (·.id) ∧ c.source.parent = (r.parent? c).map (·.name) := by
  obtain ⟨natives, -, hb⟩ := hwf.built_parent hc
  refine ⟨?_, hb.named⟩
  rw [Class.parent?, hwf.ancestors_eq hc]
  cases r.parent? c <;> rfl

theorem parent?_none_iff (hwf : r.WF came) {c : Class} (hc : r.Has c) :
    r.parent? c = none ↔ c.parent? = none := by
  rw [(hwf.parent_named hc).1, Option.map_eq_none_iff]

/-- Going up from a class comes to an end, after the classes of its lineage. -/
theorem upward (hwf : r.WF came) : ∀ (n : Nat) {c : Class}, c.id = n → r.Has c →
    ∃ way, r.Upward c way ∧ c.lineage = way.map (·.id) := by
  intro n
  induction n using Nat.strong_induction_on with
  | _ n ih =>
    intro c hn hc
    cases hp : r.parent? c with
    | none => exact ⟨[c], .top ((hwf.parent?_none_iff hc).1 hp), hwf.lineage_of_no_parent hc hp⟩
    | some p =>
      obtain ⟨hph, hlt⟩ := hwf.parent_before hc hp
      obtain ⟨way, hway, hids⟩ := ih p.id (hn ▸ hlt) rfl hph
      exact ⟨c :: way, .step hp hway, by rw [hwf.lineage_of_parent hc hp, hids, List.map_cons]⟩

/-- The classes above a class by parent steps are registered, and in its lineage. -/
theorem onChain_mem (hwf : r.WF came) {c d : Class} (hc : r.Has c) (h : r.OnChain c d) :
    r.Has d ∧ d.id ∈ c.lineage := by
  induction h using Relation.ReflTransGen.head_induction_on with
  | refl => exact ⟨hc, List.mem_cons_self⟩
  | @head a b hp _ ih =>
    obtain ⟨hd, hmem⟩ := ih (hwf.parent_before hc hp).1
    exact ⟨hd, by rw [hwf.lineage_of_parent hc hp]; exact List.mem_cons_of_mem _ hmem⟩

/-- A class of the lineage is reached by parent steps. -/
theorem onChain_of_mem (hwf : r.WF came) {c d : Class} (hc : r.Has c) (hd : r.Has d)
    (h : d.id ∈ c.lineage) : r.OnChain c d := by
  have hstep (a p : Class) (_ : r.Has a) (hp : r.parent? a = some p) (ha : r.OnChain c a) :
      r.OnChain c p := ha.tail hp
  obtain ⟨e, he, hid, hchain⟩ := hwf.lineage_induction hstep _ rfl hc .refl d.id h
  exact he.unique hd hid ▸ hchain

theorem descendsFrom_iff (hwf : r.WF came) {c d : Class} (hc : r.Has c) (hd : r.Has d) :
    c.descendsFrom d = true ↔ r.OnChain c d :=
  Class.descendsFrom_iff.trans ⟨hwf.onChain_of_mem hc hd, fun h => (hwf.onChain_mem hc h).2⟩

/-- A class that descends from another is registered after it, unless they are the same. -/
theorem descendsFrom_le (hwf : r.WF came) {c d : Class} (hc : r.Has c)
    (h : c.descendsFrom d = true) : d.id ≤ c.id := by
  rcases List.mem_cons.1 (Class.descendsFrom_iff.1 h) with heq | hmem
  · exact heq.le
  · exact (hwf.ancestors_lt hc hmem).le

/-- Each parent step leads to a smaller position. -/
theorem transGen_lt (hwf : r.WF came) {c d : Class} (hc : r.Has c)
    (h : Relation.TransGen (fun a b => r.parent? a = some b) c d) : d.id < c.id := by
  obtain ⟨p, hp, hchain⟩ := Relation.TransGen.head'_iff.1 h
  obtain ⟨hph, hlt⟩ := hwf.parent_before hc hp
  have hle := hwf.descendsFrom_le hph ((hwf.descendsFrom_iff hph (hwf.onChain_mem hph hchain).1).2 hchain)
  exact hle.trans_lt hlt

theorem descendsFrom_order (hwf : r.WF came) :
    IsPartialOrder { c // r.Has c } fun c d => c.1.descendsFrom d.1 = true where
  refl c := (hwf.descendsFrom_iff c.2 c.2).2 .refl
  trans a b c hab hbc := (hwf.descendsFrom_iff a.2 c.2).2
    (((hwf.descendsFrom_iff a.2 b.2).1 hab).trans ((hwf.descendsFrom_iff b.2 c.2).1 hbc))
  antisymm a b hab hba :=
    Subtype.ext (a.2.unique b.2 ((hwf.descendsFrom_le b.2 hba).antisymm (hwf.descendsFrom_le a.2 hab)))

end WF

/-! ## Main statement -/

/-- After every history of changes, whichever of them succeed, the classes form a forest. -/
theorem grow_forest (changes : List Change) : (grow changes).Forest := by
  have hwf := grow_sound changes
  constructor
  · exact hwf.ids
  · exact hwf.keys
  · exact hwf.index
  · intro c hc
    obtain ⟨hid, hname⟩ := hwf.parent_named hc
    rw [hid, hname, Option.map_eq_none_iff, Option.map_eq_none_iff]
  · intro c hc id hid
    obtain ⟨heq, hname⟩ := hwf.parent_named hc
    obtain ⟨p, hp, rfl⟩ := Option.map_eq_some_iff.1 (heq.symm.trans hid)
    obtain ⟨natives, -, hb⟩ := hwf.built_parent hc
    obtain ⟨hph, hlt, hscope⟩ := hb.before p hp
    exact ⟨p, hph, by rw [hname, hp]; rfl, hlt, hscope⟩
  · intro c hloop
    -- a class on a loop is the parent of a class, but perhaps not of a registered one
    obtain ⟨a, -, hac⟩ := Relation.TransGen.tail'_iff.1 hloop
    obtain ⟨id, -, hc⟩ := Option.bind_eq_some_iff.1 hac
    exact lt_irrefl _ (hwf.transGen_lt (hwf.has_of_class? hc) hloop)
  · intro c hc
    obtain ⟨way, hway, hids⟩ := hwf.upward _ rfl hc
    refine ⟨way, hway, fun d => ?_⟩
    rw [Bool.eq_iff_iff, Class.descendsFrom_iff, hids]
    simp
  · intro c d hc hd
    exact hwf.descendsFrom_iff hc hd
  · exact hwf.descendsFrom_order

/-- A class may hide a bundled class that it descends from. -/
example : ((grow [.register systemUnit { name := "Stack" } {}, .openUnit "own",
      .register 1 { name := "Deque", parent := some "Stack" } {},
      .register 1 { name := "Stack", parent := some "Deque" } {}]).find? 1 "Stack").map (·.lineage) =
    some [2, 1, 0] := by
  decide

end Registry

end ObjectMachine
