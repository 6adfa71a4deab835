/-
The invariant of registries. A class is registered at its own position (`Has`), it was built from
its source below a parent that stands before it in the same scope or among the bundled classes
(`Built`), and the index has one entry for it, under its scope and name; `WF` says so of every class,
and opening a scope and registering classes one after the other (`Registers`) keep it. A batch is
registered in that way, and taking the classes from its first position on away again leaves the
registry as it was. `grow` applies a list of changes to the empty registry, and `CameIn` is the change
that a class came in with.

From the invariant follow the shape of a lineage and of a layout: the ancestors of a class are the
lineage of its parent, and the layout of an ancestor is an initial part of its own.
-/
import ObjectMachine.Registry.Batch
import Mathlib.Tactic

namespace ObjectMachine.Registry

/-! ## Definitions -/

/-- The class is registered at its own position. -/
def Has (r : Registry) (c : Class) : Prop := r.class? c.id = some c

/-- `b` has the classes of `a` at their positions, and perhaps further ones after them. -/
def Extends (a b : Registry) : Prop := a.classes.toList <+: b.classes.toList

/-- The class was built from its source below `parent`, which stands before it and is visible from
its scope under the name that the source gives. -/
structure Built (r : Registry) (natives : Bindings) (parent : Option Class) (c : Class) : Prop where
  build : Registry.build c.id c.scope c.source parent natives = .ok c
  named : c.source.parent = parent.map (·.name)
  before : ∀ p ∈ parent, r.Has p ∧ p.id < c.id ∧ (p.scope = c.scope ∨ p.scope = systemUnit)

/-- A well-formed registry: positions are the identities of classes; each class is `Built`, with
host functions that `came` relates to its position; the index has one entry for each class. -/
structure WF (r : Registry) (came : ClassId → Bindings → Prop) : Prop where
  ids : ∀ i c, r.class? i = some c → c.id = i
  built : ∀ c, r.Has c → ∃ natives parent, came c.id natives ∧ r.Built natives parent c
  keys : (r.names.map (·.1)).Nodup
  index : ∀ key id, (key, id) ∈ r.names ↔ ∃ c, r.class? id = some c ∧ key = (c.scope, c.name)

/-- `b` comes from `a` by registering sources in a scope one after the other. -/
def Registers (u : UnitId) (natives : Bindings) (a b : Registry) : Prop :=
  Relation.ReflTransGen (fun a b => ∃ s c, a.register u s natives = .ok (c, b)) a b

/-! ## Extension -/

theorem Extends.refl (r : Registry) : Extends r r := List.prefix_refl _

theorem Extends.trans {a b c : Registry} (h1 : Extends a b) (h2 : Extends b c) : Extends a c :=
  List.IsPrefix.trans h1 h2

theorem class?_toList (r : Registry) (i : ClassId) : r.class? i = r.classes.toList[i]? := by
  simp [class?]

theorem Extends.class? {a b : Registry} (h : Extends a b) {i : ClassId} {c : Class}
    (hc : a.class? i = some c) : b.class? i = some c := by
  rw [class?_toList] at hc ⊢
  obtain ⟨rest, hb⟩ := h
  obtain ⟨hi, -⟩ := List.getElem?_eq_some_iff.1 hc
  rw [← hb, List.getElem?_append_left hi]
  exact hc

theorem Extends.has {a b : Registry} (h : Extends a b) {c : Class} (hc : a.Has c) : b.Has c :=
  h.class? hc

theorem Extends.size_le {a b : Registry} (h : Extends a b) : a.size ≤ b.size := by
  simpa [size] using h.length_le

theorem Built.extends {a b : Registry} (h : Extends a b) {natives : Bindings} {parent : Option Class}
    {c : Class} (hc : a.Built natives parent c) : b.Built natives parent c :=
  ⟨hc.build, hc.named, fun p hp => ⟨h.has (hc.before p hp).1, (hc.before p hp).2⟩⟩

theorem push_extends (r : Registry) (c : Class) : Extends r (r.push c) := by
  simp [Extends, push]

theorem class?_push (r : Registry) (c : Class) (i : ClassId) :
    (r.push c).class? i = if i = r.size then some c else r.class? i := by
  unfold class? push size
  exact Array.getElem?_push

theorem class?_lt {r : Registry} {i : ClassId} {c : Class} (h : r.class? i = some c) : i < r.size := by
  unfold class? at h
  exact (Array.getElem?_eq_some_iff.1 h).1

/-! ## Looking up names -/

theorem lookup_get? {r : Registry} {u : UnitId} {name : String} {c : Class}
    (h : r.lookup u name = .ok c) : r.get? u name = some c := by
  unfold lookup at h
  split at h
  · rename_i d hd; cases h; exact hd
  · cases h

theorem Has.unique {r : Registry} {c d : Class} (hc : r.Has c) (hd : r.Has d) (h : c.id = d.id) :
    c = d := by
  unfold Has at hc hd
  rw [h, hd] at hc
  exact (Option.some.inj hc).symm

namespace WF

variable {r : Registry} {came : ClassId → Bindings → Prop}

theorem has_of_class? (hwf : r.WF came) {i : ClassId} {c : Class} (h : r.class? i = some c) :
    r.Has c := by
  have hi := hwf.ids i c h
  subst hi
  exact h

/-- A name is found in a scope exactly where a class of that name is registered. -/
theorem find?_iff (hwf : r.WF came) {u : UnitId} {name : String} {c : Class} :
    r.find? u name = some c ↔ r.Has c ∧ c.scope = u ∧ c.name = name := by
  unfold find?
  constructor
  · intro h
    obtain ⟨⟨key, id⟩, hf, hc⟩ := Option.bind_eq_some_iff.1 h
    have hkey : key = (u, name) := by simpa using List.find?_some hf
    obtain ⟨d, hd, heq⟩ := (hwf.index key id).1 (List.mem_of_find?_eq_some hf)
    rw [hd] at hc
    cases hc
    obtain ⟨rfl, rfl⟩ := Prod.mk.inj (hkey.symm.trans heq)
    exact ⟨hwf.has_of_class? hd, rfl, rfl⟩
  · rintro ⟨hc, rfl, rfl⟩
    have hm : ((c.scope, c.name), c.id) ∈ r.names := (hwf.index _ _).2 ⟨c, hc, rfl⟩
    rcases hf : r.names.find? (·.1 = (c.scope, c.name)) with _ | entry
    · have := List.find?_eq_none.1 hf _ hm
      simp at this
    · have hkey : entry.1 = (c.scope, c.name) := by simpa using List.find?_some hf
      have heq := List.inj_on_of_nodup_map hwf.keys (List.mem_of_find?_eq_some hf) hm hkey
      rw [hf, Option.bind_some, heq]
      exact hc

theorem find?_none_iff (hwf : r.WF came) {u : UnitId} {name : String} :
    r.find? u name = none ↔ ∀ c, r.Has c → c.scope = u → c.name ≠ name := by
  rw [Option.eq_none_iff_forall_ne_some]
  exact ⟨fun h c hc hu hn => h c (hwf.find?_iff.2 ⟨hc, hu, hn⟩),
    fun h c hf => let ⟨hc, hu, hn⟩ := hwf.find?_iff.1 hf; h c hc hu hn⟩

/-- No scope holds two classes of one name. -/
theorem names (hwf : r.WF came) {c d : Class} (hc : r.Has c) (hd : r.Has d) (hs : c.scope = d.scope)
    (hn : c.name = d.name) : c = d := by
  have h1 := hwf.find?_iff.2 ⟨hc, hs, hn⟩
  have h2 := hwf.find?_iff.2 ⟨hd, rfl, rfl⟩
  rw [h1] at h2
  exact Option.some.inj h2

/-- A name stands for a class of the scope or for a bundled one. -/
theorem get?_some (hwf : r.WF came) {u : UnitId} {name : String} {c : Class}
    (h : r.get? u name = some c) :
    r.Has c ∧ c.name = name ∧ (c.scope = u ∨ c.scope = systemUnit) := by
  unfold get? at h
  rcases Option.or_eq_some_iff.1 h with hf | ⟨-, hf⟩
  · obtain ⟨hc, hu, hn⟩ := hwf.find?_iff.1 hf
    exact ⟨hc, hn, .inl hu⟩
  · obtain ⟨hc, hu, hn⟩ := hwf.find?_iff.1 hf
    exact ⟨hc, hn, .inr hu⟩

theorem lookup_ok (hwf : r.WF came) {u : UnitId} {name : String} {c : Class}
    (h : r.lookup u name = .ok c) :
    r.Has c ∧ c.name = name ∧ (c.scope = u ∨ c.scope = systemUnit) :=
  hwf.get?_some (lookup_get? h)

theorem has_of_lookup (hwf : r.WF came) {u : UnitId} {name : String} {c : Class}
    (h : r.lookup u name = .ok c) : r.Has c :=
  (hwf.lookup_ok h).1

theorem mono (hwf : r.WF came) {came' : ClassId → Bindings → Prop}
    (h : ∀ i natives, i < r.size → came i natives → came' i natives) : r.WF came' := by
  refine ⟨hwf.ids, fun c hc => ?_, hwf.keys, hwf.index⟩
  obtain ⟨natives, parent, hcame, hb⟩ := hwf.built c hc
  exact ⟨natives, parent, h _ _ (class?_lt hc) hcame, hb⟩

end WF

/-! ## Building a class -/

/-- What a class takes from its position, its source and its parent. -/
theorem build_ok {id : ClassId} {u : UnitId} {source : ClassDecl} {parent : Option Class}
    {natives : Bindings} {c : Class} (h : build id u source parent natives = .ok c) :
    c.id = id ∧ c.scope = u ∧ c.source = source ∧
    c.ancestors = (parent.map (·.lineage)).getD [] ∧
    c.fields = (parent.map (·.fields)).getD [] ++
      source.fields.map (fun f => ⟨f.name, f.type, source.name⟩) ∧
    declareMethods id source.name natives source.methods [] ((parent.map (·.methods)).getD {}) =
      .ok c.methods ∧
    buildConstructors source = .ok c.constructors := by
  unfold build at h
  simp only at h
  split at h
  · cases h
  · rename_i methods hm
    split at h
    · cases h
    · rename_i constructors hk
      cases h
      exact ⟨rfl, rfl, rfl, rfl, rfl, hm, hk⟩

theorem WF.resolveParent_ok {r : Registry} {came : ClassId → Bindings → Prop} (hwf : r.WF came)
    {u : UnitId} {source : ClassDecl} {parent : Option Class}
    (h : r.resolveParent u source = .ok parent) :
    source.parent = parent.map (·.name) ∧
    ∀ p ∈ parent, r.Has p ∧ (p.scope = u ∨ p.scope = systemUnit) := by
  unfold resolveParent at h
  split at h
  · rename_i hn; cases h; exact ⟨hn, by simp⟩
  · rename_i name hn
    split at h
    · cases h
    · rcases hl : r.lookup u name with e | p
      · rw [hl] at h; cases h
      · rw [hl] at h; cases h
        obtain ⟨hm, hname, hu⟩ := hwf.lookup_ok hl
        refine ⟨by rw [hn, Option.map_some, hname], fun q hq => ?_⟩
        cases hq
        exact ⟨hm, hu⟩

/-- Registering finds the same source registered already, or builds a class at the next
position. -/
theorem register_ok {r r' : Registry} {u : UnitId} {source : ClassDecl} {natives : Bindings}
    {c : Class} (h : r.register u source natives = .ok (c, r')) :
    (r' = r ∧ r.find? u source.name = some c ∧ c.source = source) ∨
    (r.find? u source.name = none ∧ r' = r.push c ∧
      ∃ parent, r.resolveParent u source = .ok parent ∧
        build r.size u source parent natives = .ok c) := by
  unfold register at h
  split at h
  · rename_i d hd
    split at h
    · rename_i hs; cases h; exact .inl ⟨rfl, hd, hs⟩
    · cases h
  · rename_i hn
    split at h
    · cases h
    · rename_i parent hp
      split at h
      · cases h
      · rename_i d hb; cases h; exact .inr ⟨hn, rfl, parent, hp, hb⟩

theorem register_source {r r' : Registry} {u : UnitId} {source : ClassDecl} {natives : Bindings}
    {c : Class} (h : r.register u source natives = .ok (c, r')) : c.source = source := by
  rcases register_ok h with ⟨-, -, hc⟩ | ⟨-, -, parent, -, hb⟩
  · exact hc
  · exact (build_ok hb).2.2.1

theorem register_extends {r r' : Registry} {u : UnitId} {source : ClassDecl} {natives : Bindings}
    {c : Class} (h : r.register u source natives = .ok (c, r')) : Extends r r' := by
  rcases register_ok h with ⟨rfl, -, -⟩ | ⟨-, rfl, -⟩
  · exact .refl _
  · exact push_extends r c

/-! ## Every change keeps the invariant -/

section Changes

variable {came : ClassId → Bindings → Prop} {natives : Bindings}

theorem empty_wf : WF Registry.empty came := by
  have hno : ∀ i c, Registry.empty.class? i ≠ some c := by
    intro i c h
    simp [Registry.empty, class?] at h
  exact ⟨fun i c h => absurd h (hno i c), fun c h => absurd h (hno _ c), List.nodup_nil,
    fun key id => ⟨fun h => (List.not_mem_nil h).elim, fun ⟨c, hc, _⟩ => absurd hc (hno id c)⟩⟩

theorem WF.openUnit {r : Registry} (hwf : r.WF came) (name : String) :
    (r.openUnit name).2.WF came := by
  have hext : Extends r (r.openUnit name).2 := List.prefix_refl _
  refine ⟨hwf.ids, fun c hc => ?_, hwf.keys, hwf.index⟩
  obtain ⟨natives, parent, hcame, hb⟩ := hwf.built c hc
  exact ⟨natives, parent, hcame, hb.extends hext⟩

/-- A class that is built for the next position, under a name that its scope does not have yet. -/
theorem WF.push {r : Registry} (hwf : r.WF came) {c : Class} {parent : Option Class}
    (hid : c.id = r.size) (hcame : came c.id natives) (hb : (r.push c).Built natives parent c)
    (hfresh : r.find? c.scope c.name = none) : (r.push c).WF came := by
  have hext := push_extends r c
  have hnew : ∀ d, r.Has d → (c.scope, c.name) ≠ (d.scope, d.name) := fun d hd heq =>
    hwf.find?_none_iff.1 hfresh d hd (Prod.mk.inj heq).1.symm (Prod.mk.inj heq).2.symm
  have hlt : ∀ key id, (key, id) ∈ r.names → id < r.size := fun key id h =>
    let ⟨_, hd, _⟩ := (hwf.index key id).1 h; class?_lt hd
  refine ⟨fun i d hd => ?_, fun d hd => ?_, ?_, fun key id => ?_⟩
  · rw [class?_push] at hd
    split at hd
    · rename_i hi; cases hd; rw [hid, hi]
    · exact hwf.ids i d hd
  · unfold Has at hd
    rw [class?_push] at hd
    split at hd
    · cases hd; exact ⟨natives, parent, hcame, hb⟩
    · obtain ⟨natives', parent', hc, hbuilt⟩ := hwf.built d hd
      exact ⟨natives', parent', hc, hbuilt.extends hext⟩
  · refine List.nodup_cons.2 ⟨fun hm => ?_, hwf.keys⟩
    obtain ⟨entry, hm, hkey⟩ := List.mem_map.1 hm
    obtain ⟨d, hd, heq⟩ := (hwf.index entry.1 entry.2).1 hm
    exact hnew d (hwf.has_of_class? hd) (hkey.symm.trans heq)
  · rw [class?_push, Registry.push, List.mem_cons]
    split
    · rename_i hi
      subst hi
      constructor
      · rintro (h | h)
        · cases h; exact ⟨c, rfl, rfl⟩
        · exact absurd (hlt _ _ h) (lt_irrefl _)
      · rintro ⟨d, hd, rfl⟩
        cases hd
        exact .inl rfl
    · rename_i hi
      rw [← hwf.index]
      exact ⟨fun h => h.resolve_left fun heq => hi (Prod.mk.inj heq).2, .inr⟩

/-- A class that is built below a resolved parent comes after it. -/
theorem WF.built_push {r : Registry} (hwf : r.WF came) {u : UnitId} {source : ClassDecl} {c : Class}
    {parent : Option Class} (hp : r.resolveParent u source = .ok parent)
    (hb : build r.size u source parent natives = .ok c) : (r.push c).Built natives parent c := by
  obtain ⟨hid, hscope, hsource, -⟩ := build_ok hb
  obtain ⟨hnamed, hbefore⟩ := hwf.resolveParent_ok hp
  refine ⟨by rw [hid, hscope, hsource]; exact hb, by rw [hsource]; exact hnamed, fun p hpp => ?_⟩
  obtain ⟨hph, hu⟩ := hbefore p hpp
  exact ⟨(push_extends r c).has hph, by rw [hid]; exact class?_lt hph, by rw [hscope]; exact hu⟩

theorem WF.register {r r' : Registry} (hwf : r.WF came) {u : UnitId} {source : ClassDecl} {c : Class}
    (hcame : ∀ i, r.size ≤ i → came i natives)
    (h : r.register u source natives = .ok (c, r')) : r'.WF came := by
  rcases register_ok h with ⟨rfl, -, -⟩ | ⟨hnone, rfl, parent, hp, hb⟩
  · exact hwf
  obtain ⟨hid, hscope, hsource, -⟩ := build_ok hb
  have hname : c.name = source.name := by rw [Class.name, hsource]
  exact hwf.push hid (hcame _ (le_of_eq hid.symm)) (hwf.built_push hp hb)
    (by rw [hscope, hname]; exact hnone)

/-- Registering one source after the other keeps the invariant and every class. -/
theorem Registers.wf_extends {r r' : Registry} {u : UnitId} (h : Registers u natives r r')
    (hwf : r.WF came) (hcame : ∀ i, r.size ≤ i → came i natives) : r'.WF came ∧ Extends r r' := by
  induction h with
  | refl => exact ⟨hwf, .refl r⟩
  | tail _ h ih =>
    obtain ⟨s, c, h⟩ := h
    obtain ⟨hwf', hx⟩ := ih
    exact ⟨hwf'.register (fun i hi => hcame i (hx.size_le.trans hi)) h, hx.trans (register_extends h)⟩

theorem registerAll_registers (u : UnitId) (natives : Bindings) : ∀ (sources : List ClassDecl)
    (r : Registry), Registers u natives r (registerAll u natives sources r).2
  | [], r => .refl
  | s :: rest, r => by
    unfold registerAll
    split
    · exact .refl
    · rename_i c r1 h1
      have hrest := registerAll_registers u natives rest r1
      split <;> rename_i h <;> rw [h] at hrest <;> exact hrest.head ⟨s, c, h1⟩

theorem registerNames_registers (u : UnitId) (natives : Bindings) : ∀ (names : List String)
    (pending : List ClassDecl) (r : Registry),
    Registers u natives r (registerNames u natives names pending r).2
  | [], pending, r => .refl
  | name :: names, pending, r => by
    unfold registerNames
    split
    · exact .refl
    · rename_i chain _
      have hchain := registerAll_registers u natives chain r
      split
      · rename_i e r1 h1; rw [h1] at hchain; exact hchain
      · rename_i cs r1 h1
        rw [h1] at hchain
        simp only
        split
        all_goals
          rename_i h
          have hrest := registerNames_registers u natives names
            (pending.filter fun s => !chain.any (·.name = s.name)) r1
          rw [h] at hrest
          exact hchain.trans hrest

/-- A batch is registered source by source, as far as it goes. -/
theorem registerBatch_registers (r : Registry) (u : UnitId) (sources : List ClassDecl)
    (natives : Bindings) : Registers u natives r (r.registerBatch u sources natives).2 := by
  unfold registerBatch
  split
  · exact .refl
  · exact registerNames_registers _ _ _ _ _

/-! ## Taking a batch away again -/

theorem truncate_push {r : Registry} {n : Nat} (hn : n ≤ r.size) (c : Class) :
    (r.push c).truncate n = r.truncate n := by
  have hclasses : (r.classes.push c).take n = r.classes.take n := by
    apply Array.ext'
    rw [Array.take_eq_extract, Array.take_eq_extract, Array.toList_extract, Array.toList_extract,
      Array.toList_push]
    exact List.take_append_of_le_length hn
  unfold push truncate
  simp only [hclasses, List.filter_cons, decide_eq_true_eq]
  rw [if_neg (Nat.not_lt_of_le hn)]

theorem WF.truncate_size {r : Registry} (hwf : r.WF came) : r.truncate r.size = r := by
  have hclasses : r.classes.take r.size = r.classes := by
    apply Array.ext'
    simp [size]
  have hnames : r.names.filter (·.2 < r.size) = r.names := by
    refine List.filter_eq_self.2 fun entry hm => ?_
    obtain ⟨c, hc, -⟩ := (hwf.index entry.1 entry.2).1 hm
    exact decide_eq_true (class?_lt hc)
  unfold truncate
  rw [hclasses, hnames]

/-- Taking away what was registered leaves the registry as it was. -/
theorem Registers.truncate {r r' : Registry} {u : UnitId} (h : Registers u natives r r')
    (hwf : r.WF fun _ _ => True) : r'.truncate r.size = r := by
  induction h with
  | refl => exact hwf.truncate_size
  | tail hr h ih =>
    obtain ⟨s, c, h⟩ := h
    have hle := (Registers.wf_extends hr hwf fun _ _ => trivial).2.size_le
    rcases register_ok h with ⟨rfl, -, -⟩ | ⟨-, rfl, -⟩
    · exact ih
    · rw [truncate_push hle, ih]

/-- A unit that fails leaves the registry as it was. -/
theorem registerUnit_error {r r' : Registry} {u : UnitId} {sources : List ClassDecl} {e : Failure}
    (hwf : r.WF fun _ _ => True) (h : r.registerUnit u sources natives = (.error e, r')) : r' = r := by
  have hr := registerBatch_registers r u sources natives
  unfold registerUnit at h
  split at h
  · cases h
  · rename_i hb
    rw [hb] at hr
    cases h
    exact hr.truncate hwf

/-- A unit that succeeds is registered source by source. -/
theorem registerUnit_ok {r r' : Registry} {u : UnitId} {sources : List ClassDecl} {cs : List Class}
    (h : r.registerUnit u sources natives = (.ok cs, r')) :
    r.registerBatch u sources natives = (.ok cs, r') := by
  unfold registerUnit at h
  split at h
  · rename_i hb; cases h; exact hb
  · cases h

theorem registerUnit_wf_extends {r : Registry} {u : UnitId} {sources : List ClassDecl}
    (hwf : r.WF came) (hcame : ∀ i, r.size ≤ i → came i natives) :
    (r.registerUnit u sources natives).2.WF came ∧ Extends r (r.registerUnit u sources natives).2 := by
  rcases h : r.registerUnit u sources natives with ⟨e | cs, r'⟩
  · rw [registerUnit_error (hwf.mono fun _ _ _ _ => trivial) h]
    exact ⟨hwf, .refl r⟩
  · have hr := registerBatch_registers r u sources natives
    rw [registerUnit_ok h] at hr
    exact hr.wf_extends hwf hcame

end Changes

/-! ## Histories -/

/-- Something a host asks of a registry. -/
inductive Change where
  | openUnit (name : String)
  | register (u : UnitId) (source : ClassDecl) (natives : Bindings)
  | registerUnit (u : UnitId) (sources : List ClassDecl) (natives : Bindings)

/-- The host functions that a change registers classes with. -/
def Change.natives? : Change → Option Bindings
  | .openUnit _ => none
  | .register _ _ natives => some natives
  | .registerUnit _ _ natives => some natives

/-- The registry after a change. -/
def change (r : Registry) : Change → Registry
  | .openUnit name => (r.openUnit name).2
  | .register u source natives =>
    match r.register u source natives with
    | .ok (_, r') => r'
    | .error _ => r
  | .registerUnit u sources natives => (r.registerUnit u sources natives).2

/-- The registry after a list of changes. -/
def grow (changes : List Change) : Registry := changes.foldl change Registry.empty

/-- The class at a position came in with one of the changes, and `natives` were its host
functions. -/
def CameIn (changes : List Change) (id : ClassId) (natives : Bindings) : Prop :=
  ∃ before c after, changes = before ++ c :: after ∧ c.natives? = some natives ∧
    (grow before).size ≤ id ∧ id < ((grow before).change c).size

theorem grow_snoc (changes : List Change) (c : Change) :
    grow (changes ++ [c]) = (grow changes).change c := by
  simp [grow]

theorem change_wf_extends {r : Registry} {came : ClassId → Bindings → Prop} (hwf : r.WF came)
    (c : Change) (hcame : ∀ i natives, r.size ≤ i → c.natives? = some natives → came i natives) :
    (r.change c).WF came ∧ Extends r (r.change c) := by
  cases c with
  | openUnit name => exact ⟨hwf.openUnit name, .refl r⟩
  | register u source natives =>
    simp only [change]
    split
    · rename_i c r' h
      exact ⟨hwf.register (fun i hi => hcame i natives hi rfl) h, register_extends h⟩
    · exact ⟨hwf, .refl r⟩
  | registerUnit u sources natives =>
    exact registerUnit_wf_extends hwf fun i hi => hcame i natives hi rfl

/-- Every history of changes ends in a well-formed registry. -/
theorem grow_wf (changes : List Change) : (grow changes).WF (CameIn changes) := by
  induction changes using List.reverseRecOn with
  | nil => exact empty_wf
  | append_singleton changes c ih =>
    have hold : (grow changes).WF fun i natives =>
        CameIn changes i natives ∨ ((grow changes).size ≤ i ∧ c.natives? = some natives) :=
      ih.mono fun i natives _ h => .inl h
    obtain ⟨hwf, -⟩ := change_wf_extends hold c fun i natives hi hc => .inr ⟨hi, hc⟩
    rw [grow_snoc]
    refine hwf.mono fun i natives hi h => ?_
    rcases h with ⟨before, d, after, rfl, hd, hlo, hhi⟩ | ⟨hlo, hc⟩
    · exact ⟨before, d, after ++ [c], by simp, hd, hlo, hhi⟩
    · exact ⟨changes, c, [], rfl, hc, hlo, hi⟩

theorem grow_sound (changes : List Change) : (grow changes).WF fun _ _ => True :=
  (grow_wf changes).mono fun _ _ _ _ => trivial

/-! ## Parents, lineages and layouts -/

theorem Built.parent?_eq {r : Registry} {natives : Bindings} {parent : Option Class} {c : Class}
    (h : r.Built natives parent c) : r.parent? c = parent := by
  obtain ⟨-, -, -, ha, -⟩ := build_ok h.build
  unfold parent? Class.parent?
  rw [ha]
  cases parent with
  | none => rfl
  | some p => exact (h.before p rfl).1

namespace WF

variable {r : Registry} {came : ClassId → Bindings → Prop}

/-- Every class is built from its source below its parent in the registry. -/
theorem built_parent (hwf : r.WF came) {c : Class} (hc : r.Has c) :
    ∃ natives, came c.id natives ∧ r.Built natives (r.parent? c) c := by
  obtain ⟨natives, parent, hcame, hb⟩ := hwf.built c hc
  exact ⟨natives, hcame, hb.parent?_eq ▸ hb⟩

/-- The parent is registered before the class. -/
theorem parent_before (hwf : r.WF came) {c p : Class} (hc : r.Has c) (hp : r.parent? c = some p) :
    r.Has p ∧ p.id < c.id := by
  obtain ⟨natives, -, hb⟩ := hwf.built_parent hc
  exact ⟨(hb.before p hp).1, (hb.before p hp).2.1⟩

theorem ancestors_eq (hwf : r.WF came) {c : Class} (hc : r.Has c) :
    c.ancestors = ((r.parent? c).map (·.lineage)).getD [] := by
  obtain ⟨natives, -, hb⟩ := hwf.built_parent hc
  exact (build_ok hb.build).2.2.2.1

/-- The parent of a class stays the same when classes are added. -/
theorem parent?_extends (hwf : r.WF came) {r' : Registry} (hx : r.Extends r') {c : Class} (hc : r.Has c) :
    r'.parent? c = r.parent? c := by
  have ha := hwf.ancestors_eq hc
  unfold Registry.parent? Class.parent? at ha ⊢
  cases hid : c.ancestors.head? with
  | none => rfl
  | some id =>
    rw [hid, Option.bind_some] at ha
    rw [Option.bind_some, Option.bind_some]
    cases hp : r.class? id with
    | none => rw [hp] at ha; rw [ha] at hid; cases hid
    | some p => exact hx.class? hp

theorem ancestors_of_parent (hwf : r.WF came) {c p : Class} (hc : r.Has c)
    (hp : r.parent? c = some p) : c.ancestors = p.lineage := by
  rw [hwf.ancestors_eq hc, hp]; rfl

theorem exists_parent (hwf : r.WF came) {c : Class} (hc : r.Has c) {a : ClassId}
    (ha : a ∈ c.ancestors) : ∃ p, r.parent? c = some p ∧ a ∈ p.lineage := by
  rw [hwf.ancestors_eq hc] at ha
  cases hp : r.parent? c with
  | none => rw [hp] at ha; cases ha
  | some p => rw [hp] at ha; exact ⟨p, rfl, ha⟩

theorem lineage_of_parent (hwf : r.WF came) {c p : Class} (hc : r.Has c) (hp : r.parent? c = some p) :
    c.lineage = c.id :: p.lineage := by
  rw [Class.lineage, hwf.ancestors_of_parent hc hp]

theorem lineage_of_no_parent (hwf : r.WF came) {c : Class} (hc : r.Has c) (hp : r.parent? c = none) :
    c.lineage = [c.id] := by
  rw [Class.lineage, hwf.ancestors_eq hc, hp]; rfl

/-- The layout of the parent is an initial part of the layout of the class. -/
theorem fields_prefix (hwf : r.WF came) {c p : Class} (hc : r.Has c) (hp : r.parent? c = some p) :
    p.fields <+: c.fields := by
  obtain ⟨natives, -, hb⟩ := hwf.built_parent hc
  obtain ⟨-, -, -, -, hf, -⟩ := build_ok hb.build
  rw [hf, hp]
  exact List.prefix_append _ _

/-- What holds of a class and passes on to parents holds of the whole lineage, and the lineage
consists of registered classes. -/
theorem lineage_induction (hwf : r.WF came) {P : Class → Prop}
    (hstep : ∀ c p, r.Has c → r.parent? c = some p → P c → P p) :
    ∀ (n : Nat) {c : Class}, c.id = n → r.Has c → P c →
      ∀ a ∈ c.lineage, ∃ d, r.Has d ∧ d.id = a ∧ P d := by
  intro n
  induction n using Nat.strong_induction_on with
  | _ n ih =>
    intro c hn hc hP a ha
    cases hp : r.parent? c with
    | none =>
      rw [hwf.lineage_of_no_parent hc hp, List.mem_singleton] at ha
      exact ⟨c, hc, ha.symm, hP⟩
    | some p =>
      rw [hwf.lineage_of_parent hc hp, List.mem_cons] at ha
      obtain ⟨hph, hlt⟩ := hwf.parent_before hc hp
      rcases ha with rfl | ha
      · exact ⟨c, hc, rfl, hP⟩
      · exact ih p.id (hn ▸ hlt) rfl hph (hstep c p hc hp hP) a ha

/-- Ancestors are registered before the class. -/
theorem ancestors_lt (hwf : r.WF came) {c : Class} (hc : r.Has c) {a : ClassId}
    (ha : a ∈ c.ancestors) : a < c.id := by
  obtain ⟨p, hp, ha⟩ := hwf.exists_parent hc ha
  obtain ⟨hph, hlt⟩ := hwf.parent_before hc hp
  obtain ⟨d, -, rfl, hle⟩ := hwf.lineage_induction (P := fun d => d.id ≤ p.id)
    (fun d q hd hq hle => (hwf.parent_before hd hq).2.le.trans hle) _ rfl hph le_rfl a ha
  exact hle.trans_lt hlt

/-- The lineage of an ancestor consists of ancestors. -/
theorem ancestors_trans (hwf : r.WF came) {c q : Class} (hc : r.Has c) (hq : r.Has q)
    (h : q.id ∈ c.ancestors) {a : ClassId} (ha : a ∈ q.lineage) : a ∈ c.ancestors := by
  obtain ⟨p, hp, h⟩ := hwf.exists_parent hc h
  obtain ⟨e, he, hid, hsub⟩ := hwf.lineage_induction (P := fun d => ∀ a ∈ d.lineage, a ∈ c.ancestors)
    (fun d q hd hq hsub a ha => hsub a (by
      rw [hwf.lineage_of_parent hd hq]; exact List.mem_cons_of_mem _ ha))
    _ rfl (hwf.parent_before hc hp).1 (fun a ha => by rw [hwf.ancestors_of_parent hc hp]; exact ha) q.id h
  rw [he.unique hq hid] at hsub
  exact hsub a ha

/-- A class of the lineage is registered, and its layout is an initial part of the whole. -/
theorem lineage_fields (hwf : r.WF came) {c d : Class} (hc : r.Has c) (hd : r.Has d)
    (h : d.id ∈ c.lineage) : d.fields <+: c.fields := by
  obtain ⟨e, he, hid, hpre⟩ := hwf.lineage_induction (P := fun d => d.fields <+: c.fields)
    (fun a p ha hp hpre => (hwf.fields_prefix ha hp).trans hpre) _ rfl hc (List.prefix_refl _) d.id h
  unfold Has at hd he
  rw [hid, hd] at he
  cases he
  exact hpre

/-- The classes of a lineage are in one scope, or bundled. -/
theorem lineage_scope (hwf : r.WF came) {c d : Class} (hc : r.Has c) (hd : r.Has d)
    (h : d.id ∈ c.lineage) : d.scope = c.scope ∨ d.scope = systemUnit := by
  have hstep : ∀ a p, r.Has a → r.parent? a = some p → (a.scope = c.scope ∨ a.scope = systemUnit) →
      (p.scope = c.scope ∨ p.scope = systemUnit) := by
    intro a p ha hp hscope
    obtain ⟨natives, -, hb⟩ := hwf.built_parent ha
    rcases (hb.before p hp).2.2 with heq | heq
    · rw [heq]; exact hscope
    · exact .inr heq
  obtain ⟨e, he, hid, hscope⟩ := hwf.lineage_induction hstep _ rfl hc (.inl rfl) d.id h
  rw [he.unique hd hid] at hscope
  exact hscope

/-- A field that a class does not declare itself is where its parent has it. -/
theorem fieldIndex?_parent (hwf : r.WF came) {c p : Class} (hc : r.Has c) (hp : r.parent? c = some p)
    {name : String} (hno : name ∉ c.source.fields.map (·.name)) :
    c.fieldIndex? name = p.fieldIndex? name := by
  obtain ⟨natives, -, hb⟩ := hwf.built_parent hc
  obtain ⟨-, -, -, -, hf, -⟩ := build_ok hb.build
  rw [hp] at hf
  have hown : (c.source.fields.map fun f => FieldCell.mk f.name f.type c.source.name).reverse.findIdx?
      (·.name = name) = none := by
    rw [List.findIdx?_eq_none_iff]
    intro cell hcell
    obtain ⟨f, hmem, rfl⟩ := List.mem_map.1 (List.mem_reverse.1 hcell)
    simpa using fun heq => hno (List.mem_map.2 ⟨f, hmem, heq⟩)
  unfold Class.fieldIndex?
  rw [hf, List.reverse_append, List.findIdx?_append, hown]
  simp only [Option.map_some, Option.getD_some, Option.none_or, Option.map_map]
  cases hi : p.fields.reverse.findIdx? (·.name = name) with
  | none => rfl
  | some i => simp; omega

/-- A field that no class below an ancestor declares is where the ancestor has it. -/
theorem fieldIndex?_ancestor (hwf : r.WF came) {d : Class} (hd : r.Has d) {name : String} :
    ∀ (n : Nat) {c : Class}, c.id = n → r.Has c → d.id ∈ c.lineage →
      (∀ a, r.Has a → a.id ∈ c.lineage → d.id ∈ a.ancestors → name ∉ a.source.fields.map (·.name)) →
      c.fieldIndex? name = d.fieldIndex? name := by
  intro n
  induction n using Nat.strong_induction_on with
  | _ n ih =>
    intro c hn hc hmem hno
    rcases List.mem_cons.1 hmem with heq | hmem
    · rw [hd.unique hc heq]
    · obtain ⟨p, hp, hdp⟩ := hwf.exists_parent hc hmem
      obtain ⟨hph, hlt⟩ := hwf.parent_before hc hp
      rw [hwf.fieldIndex?_parent hc hp (hno c hc List.mem_cons_self hmem)]
      refine ih p.id (hn ▸ hlt) rfl hph hdp fun a ha hap => hno a ha ?_
      rw [hwf.lineage_of_parent hc hp]
      exact List.mem_cons_of_mem _ hap

/-- The owner of a static field is a class of the lineage. -/
theorem findStatic?_some (hwf : r.WF came) {c owner : Class} {name : String} {slot : Nat}
    (h : r.findStatic? c name = some (owner, slot)) :
    r.Has owner ∧ owner.id ∈ c.lineage ∧ owner.staticIndex? name = some slot := by
  unfold findStatic? at h
  obtain ⟨a, ha, h⟩ := List.exists_of_findSome?_eq_some h
  obtain ⟨d, hd, h⟩ := Option.bind_eq_some_iff.1 h
  obtain ⟨i, hi, h⟩ := Option.map_eq_some_iff.1 h
  cases h
  have hid := hwf.ids a owner hd
  subst hid
  exact ⟨hd, ha, hi⟩

end WF

end ObjectMachine.Registry
