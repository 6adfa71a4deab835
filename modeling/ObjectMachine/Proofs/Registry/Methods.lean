/-
The closed method table of a class against a walk up the hierarchy. `Nearest` is the walk: it goes
from a class to its parent, to the parent of that, and so on, and stops at the first class that
declares a method under the signature. In every registry that a history of changes leads to, the
table of a class answers a signature exactly when the walk finds a declaration, and the answer is
the entry of that declaration (`EntryOf`), with the host function that was bound when the
declaring class came in. A class keeps the signatures of its parent's table in their slots.
-/
import ObjectMachine.Proofs.Registry.Invariant
import ObjectMachine.Proofs.MethodTable

namespace ObjectMachine

/-- The key a method is declared under. -/
def MethodDecl.signature (d : MethodDecl) : Signature := ⟨d.name, d.params⟩

/-- The declaration of a class under a signature. -/
def Class.declared? (c : Class) (s : Signature) : Option MethodDecl :=
  c.source.methods.find? (·.signature = s)

namespace Registry

/-! ## The walk -/

/-- `owner` is the first class from `c` upwards that declares a method under `s`, and `d` is its
declaration. -/
inductive Nearest (r : Registry) (s : Signature) : Class → Class → MethodDecl → Prop where
  | own {c : Class} {d : MethodDecl} : c.declared? s = some d → Nearest r s c c d
  | inherited {c p owner : Class} {d : MethodDecl} : c.declared? s = none → r.parent? c = some p →
      Nearest r s p owner d → Nearest r s c owner d

/-- A class of the chain `c`, parent of `c`, parent of that, and so on. -/
def OnChain (r : Registry) (c owner : Class) : Prop :=
  Relation.ReflTransGen (fun a b => r.parent? a = some b) c owner

/-- `e` is the entry of the declaration `d` of the class `owner`; `natives` are the host functions
that a native declaration is bound with. -/
structure EntryOf (natives : Bindings) (owner : Class) (d : MethodDecl) (e : Method) : Prop where
  signature : e.signature = d.signature
  returns : e.returns = d.returns
  isStatic : e.isStatic = d.isStatic
  declaringName : e.declaringName = owner.name
  declaring : e.declaring = owner.id
  managed : ∀ body, d.body = .managed body → e.impl = .managed body
  native : d.body = .native →
    ∃ f, natives.get? ⟨owner.name, d.name, d.params⟩ = some f ∧ e.impl = .native f

theorem Nearest.onChain {r : Registry} {s : Signature} {c owner : Class} {d : MethodDecl}
    (h : r.Nearest s c owner d) : r.OnChain c owner ∧ owner.declared? s = some d := by
  induction h with
  | own hd => exact ⟨.refl, hd⟩
  | inherited _ hp _ ih => exact ⟨.head hp ih.1, ih.2⟩

/-- The walk finds a declaration when a class of the chain has one. -/
theorem nearest_of_onChain {r : Registry} {s : Signature} {c owner : Class} (h : r.OnChain c owner)
    (hd : (owner.declared? s).isSome) : ∃ o d, r.Nearest s c o d := by
  induction h using Relation.ReflTransGen.head_induction_on with
  | refl =>
    obtain ⟨d, hd⟩ := Option.isSome_iff_exists.1 hd
    exact ⟨owner, d, .own hd⟩
  | @head a b hp _ ih =>
    cases hs : a.declared? s with
    | some d => exact ⟨a, d, .own hs⟩
    | none =>
      obtain ⟨o, d, hn⟩ := ih
      exact ⟨o, d, .inherited hs hp hn⟩

/-! ## The declarations of one class -/

/-- What a declaration runs: its body, or the host function bound under its key. -/
theorem implementation_ok {cls : String} {natives : Bindings} {d : MethodDecl}
    {impl : Implementation} (h : implementation cls natives d = .ok impl) :
    (∀ body, d.body = .managed body → impl = .managed body) ∧
    (d.body = .native → ∃ f, natives.get? ⟨cls, d.name, d.params⟩ = some f ∧ impl = .native f) := by
  unfold implementation at h
  split at h
  · rename_i body hb
    cases h
    refine ⟨fun body' hb' => ?_, fun hn => ?_⟩
    · rw [hb] at hb'; cases hb'; rfl
    · rw [hb] at hn; cases hn
  · rename_i hb
    split at h
    · rename_i f hf
      cases h
      refine ⟨fun body hb' => ?_, fun _ => ⟨f, hf, rfl⟩⟩
      rw [hb] at hb'; cases hb'
    · cases h

/-- The first declaration is new and gets an entry; the others follow. -/
theorem declareMethods_cons {id : ClassId} {cls : String} {natives : Bindings} {d : MethodDecl}
    {ds : List MethodDecl} {seen : List Signature} {t t' : MethodTable} :
    declareMethods id cls natives (d :: ds) seen t = .ok t' ↔
      d.signature ∉ seen ∧ ∃ impl, implementation cls natives d = .ok impl ∧
        declareMethods id cls natives ds (d.signature :: seen)
          (t.insert ⟨d.signature, d.returns, d.isStatic, cls, id, impl⟩) = .ok t' := by
  simp only [declareMethods]
  constructor
  · intro h
    split at h
    · cases h
    · rename_i hs
      split at h
      · cases h
      · rename_i impl hi
        exact ⟨hs, impl, hi, h⟩
  · rintro ⟨hs, impl, hi, h⟩
    simp only [MethodDecl.signature] at hs h
    simp only [if_neg hs, hi, h]

theorem declareMethods_keys {id : ClassId} {cls : String} {natives : Bindings} :
    ∀ (ds : List MethodDecl) {seen : List Signature} {t t' : MethodTable},
    declareMethods id cls natives ds seen t = .ok t' →
      t.keys <+: t'.keys ∧ (t.keys.Nodup → t'.keys.Nodup)
  | [], seen, t, t', h => by
    cases h; exact ⟨List.prefix_refl _, fun hn => hn⟩
  | d :: ds, seen, t, t', h => by
    obtain ⟨-, impl, -, h⟩ := declareMethods_cons.1 h
    obtain ⟨hp, hn⟩ := declareMethods_keys ds h
    exact ⟨(t.keys_prefix_insert _).trans hp, fun ht => hn (MethodTable.keys_nodup_insert ht _)⟩

/-- A signature declared already is not declared again. -/
theorem declareMethods_seen {id : ClassId} {cls : String} {natives : Bindings} :
    ∀ (ds : List MethodDecl) {seen : List Signature} {t t' : MethodTable},
    declareMethods id cls natives ds seen t = .ok t' → ∀ d ∈ ds, d.signature ∉ seen
  | [], _, _, _, _, d, hd => by cases hd
  | d :: ds, seen, t, t', h, x, hx => by
    obtain ⟨hs, impl, -, h⟩ := declareMethods_cons.1 h
    rcases List.mem_cons.1 hx with rfl | hx
    · exact hs
    · exact fun hm => declareMethods_seen ds h x hx (List.mem_cons_of_mem _ hm)

/-- A declared signature is found under its declaration, any other as before. -/
theorem declareMethods_get? {id : ClassId} {cls : String} {natives : Bindings} :
    ∀ (ds : List MethodDecl) {seen : List Signature} {t t' : MethodTable},
    declareMethods id cls natives ds seen t = .ok t' → ∀ s,
      (ds.find? (·.signature = s) = none ∧ t'.get? s = t.get? s) ∨
      (∃ d impl, ds.find? (·.signature = s) = some d ∧ implementation cls natives d = .ok impl ∧
        t'.get? s = some ⟨d.signature, d.returns, d.isStatic, cls, id, impl⟩)
  | [], _, t, t', h, s => by
    cases h; exact .inl ⟨rfl, rfl⟩
  | d :: ds, seen, t, t', h, s => by
    obtain ⟨-, impl, hi, h⟩ := declareMethods_cons.1 h
    have hrest := declareMethods_get? ds h s
    rw [MethodTable.get?_insert] at hrest
    by_cases hs : d.signature = s
    · -- the later declarations have other signatures, so that the entry of this one stays
      have hno : ds.find? (·.signature = s) = none := List.find?_eq_none.2 fun x hx hxs =>
        declareMethods_seen ds h x hx (by
          simp only [decide_eq_true_eq] at hxs
          rw [hxs, hs]; exact List.mem_cons_self)
      refine .inr ⟨d, impl, by simp [hs], hi, ?_⟩
      rcases hrest with ⟨-, hg⟩ | ⟨x, -, hx, -⟩
      · rw [hg, if_pos hs]
      · rw [hno] at hx; cases hx
    · rw [List.find?_cons, if_neg hs] at *
      simpa [hs] using hrest

/-! ## The table of a class -/

/-- The table a class starts from: its parent's, or the empty one. -/
def inherited (r : Registry) (c : Class) : MethodTable :=
  match r.parent? c with
  | some p => p.methods
  | none => {}

namespace WF

variable {r : Registry} {came : ClassId → Bindings → Prop}

theorem methods_declared (hwf : r.WF came) {c : Class} (hc : r.Has c) :
    ∃ natives, came c.id natives ∧ declareMethods c.id c.name natives c.source.methods []
      (r.inherited c) = .ok c.methods := by
  obtain ⟨natives, hcame, hb⟩ := hwf.built_parent hc
  obtain ⟨-, -, -, -, -, hm, -⟩ := build_ok hb.build
  refine ⟨natives, hcame, ?_⟩
  unfold inherited
  cases hp : r.parent? c <;> rw [hp] at hm <;> exact hm

theorem keys_prefix (hwf : r.WF came) {c p : Class} (hc : r.Has c) (hp : r.parent? c = some p) :
    p.methods.keys <+: c.methods.keys := by
  obtain ⟨natives, -, hd⟩ := hwf.methods_declared hc
  unfold inherited at hd
  rw [hp] at hd
  exact (declareMethods_keys _ hd).1

/-- What the table answers for a signature that the class declares itself. -/
theorem get?_declared (hwf : r.WF came) {c : Class} (hc : r.Has c) {s : Signature} {d : MethodDecl}
    (hd : c.declared? s = some d) :
    ∃ e natives, c.methods.get? s = some e ∧ came c.id natives ∧ EntryOf natives c d e := by
  obtain ⟨natives, hcame, hm⟩ := hwf.methods_declared hc
  rcases declareMethods_get? _ hm s with ⟨hno, -⟩ | ⟨d', impl, hd', hi, hg⟩
  · unfold Class.declared? at hd; rw [hno] at hd; cases hd
  · unfold Class.declared? at hd; rw [hd'] at hd; cases hd
    obtain ⟨hman, hnat⟩ := implementation_ok hi
    exact ⟨_, natives, hg, hcame, rfl, rfl, rfl, rfl, rfl, hman, hnat⟩

/-- Any other signature is answered as in the parent's table. -/
theorem get?_inherited (hwf : r.WF came) {c : Class} (hc : r.Has c) {s : Signature}
    (hd : c.declared? s = none) :
    c.methods.get? s = (r.inherited c).get? s := by
  obtain ⟨natives, -, hm⟩ := hwf.methods_declared hc
  rcases declareMethods_get? _ hm s with ⟨-, hg⟩ | ⟨d', impl, hd', -⟩
  · exact hg
  · unfold Class.declared? at hd; rw [hd'] at hd; cases hd

/-- The table answers the entry of the nearest declaration. -/
theorem get?_nearest (hwf : r.WF came) {c owner : Class} {s : Signature} {d : MethodDecl}
    (h : r.Nearest s c owner d) (hc : r.Has c) : r.Has owner ∧
    ∃ e natives, c.methods.get? s = some e ∧ came owner.id natives ∧ EntryOf natives owner d e := by
  induction h with
  | own hd => exact ⟨hc, hwf.get?_declared hc hd⟩
  | @inherited c p owner d hd hp _ ih =>
    obtain ⟨ho, e, natives, hg, hrest⟩ := ih (hwf.parent_before hc hp).1
    refine ⟨ho, e, natives, ?_, hrest⟩
    rw [hwf.get?_inherited hc hd, inherited, hp]
    exact hg

/-- What the table answers comes from some declaration of the walk. -/
theorem nearest_of_get? (hwf : r.WF came) {s : Signature} : ∀ (n : Nat) {c : Class} {e : Method},
    c.id = n → r.Has c → c.methods.get? s = some e → ∃ owner d, r.Nearest s c owner d := by
  intro n
  induction n using Nat.strong_induction_on with
  | _ n ih =>
    intro c e hn hc he
    cases hd : c.declared? s with
    | some d => exact ⟨c, d, .own hd⟩
    | none =>
      rw [hwf.get?_inherited hc hd, inherited] at he
      cases hp : r.parent? c with
      | none => rw [hp] at he; cases he
      | some p =>
        rw [hp] at he
        obtain ⟨hph, hlt⟩ := hwf.parent_before hc hp
        obtain ⟨owner, d, h⟩ := ih p.id (hn ▸ hlt) rfl hph he
        exact ⟨owner, d, .inherited hd hp h⟩

/-- No table has a signature twice. -/
theorem keys_nodup (hwf : r.WF came) : ∀ (n : Nat) {c : Class}, c.id = n → r.Has c →
    c.methods.keys.Nodup := by
  intro n
  induction n using Nat.strong_induction_on with
  | _ n ih =>
    intro c hn hc
    obtain ⟨natives, -, hm⟩ := hwf.methods_declared hc
    refine (declareMethods_keys _ hm).2 ?_
    unfold inherited
    cases hp : r.parent? c with
    | none => exact List.nodup_nil
    | some p =>
      obtain ⟨hph, hlt⟩ := hwf.parent_before hc hp
      exact ih p.id (hn ▸ hlt) rfl hph

theorem nearest_mem_lineage (hwf : r.WF came) {c owner : Class} {s : Signature} {d : MethodDecl}
    (h : r.Nearest s c owner d) (hc : r.Has c) : owner.id ∈ c.lineage := by
  induction h with
  | own hd => exact List.mem_cons_self
  | @inherited c p owner d hd hp _ ih =>
    rw [hwf.lineage_of_parent hc hp]
    exact List.mem_cons_of_mem _ (ih (hwf.parent_before hc hp).1)

/-- Each entry of a table is that of a declaration of a class of the lineage. -/
theorem entry_origin (hwf : r.WF came) {c : Class} (hc : r.Has c) {e : Method}
    (he : e ∈ c.methods.entries) :
    ∃ owner d natives, r.Has owner ∧ owner.id ∈ c.lineage ∧ d ∈ owner.source.methods ∧
      came owner.id natives ∧ EntryOf natives owner d e := by
  have hg := MethodTable.get?_of_mem (hwf.keys_nodup _ rfl hc) he
  obtain ⟨owner, d, hn⟩ := hwf.nearest_of_get? _ rfl hc hg
  obtain ⟨ho, e', natives, hg', hcame, hentry⟩ := hwf.get?_nearest hn hc
  rw [hg] at hg'
  cases hg'
  have hd := List.mem_of_find?_eq_some hn.onChain.2
  exact ⟨owner, d, natives, ho, hwf.nearest_mem_lineage hn hc, hd, hcame, hentry⟩

/-- Each entry of a table belongs to a class of the lineage. -/
theorem entry_declaring (hwf : r.WF came) {c : Class} (hc : r.Has c) {e : Method}
    (he : e ∈ c.methods.entries) :
    ∃ owner, r.class? e.declaring = some owner ∧ r.Has owner ∧ owner.id ∈ c.lineage := by
  obtain ⟨owner, d, natives, ho, hm, -, -, hentry⟩ := hwf.entry_origin hc he
  exact ⟨owner, by rw [hentry.declaring]; exact ho, ho, hm⟩

end WF

/-! ## Main statement -/

/-- The closed table of a class is the walk up its chain: a signature is present exactly when a
class of the chain declares it, it then holds the entry of the nearest declaration, bound with the
host functions of the time when the declaring class came in, and every slot of the parent's table
keeps its signature. -/
theorem table_eq_walk (changes : List Change) {id : ClassId} {c : Class}
    (hc : (grow changes).class? id = some c) (s : Signature) :
    ((c.methods.get? s).isSome ↔
      ∃ owner, (grow changes).OnChain c owner ∧ (owner.declared? s).isSome) ∧
    (∀ e, c.methods.get? s = some e → ∃ owner d natives, (grow changes).Nearest s c owner d ∧
      (grow changes).class? e.declaring = some owner ∧ CameIn changes owner.id natives ∧
      EntryOf natives owner d e) ∧
    (∀ p, (grow changes).parent? c = some p → ∀ (i : Nat) (e : Method),
      p.methods.entries[i]? = some e →
      ∃ e' : Method, c.methods.entries[i]? = some e' ∧ e'.signature = e.signature) := by
  have hwf := grow_wf changes
  have hhas := hwf.has_of_class? hc
  refine ⟨⟨fun h => ?_, fun ⟨owner, hch, hd⟩ => ?_⟩, fun e he => ?_, fun p hp i e he => ?_⟩
  · obtain ⟨e, he⟩ := Option.isSome_iff_exists.1 h
    obtain ⟨owner, d, hn⟩ := hwf.nearest_of_get? _ rfl hhas he
    exact ⟨owner, hn.onChain.1, by rw [hn.onChain.2]; rfl⟩
  · obtain ⟨o, d, hn⟩ := nearest_of_onChain hch hd
    obtain ⟨-, e, natives, hg, -⟩ := hwf.get?_nearest hn hhas
    rw [hg]; rfl
  · obtain ⟨owner, d, hn⟩ := hwf.nearest_of_get? _ rfl hhas he
    obtain ⟨ho, e', natives, hg, hcame, hentry⟩ := hwf.get?_nearest hn hhas
    rw [he] at hg
    cases hg
    exact ⟨owner, d, natives, hn, by rw [hentry.declaring]; exact ho, hcame, hentry⟩
  · obtain ⟨rest, hrest⟩ := hwf.keys_prefix hhas hp
    have hk : c.methods.keys[i]? = some e.signature := by
      rw [← hrest, List.getElem?_append_left]
      · rw [MethodTable.keys, List.getElem?_map, he]; rfl
      · rw [MethodTable.keys, List.length_map]
        exact (List.getElem?_eq_some_iff.1 he).1
    rw [MethodTable.keys, List.getElem?_map] at hk
    obtain ⟨e', he', hs⟩ := Option.map_eq_some_iff.1 hk
    exact ⟨e', he', hs⟩

/-- A class with a method and one below it that takes the method over and adds another. -/
def shadowing : List Change :=
  [.openUnit "shapes",
    .registerUnit 1
      [{ name := "Square", parent := some "Shape",
         methods := [.onInstance "area" [] .int { code := [.giveBack (some (.ofInt 4))] },
           .onInstance "sides" [] .int { code := [.giveBack (some (.ofInt 4))] }] },
       { name := "Shape", methods := [.onInstance "area" [] .int {}] }] {}]

theorem table_eq_walk_shadowing : ∃ c e owner d natives, (grow shadowing).class? 1 = some c ∧
    c.methods.get? ⟨"area", []⟩ = some e ∧ (grow shadowing).Nearest ⟨"area", []⟩ c owner d ∧
    (grow shadowing).class? e.declaring = some owner ∧ CameIn shadowing owner.id natives ∧
    EntryOf natives owner d e := by
  have h : (((grow shadowing).class? 1).bind fun c => c.methods.get? ⟨"area", []⟩).isSome := by
    decide
  obtain ⟨e, he⟩ := Option.isSome_iff_exists.1 h
  obtain ⟨c, hc, he⟩ := Option.bind_eq_some_iff.1 he
  obtain ⟨owner, d, natives, hrest⟩ := (table_eq_walk shadowing hc ⟨"area", []⟩).2.1 e he
  exact ⟨c, e, owner, d, natives, hc, he, hrest⟩

end Registry

end ObjectMachine
