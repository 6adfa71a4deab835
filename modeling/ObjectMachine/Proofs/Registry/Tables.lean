/-
The method tables of a registry as a family: in the order of registration, the table of a class inherits
from that of its parent, or starts empty, and then the methods that the class declares are inserted one
after the other. So what holds of the tables of a family holds of the tables that calls are looked up in.
-/
import ObjectMachine.Proofs.MethodTable.Family
import ObjectMachine.Proofs.Registry.Forest

namespace ObjectMachine

open MethodTable

/-- What makes the table of a class, before its own methods come in. -/
def Class.tableUse (c : Class) : Use :=
  match c.parent? with
  | some p => .inherit p
  | none => .start

namespace Registry

/-- The uses that make the tables of classes, one class after the other, where `declared` are the entries
of the methods that a class declares. -/
def tableUses (declared : Class → List Method) (cs : List Class) : List Use :=
  cs.flatMap fun c => c.tableUse :: (declared c).map (.insert c.id)

/-! ## One class -/

/-- Declaring methods is inserting an entry for each of them, into whatever index the table has. -/
theorem declareMethods_enter {c : Class} {natives : Bindings} :
    ∀ (ds : List MethodDecl) {seen : List Signature} {t t' : MethodTable},
    declareMethods c.id c.name natives ds seen t = .ok t' →
      ∃ es : List Method, List.Forall₂ (EntryOf natives c) ds es ∧
        ∀ i : Indexed, i.table = t → (i.enter es).table = t'
  | [], _, _, _, h => by
    cases h
    exact ⟨[], .nil, fun i hi => hi⟩
  | d :: ds, _, t, t', h => by
    obtain ⟨-, impl, himpl, h⟩ := declareMethods_cons.1 h
    obtain ⟨hmanaged, hnative⟩ := implementation_ok himpl
    obtain ⟨es, hes, henter⟩ := declareMethods_enter ds h
    refine ⟨⟨d.signature, d.returns, d.isStatic, c.name, c.id, impl⟩ :: es,
      .cons ⟨rfl, rfl, rfl, rfl, rfl, hmanaged, hnative⟩ hes, fun i hi => ?_⟩
    exact henter _ (by rw [Indexed.table_insert, hi])

/-- Insertions into the last table of a family. -/
theorem foldl_insert (tables : List Indexed) (es : List Method) : ∀ t : Indexed,
    (es.map (Use.insert tables.length)).foldl use (tables ++ [t]) = tables ++ [t.enter es] := by
  induction es with
  | nil => exact fun t => rfl
  | cons e es ih =>
    intro t
    have hlast : use (tables ++ [t]) (.insert tables.length e) = tables ++ [(t.insert e).2] := by
      rw [use, List.modify_eq_set_getElem?, List.getElem?_concat_length]
      simp
    rw [List.map_cons, List.foldl_cons, hlast, ih]
    rfl

/-- One more class makes one more table: what it starts as, with the methods of the class entered. -/
theorem family_tableUses_snoc {declared : Class → List Method} {cs : List Class} {c : Class} {origin : Indexed}
    (hlength : (family (tableUses declared cs)).length = c.id)
    (h : c.tableUse.origin? (family (tableUses declared cs)) = some origin) :
    family (tableUses declared (cs ++ [c])) = family (tableUses declared cs) ++ [origin.enter (declared c)] := by
  have hinsert := foldl_insert (family (tableUses declared cs)) (declared c) origin
  rw [hlength, ← use_origin h] at hinsert
  rw [← hinsert, tableUses, List.flatMap_append, List.flatMap_singleton, ← tableUses, family, List.foldl_append]
  rfl

/-! ## The classes in the order of registration -/

namespace WF

variable {r : Registry} {came : ClassId → Bindings → Prop}

/-- When the tables of the classes before a class are there, its own starts as the table it inherits. -/
theorem tableUse_origin (hwf : r.WF came) {c : Class} (hc : r.Has c) {tables : List Indexed}
    (h : tables.map Indexed.table = (r.classes.toList.take c.id).map (·.methods)) :
    ∃ origin, c.tableUse.origin? tables = some origin ∧ origin.table = r.inherited c := by
  rw [inherited, Class.tableUse, (hwf.parent_named hc).1]
  cases hp : r.parent? c with
  | none => exact ⟨.empty, rfl, rfl⟩
  | some p =>
    obtain ⟨hph, hlt⟩ := hwf.parent_before hc hp
    have hat : (tables.map Indexed.table)[p.id]? = some p.methods := by
      rw [h, List.getElem?_map, List.getElem?_take_of_lt hlt, ← class?_toList, hph]
      rfl
    rw [List.getElem?_map, Option.map_eq_some_iff] at hat
    exact hat

/-- The tables of the first classes are the family that those classes make. -/
theorem family_take (hwf : r.WF came) {declared : Class → List Method}
    (hd : ∀ c, r.Has c → ∀ i : Indexed, i.table = r.inherited c → (i.enter (declared c)).table = c.methods) :
    ∀ n ≤ r.size, (family (tableUses declared (r.classes.toList.take n))).map Indexed.table =
      (r.classes.toList.take n).map (·.methods) := by
  intro n hn
  induction n with
  | zero => rfl
  | succ n ih =>
    have hlt : n < r.classes.toList.length := by simpa [size] using hn
    have hat := List.getElem?_eq_getElem hlt
    generalize r.classes.toList[n] = c at hat
    rw [← class?_toList] at hat
    have hc : r.Has c := hwf.has_of_class? hat
    obtain rfl : c.id = n := hwf.ids _ _ hat
    have hbefore := ih (Nat.le_of_succ_le hn)
    have hlength : (family (tableUses declared (r.classes.toList.take c.id))).length = c.id := by
      have hsame := congrArg List.length hbefore
      rwa [List.length_map, List.length_map, List.length_take_of_le hlt.le] at hsame
    obtain ⟨origin, horigin, hinherited⟩ := hwf.tableUse_origin hc hbefore
    rw [List.take_add_one, ← class?_toList, hat, Option.toList_some, family_tableUses_snoc hlength horigin,
      List.map_append, List.map_append, hbefore, List.map_singleton, List.map_singleton,
      hd c hc origin hinherited]

end WF

/-! ## Main statement -/

/-- After every history of changes, the method tables of the classes are, without their index, a family of
tables: each class makes one, which inherits from that of its parent or starts empty, and inserts into it
an entry for each method that it declares, in their order. -/
theorem grow_tables (changes : List Change) : let r := grow changes
    ∃ declared : Class → List Method,
      (∀ c, r.Has c → ∃ natives, CameIn changes c.id natives ∧
        List.Forall₂ (EntryOf natives c) c.source.methods (declared c)) ∧
      (family (tableUses declared r.classes.toList)).map Indexed.table = r.classes.toList.map (·.methods) := by
  intro r
  have hwf : r.WF (CameIn changes) := grow_wf changes
  have hdeclared (c : Class) : ∃ es : List Method, r.Has c →
      (∃ natives, CameIn changes c.id natives ∧ List.Forall₂ (EntryOf natives c) c.source.methods es) ∧
      ∀ i : Indexed, i.table = r.inherited c → (i.enter es).table = c.methods := by
    by_cases hc : r.Has c
    · obtain ⟨natives, hcame, hm⟩ := hwf.methods_declared hc
      obtain ⟨es, hes, henter⟩ := declareMethods_enter _ hm
      exact ⟨es, fun _ => ⟨⟨natives, hcame, hes⟩, henter⟩⟩
    · exact ⟨[], fun h => absurd h hc⟩
  choose declared hdeclared using hdeclared
  refine ⟨declared, fun c hc => (hdeclared c hc).1, ?_⟩
  have hall := hwf.family_take (fun c hc => (hdeclared c hc).2) r.size le_rfl
  rwa [List.take_of_length_le (by simp [size])] at hall

end Registry

end ObjectMachine
