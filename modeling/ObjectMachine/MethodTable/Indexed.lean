/-
Method tables with an index: beside the entries in slot order, the slot of each signature that is
present. A look-up goes to its slot at once, and entering a method touches one slot. Without the index
it is the method table that a class has, and it answers the same.

Tables come in families: one that inherits starts as a copy of another, entries and index, and from
then on the two are apart.
-/
import ObjectMachine.MethodTable
import Std.Data.HashMap

namespace ObjectMachine

deriving instance Hashable for Ty

deriving instance Hashable for Signature

namespace MethodTable

/-- A method table with an index of its slots. -/
structure Indexed where
  entries : Array Method
  /-- The slot of each signature. -/
  slots : Std.HashMap Signature Nat
  /-- A signature leads to the slot of an entry under it, and every entry is reached so. -/
  slots_iff : ∀ s i, slots[s]? = some i ↔ entries[i]?.map Method.signature = some s

namespace Indexed

def empty : Indexed := ⟨#[], ∅, by simp⟩

/-- The table without its index. -/
def table (t : Indexed) : MethodTable := ⟨t.entries.toList⟩

def size (t : Indexed) : Nat := t.entries.size

/-- The entry under a signature. -/
def get? (t : Indexed) (s : Signature) : Option Method := t.slots[s]?.bind (t.entries[·]?)

/-- The entries a call `name(args)` may select, in slot order. -/
def candidates (t : Indexed) (name : String) (args : List Value) : List Method :=
  t.entries.toList.filter (·.signature.accepts name args)

/-- A slot that the index leads to is one of the table. -/
theorem slot_lt {t : Indexed} {s : Signature} {i : Nat} (h : t.slots[s]? = some i) : i < t.size := by
  obtain ⟨e, he, -⟩ := Option.map_eq_some_iff.1 ((t.slots_iff s i).1 h)
  exact (Array.getElem?_eq_some_iff.1 he).1

/-- An entry that takes over the slot of its signature leaves the index right. -/
theorem slots_iff_set {t : Indexed} {e : Method} {i : Nat} (h : t.slots[e.signature]? = some i)
    (s : Signature) (j : Nat) :
    t.slots[s]? = some j ↔ (t.entries.setIfInBounds i e)[j]?.map Method.signature = some s := by
  rw [t.slots_iff, Array.getElem?_setIfInBounds]
  by_cases hij : i = j
  · subst hij
    have hlt : i < t.entries.size := slot_lt h
    rw [if_pos rfl, if_pos hlt, (t.slots_iff _ _).1 h]
    rfl
  · rw [if_neg hij]

/-- An entry in a slot of its own leaves the index right, once the slot is entered there. -/
theorem slots_iff_push {t : Indexed} {e : Method} (h : t.slots[e.signature]? = none)
    (s : Signature) (j : Nat) :
    (t.slots.insert e.signature t.size)[s]? = some j ↔
      (t.entries.push e)[j]?.map Method.signature = some s := by
  rw [Std.HashMap.getElem?_insert, Array.getElem?_push]
  by_cases hj : j = t.entries.size
  · -- the new slot: no other signature leads beyond the entries there are
    subst hj
    have hout : t.slots[s]? ≠ some t.entries.size := fun hs => Nat.lt_irrefl _ (slot_lt hs)
    by_cases hs : e.signature = s
    · simp [hs, size]
    · simp [hs, hout]
  · by_cases hs : e.signature = s
    · subst hs
      have hold := t.slots_iff e.signature j
      rw [h] at hold
      simpa [hj, size, Ne.symm hj] using hold
    · simpa [hj, hs] using t.slots_iff s j

/-- Enters a method under its signature, and tells whether it took over a slot. -/
def insert (t : Indexed) (e : Method) : Bool × Indexed :=
  match h : t.slots[e.signature]? with
  | some i => (true, ⟨t.entries.setIfInBounds i e, t.slots, slots_iff_set h⟩)
  | none => (false, ⟨t.entries.push e, t.slots.insert e.signature t.size, slots_iff_push h⟩)

end Indexed

/-- What is done with a family of tables, which are numbered as they come. -/
inductive Use where
  /-- A new table without entries. -/
  | start
  /-- A new table that starts as a copy of another. -/
  | inherit (parent : Nat)
  | insert (table : Nat) (e : Method)

/-- A family after a use of it. To name a table that is not there does nothing. -/
def use (tables : List Indexed) : Use → List Indexed
  | .start => tables ++ [.empty]
  | .inherit parent => tables ++ tables[parent]?.toList
  | .insert i e => tables.modify i fun t => (t.insert e).2

/-- The tables that come of a row of uses. -/
def family (uses : List Use) : List Indexed := uses.foldl use []

end MethodTable

end ObjectMachine
