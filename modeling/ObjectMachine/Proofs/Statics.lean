/-
Look-up in the static areas. Changing one class leaves the state and the cells of every other class
as they are, and storing into a cell keeps the state. `Moves` are the changes that the state of a
class can go through.
-/
import ObjectMachine.Statics
import Mathlib.Tactic

namespace ObjectMachine

/-- A step in the life of a class: nothing happens, its initialization begins, or it ends. -/
inductive InitState.Moves : InitState → InitState → Prop
  | stay {st : InitState} : Moves st st
  | begin : Moves .pending .running
  | finish : Moves .running .done
  | fail {cause : Failure} : Moves .running (.failed cause)

/-- The initialization of the class has begun. -/
def InitState.Begun (st : InitState) : Prop := st ≠ .pending

/-- The class can be used: it is initialized, or its initialization is going on. -/
def InitState.Ready (st : InitState) : Prop := st = .done ∨ st = .running

theorem InitState.Ready.begun {st : InitState} (h : st.Ready) : st.Begun := by
  rcases h with rfl | rfl <;> exact InitState.noConfusion

namespace Statics

/-! ## Areas -/

theorem find?_put (xs : List (ClassId × StaticArea)) (id i : ClassId) (a : StaticArea) :
    (put xs id a).find? (·.1 = i) = if i = id then some (id, a) else xs.find? (·.1 = i) := by
  induction xs with
  | nil => by_cases h : id = i <;> simp [put, h, eq_comm]
  | cons x xs ih =>
    unfold put
    by_cases hx : x.1 = id
    · rw [if_pos hx]
      by_cases hi : i = id
      · simp [hi]
      · have hxi : x.1 ≠ i := fun h => hi (h.symm.trans hx)
        have hidi : id ≠ i := fun h => hi h.symm
        simp [hi, hxi, hidi]
    · rw [if_neg hx, List.find?_cons, List.find?_cons]
      by_cases hxi : x.1 = i
      · have hi : i ≠ id := fun h => hx (hxi.trans h)
        simp [hxi, hi]
      · simp [hxi, ih]

theorem mem_put {xs : List (ClassId × StaticArea)} {id : ClassId} {a : StaticArea}
    {entry : ClassId × StaticArea} (h : entry ∈ put xs id a) : entry = (id, a) ∨ entry ∈ xs := by
  induction xs with
  | nil => exact .inl (List.mem_singleton.1 h)
  | cons x xs ih =>
    unfold put at h
    split at h
    · rcases List.mem_cons.1 h with rfl | h
      · exact .inl rfl
      · exact .inr (List.mem_cons_of_mem _ h)
    · rcases List.mem_cons.1 h with rfl | h
      · exact .inr List.mem_cons_self
      · exact (ih h).imp_right (List.mem_cons_of_mem _)

theorem area_mem (s : Statics) (c : Class) : (c.id, s.area c) ∈ s.areas ∨ s.area c = .fresh c := by
  unfold area
  split
  · rename_i entry h
    have hid : entry.1 = c.id := by simpa using List.find?_some h
    exact .inl (hid ▸ List.mem_of_find?_eq_some h)
  · exact .inr rfl

/-- Changing the area of a class leaves those of all other classes alone. -/
theorem area_setArea_of_ne (s : Statics) {c d : Class} (a : StaticArea) (h : c.id ≠ d.id) :
    (s.setArea d a).area c = s.area c := by
  unfold setArea area
  rw [find?_put, if_neg h]

/-! ## States -/

theorem area_state (s : Statics) (c : Class) : (s.area c).state = s.stateOf c.id := by
  unfold area stateOf
  split <;> rfl

theorem stateOf_setArea (s : Statics) (c : Class) (a : StaticArea) (id : ClassId) :
    (s.setArea c a).stateOf id = if id = c.id then a.state else s.stateOf id := by
  unfold setArea stateOf
  rw [find?_put]
  by_cases h : id = c.id <;> simp [h]

@[simp] theorem stateOf_setState (s : Statics) (c : Class) (st : InitState) (id : ClassId) :
    (s.setState c st).stateOf id = if id = c.id then st else s.stateOf id :=
  stateOf_setArea s c _ id

@[simp] theorem stateOf_setCell (s : Statics) (c : Class) (slot : Nat) (v : Value) (id : ClassId) :
    (s.setCell c slot v).stateOf id = s.stateOf id := by
  rw [setCell, stateOf_setArea]
  split
  · rename_i h; rw [h]; exact area_state s c
  · rfl

/-- A class with a state of its own has an area. -/
theorem begun_mem {s : Statics} {id : ClassId} (h : (s.stateOf id).Begun) :
    ∃ a, (id, a) ∈ s.areas := by
  unfold stateOf at h
  split at h
  · rename_i entry he
    have hid : entry.1 = id := by simpa using List.find?_some he
    exact ⟨entry.2, hid ▸ List.mem_of_find?_eq_some he⟩
  · exact absurd rfl h

end Statics

end ObjectMachine
