/-
The objects of a heap after an allocation or a store into a cell: every object that was there before,
and the one that is new or changed.
-/
import ObjectMachine.Store
import Mathlib.Tactic

namespace ObjectMachine

namespace Heap

variable {h : Heap} {o : HeapObject}

theorem get?_mem {ref : Handle} (ho : h.get? ref = some o) : o ∈ h.objects.toList := by
  unfold get? at ho
  rw [← Array.getElem?_toList] at ho
  exact List.mem_of_getElem? ho

theorem lt_of_get? {ref : Handle} (ho : h.get? ref = some o) : ref.index < h.allocated :=
  (Array.getElem?_eq_some_iff.1 ho).1

theorem mem_cells {ref : Handle} {v : Value} : v ∈ h.cells ref ↔ ∃ o, h.get? ref = some o ∧ v ∈ o.cells := by
  unfold cells
  cases h.get? ref <;> simp

theorem get?_add (h : Heap) (c : Class) (ref : Handle) : (h.add c).get? ref =
    if ref.index = h.allocated then some ⟨c.id, c.fields.map (·.type.default)⟩ else h.get? ref :=
  Array.getElem?_push

theorem get?_setCell (h : Heap) (ref : Handle) (slot : Nat) (v : Value) (other : Handle) :
    (h.setCell ref slot v).get? other = if ref.index = other.index then
      (h.get? other).map fun o => { o with cells := o.cells.set slot v } else h.get? other :=
  Array.getElem?_modify

theorem setCell?_ok {h' : Heap} {ref : Handle} {slot : Nat} {v : Value}
    (hok : h.setCell? ref slot v = .ok h') : h' = h.setCell ref slot v := by
  unfold setCell? at hok
  simp only at hok
  split at hok <;> cases hok
  rfl

theorem mem_add {c : Class} (ho : o ∈ (h.add c).objects.toList) :
    o ∈ h.objects.toList ∨ o = ⟨c.id, c.fields.map (·.type.default)⟩ := by
  rw [add, Array.toList_push, List.mem_append, List.mem_singleton] at ho
  exact ho

theorem mem_setCell {ref : Handle} {slot : Nat} {v : Value}
    (ho : o ∈ (h.setCell ref slot v).objects.toList) : o ∈ h.objects.toList ∨
      ∃ o', h.get? ref = some o' ∧ o = { o' with cells := o'.cells.set slot v } := by
  obtain ⟨i, hi⟩ := List.mem_iff_getElem?.1 ho
  rw [setCell, Array.toList_modify, List.getElem?_modify] at hi
  obtain ⟨o', ho', heq⟩ := Option.map_eq_some_iff.1 hi
  split at heq
  · rename_i href
    refine .inr ⟨o', ?_, heq.symm⟩
    rw [get?, ← Array.getElem?_toList, href]
    exact ho'
  · exact .inl (heq ▸ List.mem_of_getElem? ho')

end Heap

theorem Store.classOf?_some {σ : Store} {r : Registry} {ref : Handle} {c : Class}
    (h : σ.classOf? r ref = some c) : ∃ o, σ.heap.get? ref = some o ∧ r.class? o.cls = some c :=
  Option.bind_eq_some_iff.1 h

end ObjectMachine
