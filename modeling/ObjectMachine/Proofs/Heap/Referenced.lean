/-
The objects still referenced, and the table that tracks them. An allocation adds only the new object to those
that are referenced, and to store a value that a root refers to anyway, to drop a root or to take one from
a cell of a referenced object adds none: what has been let go never comes back. So a table that gets every
new object, and loses an entry only to a sweep that finds its object gone, has them all (`Tracks`), and a
sweep leaves nothing else.
-/
import ObjectMachine.Proofs.Heap
import ObjectMachine.Proofs.Heap.Held

namespace ObjectMachine

/-! ## Definitions -/

namespace Heap

/-- The number of objects still referenced. -/
noncomputable def live (h : Heap) (roots : List Handle) : Nat := (h.referenced roots).ncard

/-- The table has one entry for every object that is referenced, and is no longer than the threshold, which
is twice what the last sweep left or the floor. -/
structure Tracks (h : Heap) (roots : List Handle) (kept : Nat) : Prop where
  nodup : h.table.toList.Nodup
  allocated : ∀ ref ∈ h.table.toList, ref.index < h.allocated
  complete : ∀ ref ∈ h.referenced roots, ref ∈ h.table.toList
  threshold : h.threshold = max sweepFloor (2 * kept)
  size_le : h.table.size ≤ h.threshold

end Heap

/-! ## Referenced objects -/

namespace Heap

variable {h h' : Heap} {roots roots' : List Handle} {ref : Handle}

theorem referenced_supports (h : Heap) (roots : List Handle) : h.Supports roots (h.referenced roots) := by
  rintro ref ⟨S, hS, hmem⟩
  refine (hS ref hmem).imp_right ?_
  rintro ⟨other, hother, hcell⟩
  exact ⟨other, ⟨S, hS, hother⟩, hcell⟩

theorem root_referenced (h : Heap) (href : ref ∈ roots) : ref ∈ h.referenced roots :=
  ⟨{ref | ref ∈ roots}, fun _ hroot => .inl hroot, href⟩

/-- What referenced objects refer to is referenced. -/
theorem referenced_of_cell {other : Handle} (hother : other ∈ h.referenced roots)
    (hcell : ref ∈ h.references other) : ref ∈ h.referenced roots := by
  refine ⟨insert ref (h.referenced roots), ?_, Set.mem_insert _ _⟩
  rintro x (rfl | hx)
  · exact .inr ⟨other, .inr hother, hcell⟩
  · refine (referenced_supports h roots x hx).imp_right ?_
    rintro ⟨holder, hholder, hx⟩
    exact ⟨holder, .inr hholder, hx⟩

/-- Roots that are referenced anyway add nothing. -/
theorem referenced_roots (hroots : ∀ ref ∈ roots', ref ∈ h.referenced roots) :
    h.referenced roots' ⊆ h.referenced roots := by
  rintro ref ⟨S, hS, hmem⟩
  refine ⟨S ∪ h.referenced roots, ?_, .inl hmem⟩
  have hold : ∀ x ∈ h.referenced roots,
      x ∈ roots ∨ ∃ other ∈ S ∪ h.referenced roots, x ∈ h.references other := by
    intro x hx
    refine (referenced_supports h roots x hx).imp_right ?_
    rintro ⟨other, hother, hcell⟩
    exact ⟨other, .inr hother, hcell⟩
  rintro x (hx | hx)
  · rcases hS x hx with hroot | ⟨other, hother, hcell⟩
    · exact hold x (hroots x hroot)
    · exact .inr ⟨other, .inl hother, hcell⟩
  · exact hold x hx

theorem references_congr (hobj : h'.objects = h.objects) (ref : Handle) :
    h'.references ref = h.references ref := by
  simp only [references, cells, get?, hobj]

theorem referenced_congr (hobj : h'.objects = h.objects) (roots : List Handle) :
    h'.referenced roots = h.referenced roots := by
  simp only [referenced, Supports, references_congr hobj]

theorem default_handles (ty : Ty) : ty.default.handles = [] := by
  cases ty <;> rfl

/-- A new object refers to nothing. -/
theorem references_add (h : Heap) (c : Class) (ref : Handle) :
    (h.add c).references ref = if ref.index = h.allocated then [] else h.references ref := by
  simp only [references, cells, get?_add]
  by_cases hnew : ref.index = h.allocated
  · simp only [hnew, if_true]
    simp [default_handles]
  · simp only [hnew, if_false]

theorem references_setCell {slot : Nat} {v : Value} {x other : Handle}
    (hx : x ∈ (h.setCell ref slot v).references other) : x ∈ h.references other ∨ x ∈ v.handles := by
  simp only [references, List.mem_flatMap] at hx ⊢
  obtain ⟨w, hw, hx⟩ := hx
  obtain ⟨o, ho, hw⟩ := mem_cells.1 hw
  rw [get?_setCell] at ho
  split at ho
  · obtain ⟨o', ho', rfl⟩ := Option.map_eq_some_iff.1 ho
    rcases List.mem_or_eq_of_mem_set hw with hw | rfl
    · exact .inl ⟨w, mem_cells.2 ⟨o', ho', hw⟩, hx⟩
    · exact .inr hx
  · exact .inl ⟨w, mem_cells.2 ⟨o, ho, hw⟩, hx⟩

theorem mem_references_of_cell {slot : Nat} {x : Handle}
    (hx : x ∈ (h.cell? ref slot).toList.flatMap Value.handles) : x ∈ h.references ref := by
  obtain ⟨v, hv, hx⟩ := List.mem_flatMap.1 hx
  obtain ⟨o, ho, hcell⟩ := Option.bind_eq_some_iff.1 (Option.mem_toList.1 hv)
  exact List.mem_flatMap.2 ⟨v, mem_cells.2 ⟨o, ho, List.mem_of_getElem? hcell⟩, hx⟩

theorem allocated_setCell (h : Heap) (ref : Handle) (slot : Nat) (v : Value) :
    (h.setCell ref slot v).allocated = h.allocated := Array.size_modify

theorem referenced_add (h : Heap) (c : Class) (roots : List Handle) :
    (h.add c).referenced (h.next :: roots) ⊆ insert h.next (h.referenced roots) := by
  rintro ref ⟨S, hS, hmem⟩
  by_cases hnew : ref = h.next
  · exact .inl hnew
  · refine .inr ⟨S \ {h.next}, ?_, hmem, hnew⟩
    rintro x ⟨hx, hold⟩
    rcases hS x hx with hroot | ⟨other, hother, hcell⟩
    · exact .inl ((List.mem_cons.1 hroot).resolve_left hold)
    · rw [references_add] at hcell
      split at hcell
      · cases hcell
      · rename_i hne
        refine .inr ⟨other, ⟨hother, ?_⟩, hcell⟩
        rintro rfl
        exact hne rfl

/-- An allocation lets nothing go. -/
theorem referenced_subset_add (h : Heap) (c : Class) (roots : List Handle) :
    h.referenced roots ⊆ (h.add c).referenced (h.next :: roots) := by
  rintro ref ⟨S, hS, hmem⟩
  refine ⟨S, fun x hx => ?_, hmem⟩
  rcases hS x hx with hroot | ⟨other, hother, hcell⟩
  · exact .inl (List.mem_cons_of_mem _ hroot)
  · refine .inr ⟨other, hother, ?_⟩
    rw [references_add, if_neg]
    · exact hcell
    · -- what refers to something is an object
      intro hnew
      obtain ⟨v, hv, -⟩ := List.mem_flatMap.1 hcell
      obtain ⟨o, ho, -⟩ := mem_cells.1 hv
      exact absurd (lt_of_get? ho) (by omega)

theorem referenced_setCell {slot : Nat} {v : Value} (hv : v.handles ⊆ roots) :
    (h.setCell ref slot v).referenced roots ⊆ h.referenced roots := by
  rintro x ⟨S, hS, hmem⟩
  refine ⟨S, fun y hy => ?_, hmem⟩
  rcases hS y hy with hroot | ⟨other, hother, hcell⟩
  · exact .inl hroot
  · rcases references_setCell hcell with hcell | hstored
    · exact .inr ⟨other, hother, hcell⟩
    · exact .inl (hv hstored)

/-! ## Tracking -/

theorem sweep_objects (h : Heap) (roots : List Handle) : (h.sweep roots).2.objects = h.objects := rfl

theorem toList_sweep (h : Heap) (roots : List Handle) :
    (h.sweep roots).2.table.toList = h.held roots h.table.toList := rfl

theorem sweep_sublist (h : Heap) (roots : List Handle) :
    (h.sweep roots).2.table.toList.Sublist h.table.toList := by
  rw [toList_sweep]
  exact List.filter_sublist

theorem sweep_swept (h : Heap) (roots : List Handle) :
    (h.sweep roots).1 + (h.sweep roots).2.table.size = h.table.size := by
  have hle := (h.sweep_sublist roots).length_le
  show h.table.size - (h.sweep roots).2.table.size + _ = _
  simp only [Array.length_toList] at hle
  omega

namespace Tracks

variable {kept : Nat}

/-- A sweep leaves the objects that are referenced. -/
theorem mem_sweep (ht : h.Tracks roots kept) (ref : Handle) :
    ref ∈ (h.sweep roots).2.table.toList ↔ ref ∈ h.referenced roots := by
  rw [toList_sweep, mem_held_iff ht.nodup]
  constructor
  · rintro ⟨S, hS, -, hmem⟩
    exact ⟨S, hS, hmem⟩
  · intro href
    exact ⟨h.referenced roots, referenced_supports h roots, ht.complete, href⟩

theorem size_sweep (ht : h.Tracks roots kept) : (h.sweep roots).2.table.size = h.live roots := by
  have hnodup := ht.nodup.sublist (h.sweep_sublist roots)
  have hset : h.referenced roots = ↑(h.sweep roots).2.table.toList.toFinset := by
    ext ref
    rw [Finset.mem_coe, List.mem_toFinset, ht.mem_sweep]
  rw [live, hset, Set.ncard_coe_finset, List.toFinset_card_of_nodup hnodup, Array.length_toList]

theorem live_le_size (ht : h.Tracks roots kept) : h.live roots ≤ h.table.size := by
  have hswept := h.sweep_swept roots
  rw [ht.size_sweep] at hswept
  omega

theorem sweep (ht : h.Tracks roots kept) :
    (h.sweep roots).2.Tracks roots (h.sweep roots).2.table.size where
  nodup := ht.nodup.sublist (h.sweep_sublist roots)
  allocated := fun ref href => ht.allocated ref ((h.sweep_sublist roots).subset href)
  complete := fun ref href => (ht.mem_sweep ref).2 (by rwa [referenced_congr (h.sweep_objects roots)] at href)
  threshold := by
    show max ((h.sweep roots).2.table.size * 2) sweepFloor = _
    rw [max_comm, Nat.mul_comm]
  size_le := by
    show _ ≤ max ((h.sweep roots).2.table.size * 2) sweepFloor
    omega

/-- A sweep makes room for another entry. -/
theorem sweep_room (h : Heap) (roots : List Handle) : (h.sweep roots).2.isFull = false := by
  have hfloor : sweepFloor = 1024 := rfl
  simp only [isFull, decide_eq_false_iff_not]
  show ¬ max ((h.sweep roots).2.table.size * 2) sweepFloor ≤ _
  omega

theorem add (c : Class) (ht : h.Tracks roots kept) (hroom : h.isFull = false) :
    (h.add c).Tracks (h.next :: roots) kept := by
  have htable : (h.add c).table.toList = h.table.toList ++ [h.next] := Array.toList_push
  have hallocated : (h.add c).allocated = h.allocated + 1 := Array.size_push _
  refine ⟨?_, fun ref href => ?_, fun ref href => ?_, ht.threshold, ?_⟩
  · rw [htable, List.nodup_append]
    refine ⟨ht.nodup, List.nodup_singleton _, ?_⟩
    rintro ref href _ hnext rfl
    rw [List.mem_singleton] at hnext
    have hlt := ht.allocated ref href
    rw [hnext] at hlt
    exact absurd hlt (Nat.lt_irrefl _)
  · rw [hallocated]
    rw [htable, List.mem_append, List.mem_singleton] at href
    rcases href with href | rfl
    · have := ht.allocated ref href
      omega
    · exact Nat.lt_succ_self _
  · rw [htable, List.mem_append, List.mem_singleton]
    rcases h.referenced_add c roots href with hnew | hold
    · exact .inr hnew
    · exact .inl (ht.complete ref hold)
  · simp only [isFull, decide_eq_false_iff_not, Nat.not_le] at hroom
    show (h.table.push h.next).size ≤ h.threshold
    rw [Array.size_push]
    omega

/-- The new object is one more that is referenced. -/
theorem live_add (c : Class) (ht : h.Tracks roots kept) :
    (h.add c).live (h.next :: roots) = h.live roots + 1 := by
  have hset : (h.add c).referenced (h.next :: roots) = insert h.next (h.referenced roots) := by
    refine Set.Subset.antisymm (h.referenced_add c roots) (Set.insert_subset ?_ (h.referenced_subset_add c roots))
    exact root_referenced _ (List.mem_cons_self ..)
  have hfinite : (h.referenced roots).Finite :=
    (List.finite_toSet h.table.toList).subset ht.complete
  have hnew : h.next ∉ h.referenced roots := by
    intro hmem
    exact absurd (ht.allocated _ (ht.complete _ hmem)) (Nat.lt_irrefl _)
  rw [live, hset, Set.ncard_insert_of_notMem hnew hfinite, live]

/-- There are no more entries than objects. -/
theorem size_le_allocated (ht : h.Tracks roots kept) : h.table.size ≤ h.allocated := by
  have hsub : h.table.toList ⊆ (List.range h.allocated).map Handle.mk := by
    intro ref href
    exact List.mem_map.2 ⟨ref.index, List.mem_range.2 (ht.allocated ref href), rfl⟩
  have hle := (List.subperm_of_subset ht.nodup hsub).length_le
  simpa using hle

/-- A change of the cells or of the roots that makes no object referenced again. -/
theorem of_subset (ht : h.Tracks roots kept) (htable : h'.table = h.table)
    (hthreshold : h'.threshold = h.threshold) (hallocated : h'.allocated = h.allocated)
    (hsub : h'.referenced roots' ⊆ h.referenced roots) : h'.Tracks roots' kept where
  nodup := by rw [htable]; exact ht.nodup
  allocated := by rw [htable, hallocated]; exact ht.allocated
  complete := by rw [htable]; exact fun ref href => ht.complete ref (hsub href)
  threshold := by rw [hthreshold]; exact ht.threshold
  size_le := by rw [htable, hthreshold]; exact ht.size_le

end Tracks

end Heap

end ObjectMachine
