/-
What counting references keeps. A set of handles supports itself when each member has something that
refers to it, a root or a cell of a member. The objects that are still referenced are the greatest such
set: its chains of references need not begin at a root, since objects that refer to each other in a circle
support each other.

Taking references away leaves exactly that. The count of an entry that is alive is at any moment the
number of references to it from the roots, from entries alive and among those still to be taken away
(`Balanced`). An entry is let go when the last one of these is taken away, so it belongs to no set that
supports itself, and when nothing is left to be taken away the entries alive are such a set.
-/
import ObjectMachine.Heap
import Mathlib.Tactic

namespace ObjectMachine

/-! ## Definitions -/

namespace Heap

/-- Each handle of the set is a root or stands in a cell of an object of the set. -/
def Supports (h : Heap) (roots : List Handle) (S : Set Handle) : Prop :=
  ∀ ref ∈ S, ref ∈ roots ∨ ∃ other ∈ S, ref ∈ h.references other

/-- The objects still referenced. -/
def referenced (h : Heap) (roots : List Handle) : Set Handle := {ref | ∃ S, h.Supports roots S ∧ ref ∈ S}

end Heap

/-- The references that count while those in `todo` are still to be taken away. -/
def RefCounts.incoming (referencesOf : Handle → List Handle) (roots alive todo : List Handle) : List Handle :=
  roots ++ todo ++ alive.flatMap referencesOf

/-- What is counted are the references to the entries alive, and each of these has one. -/
structure RefCounts.Balanced (referencesOf : Handle → List Handle) (roots alive todo : List Handle)
    (counts : RefCounts) : Prop where
  gone : ∀ ref ∉ alive, counts[ref]? = none
  counted : ∀ ref ∈ alive, counts[ref]? = some ((incoming referencesOf roots alive todo).count ref)
  positive : ∀ ref ∈ alive, ref ∈ incoming referencesOf roots alive todo

/-! ## Counting -/

namespace RefCounts

theorem getElem?_start (entries : List Handle) (ref : Handle) :
    (start entries)[ref]? = if ref ∈ entries then some 0 else none := by
  have hfold : ∀ (entries : List Handle) (counts : RefCounts),
      (entries.foldl (fun counts ref => counts.insert ref 0) counts)[ref]? =
        if ref ∈ entries then some 0 else counts[ref]? := by
    intro entries
    induction entries with
    | nil => simp
    | cons entry entries ih =>
      intro counts
      rw [List.foldl_cons, ih, Std.HashMap.getElem?_insert]
      by_cases hmem : ref ∈ entries
      · simp [hmem]
      · simp [hmem, eq_comm (a := ref)]
  simp [start, hfold]

theorem getElem?_count (counts : RefCounts) (references : List Handle) (ref : Handle) :
    (counts.count references)[ref]? = counts[ref]?.map (· + references.count ref) := by
  induction references generalizing counts with
  | nil => simp [count]
  | cons other references ih =>
    show (count (counts.modify other (· + 1)) references)[ref]? = _
    rw [ih, Std.HashMap.getElem?_modify]
    by_cases h : other = ref
    · subst h
      cases counts[other]? with
      | none => simp
      | some n => simp; omega
    · simp [h]

theorem getElem?_erase_all (counts : RefCounts) (entries : List Handle) (ref : Handle) :
    (entries.foldl (·.erase ·) counts)[ref]? = if ref ∈ entries then none else counts[ref]? := by
  induction entries generalizing counts with
  | nil => simp
  | cons entry entries ih =>
    rw [List.foldl_cons, ih, Std.HashMap.getElem?_erase]
    by_cases hmem : ref ∈ entries
    · simp [hmem]
    · simp [hmem, eq_comm (a := ref)]

end RefCounts

/-! ## Taking references away -/

namespace RefCounts

variable {referencesOf : Handle → List Handle} {roots alive todo : List Handle} {counts : RefCounts}
  {ref : Handle}

theorem count_incoming_cons (other : Handle) :
    (incoming referencesOf roots alive (ref :: todo)).count other =
      (incoming referencesOf roots alive todo).count other + if ref = other then 1 else 0 := by
  simp only [incoming, List.count_append, List.count_cons, beq_iff_eq]
  omega

theorem count_incoming_erase (halive : ref ∈ alive) (other : Handle) :
    (incoming referencesOf roots (alive.erase ref) (referencesOf ref ++ todo)).count other =
      (incoming referencesOf roots alive todo).count other := by
  have hperm := ((List.perm_cons_erase halive).flatMap_right referencesOf).count_eq other
  simp only [List.flatMap_cons, List.count_append] at hperm
  simp only [incoming, List.count_append]
  omega

namespace Balanced

/-- The number of an entry says that it is alive, and how many references it has. -/
theorem of_getElem? {n : Nat} (hb : Balanced referencesOf roots alive todo counts)
    (hn : counts[ref]? = some n) : ref ∈ alive ∧ (incoming referencesOf roots alive todo).count ref = n := by
  by_cases halive : ref ∈ alive
  · rw [hb.counted ref halive] at hn
    exact ⟨halive, Option.some.inj hn⟩
  · rw [hb.gone ref halive] at hn
    cases hn

/-- A reference to something that is gone does not count. -/
theorem skip (hb : Balanced referencesOf roots alive (ref :: todo) counts) (hgone : counts[ref]? = none) :
    Balanced referencesOf roots alive todo counts := by
  have hne : ∀ other ∈ alive, ref ≠ other := by
    rintro other halive rfl
    rw [hb.counted ref halive] at hgone
    cases hgone
  refine ⟨hb.gone, fun other halive => ?_, fun other halive => ?_⟩
  · rw [hb.counted other halive, count_incoming_cons, if_neg (hne other halive), Nat.add_zero]
  · have hpos := List.count_pos_iff.2 (hb.positive other halive)
    rw [count_incoming_cons, if_neg (hne other halive)] at hpos
    exact List.count_pos_iff.1 hpos

/-- An entry with more than one reference keeps the others. -/
theorem decrement {n : Nat} (hb : Balanced referencesOf roots alive (ref :: todo) counts)
    (hn : counts[ref]? = some (n + 2)) :
    Balanced referencesOf roots alive todo (counts.insert ref (n + 1)) := by
  obtain ⟨href, hcount⟩ := hb.of_getElem? hn
  rw [count_incoming_cons, if_pos rfl] at hcount
  refine ⟨fun other hdead => ?_, fun other halive => ?_, fun other halive => ?_⟩
  · have hne : ref ≠ other := by
      rintro rfl
      exact hdead href
    rw [Std.HashMap.getElem?_insert, if_neg (by simpa using hne)]
    exact hb.gone other hdead
  · rw [Std.HashMap.getElem?_insert]
    by_cases hne : ref = other
    · subst hne
      simp only [beq_self_eq_true, if_true, Option.some.injEq]
      omega
    · rw [if_neg (by simpa using hne), hb.counted other halive, count_incoming_cons, if_neg hne, Nat.add_zero]
  · have hpos := List.count_pos_iff.2 (hb.positive other halive)
    rw [count_incoming_cons] at hpos
    apply List.count_pos_iff.1
    by_cases hne : ref = other
    · subst hne
      omega
    · rwa [if_neg hne] at hpos

/-- An entry that loses its last reference is let go, and the references it held are to be taken away. -/
theorem letGo (hn : alive.Nodup) (hb : Balanced referencesOf roots alive (ref :: todo) counts)
    (hone : counts[ref]? = some 1) :
    Balanced referencesOf roots (alive.erase ref) (referencesOf ref ++ todo) (counts.erase ref) ∧
      ref ∉ incoming referencesOf roots alive todo := by
  obtain ⟨href, hcount⟩ := hb.of_getElem? hone
  rw [count_incoming_cons, if_pos rfl] at hcount
  refine ⟨⟨fun other hdead => ?_, fun other halive => ?_, fun other halive => ?_⟩,
    List.count_eq_zero.1 (by omega)⟩
  · rw [Std.HashMap.getElem?_erase]
    by_cases hne : ref = other
    · simp [hne]
    · rw [if_neg (by simpa using hne)]
      exact hb.gone other fun halive => hdead (hn.mem_erase_iff.2 ⟨Ne.symm hne, halive⟩)
  · obtain ⟨hne, halive⟩ := hn.mem_erase_iff.1 halive
    rw [Std.HashMap.getElem?_erase, if_neg (by simpa using Ne.symm hne), hb.counted other halive,
      count_incoming_erase href, count_incoming_cons, if_neg (Ne.symm hne), Nat.add_zero]
  · obtain ⟨hne, halive⟩ := hn.mem_erase_iff.1 halive
    have hpos := List.count_pos_iff.2 (hb.positive other halive)
    rw [count_incoming_cons, if_neg (Ne.symm hne)] at hpos
    apply List.count_pos_iff.1
    rw [count_incoming_erase href]
    exact hpos

end Balanced

/-- Taking all references away leaves entries whose counts are balanced, and lets nothing go that belongs to
a set of entries alive which supports itself. The fuel is enough: a step takes one reference away, and what
it adds are references of an entry let go. -/
theorem release_balanced (fuel : Nat) :
    ∀ {alive todo : List Handle} {counts : RefCounts}, alive.Nodup →
      Balanced referencesOf roots alive todo counts → (todo ++ alive.flatMap referencesOf).length ≤ fuel →
      ∃ alive' ⊆ alive, Balanced referencesOf roots alive' [] (counts.release referencesOf fuel todo) ∧
        ∀ S : Set Handle, (∀ ref ∈ S, ref ∈ roots ∨ ∃ other ∈ S, ref ∈ referencesOf other) →
          (∀ ref ∈ S, ref ∈ alive) → ∀ ref ∈ S, ref ∈ alive' := by
  induction fuel with
  | zero =>
    intro alive todo counts _ hb hfuel
    obtain rfl : todo = [] := by
      rw [List.length_append] at hfuel
      exact List.eq_nil_of_length_eq_zero (by omega)
    exact ⟨alive, fun _ h => h, hb, fun _ _ h => h⟩
  | succ fuel ih =>
    intro alive todo counts hn hb hfuel
    cases todo with
    | nil => exact ⟨alive, fun _ h => h, hb, fun _ _ h => h⟩
    | cons ref todo =>
      rw [List.cons_append, List.length_cons] at hfuel
      unfold release
      split
      · rename_i hnone
        exact ih hn (hb.skip hnone) (by omega)
      · rename_i n hsome
        exact ih hn (hb.decrement hsome) (by omega)
      · rename_i n hmany hsome
        obtain ⟨href, hcount⟩ := hb.of_getElem? hsome
        have hpos := List.count_pos_iff.2 (hb.positive ref href)
        obtain rfl : n = 1 := by
          cases n with
          | zero => omega
          | succ n =>
            cases n with
            | zero => rfl
            | succ n => exact absurd rfl (hmany n)
        obtain ⟨hb', hlast⟩ := hb.letGo hn hsome
        have hlength := ((List.perm_cons_erase href).flatMap_right referencesOf).length_eq
        simp only [List.flatMap_cons, List.length_append] at hlength hfuel
        obtain ⟨alive', hsub, hend, hkeep⟩ := ih (hn.erase ref) hb' (by
          simp only [List.length_append]
          omega)
        refine ⟨alive', fun other h => List.mem_of_mem_erase (hsub h), hend, fun S hS halive => hkeep S hS ?_⟩
        intro other hother
        refine hn.mem_erase_iff.2 ⟨?_, halive other hother⟩
        rintro rfl
        -- its last reference was the one taken away
        apply hlast
        simp only [incoming, List.mem_append, List.mem_flatMap]
        rcases hS other hother with hroot | ⟨holder, hholder, hcell⟩
        · exact .inl (.inl hroot)
        · exact .inr ⟨holder, halive holder hholder, hcell⟩

/-- Each entry is counted as often as roots and entries refer to it. -/
theorem getElem?_counted (roots references entries : List Handle) (ref : Handle) :
    (((start entries).count roots).count references)[ref]? =
      if ref ∈ entries then some ((roots ++ references).count ref) else none := by
  rw [getElem?_count, getElem?_count, getElem?_start]
  by_cases hmem : ref ∈ entries
  · simp [hmem]
  · simp [hmem]

/-- Once the entries that nothing refers to have gone, the others are balanced, and what these referred to is
still to be taken away. -/
theorem loose_balanced {entries : List Handle} (hcounts : ∀ ref, counts[ref]? =
      if ref ∈ entries then some ((roots ++ entries.flatMap referencesOf).count ref) else none) :
    let loose := entries.filter fun ref => counts[ref]? = some 0
    Balanced referencesOf roots (entries.filter fun ref => !decide (counts[ref]? = some 0))
      (loose.flatMap referencesOf) (loose.foldl (·.erase ·) counts) := by
  intro loose
  have halive : ∀ ref, ref ∈ entries.filter (fun ref => !decide (counts[ref]? = some 0)) ↔
      ref ∈ entries ∧ ref ∉ loose := by
    intro ref
    simp only [loose, List.mem_filter, Bool.not_eq_true', decide_eq_false_iff_not, decide_eq_true_eq]
    tauto
  have hincoming : ∀ ref,
      (incoming referencesOf roots (entries.filter fun ref => !decide (counts[ref]? = some 0))
        (loose.flatMap referencesOf)).count ref = (roots ++ entries.flatMap referencesOf).count ref := by
    intro ref
    have hcount := ((List.filter_append_perm (fun ref => decide (counts[ref]? = some 0)) entries).flatMap_right
      referencesOf).count_eq ref
    simp only [List.flatMap_append, List.count_append] at hcount
    simp only [incoming, loose, List.count_append]
    omega
  refine ⟨fun ref hdead => ?_, fun ref hmem => ?_, fun ref hmem => ?_⟩
  · rw [getElem?_erase_all, hcounts]
    rw [halive] at hdead
    by_cases hl : ref ∈ loose
    · rw [if_pos hl]
    · rw [if_neg hl, if_neg fun he => hdead ⟨he, hl⟩]
  · obtain ⟨he, hl⟩ := (halive ref).1 hmem
    rw [getElem?_erase_all, if_neg hl, hcounts, if_pos he, hincoming]
  · obtain ⟨he, hl⟩ := (halive ref).1 hmem
    rw [← List.count_pos_iff, hincoming]
    apply Nat.pos_of_ne_zero
    intro hzero
    apply hl
    rw [List.mem_filter, hcounts, if_pos he, hzero]
    exact ⟨he, rfl⟩

end RefCounts

/-! ## Held entries -/

namespace Heap

variable {h : Heap} {roots entries : List Handle}

/-- The entries held are those of the greatest set of entries that supports itself. -/
theorem mem_held_iff (hn : entries.Nodup) (ref : Handle) : ref ∈ h.held roots entries ↔
    ∃ S, h.Supports roots S ∧ (∀ ref ∈ S, ref ∈ entries) ∧ ref ∈ S := by
  unfold held
  extract_lets references counts loose fewer left
  have hcounts : ∀ ref, counts[ref]? =
      if ref ∈ entries then some ((roots ++ references).count ref) else none :=
    RefCounts.getElem?_counted roots references entries
  have hlength := ((List.filter_append_perm (fun ref => decide (counts[ref]? = some 0)) entries).flatMap_right
    h.references).length_eq
  rw [List.flatMap_append] at hlength
  obtain ⟨alive, hsub, hend, hkeep⟩ := RefCounts.release_balanced references.length (hn.filter _)
    (RefCounts.loose_balanced hcounts) hlength.le
  have hleft : ∀ ref, left.contains ref = true ↔ ref ∈ alive := by
    intro ref
    rw [Std.HashMap.contains_iff_mem, Std.HashMap.mem_iff_isSome_getElem?]
    by_cases hmem : ref ∈ alive
    · simp [left, fewer, loose, hmem, hend.counted ref hmem]
    · simp [left, fewer, loose, hmem, hend.gone ref hmem]
  rw [List.mem_filter, hleft]
  constructor
  · rintro ⟨-, hmem⟩
    refine ⟨{ref | ref ∈ alive}, fun ref hin => ?_, fun ref hin => (List.mem_filter.1 (hsub hin)).1, hmem⟩
    have hfrom := hend.positive ref hin
    rw [RefCounts.incoming, List.append_nil, List.mem_append, List.mem_flatMap] at hfrom
    exact hfrom
  · rintro ⟨S, hS, hentries, hmem⟩
    refine ⟨hentries ref hmem, hkeep S hS (fun other hother => ?_) ref hmem⟩
    -- something refers to a member of the set from the beginning
    have hfrom : other ∈ roots ++ references := by
      rw [List.mem_append]
      refine (hS other hother).imp_right ?_
      rintro ⟨holder, hholder, hcell⟩
      exact List.mem_flatMap.2 ⟨holder, hentries holder hholder, hcell⟩
    have hpos := List.count_pos_iff.2 hfrom
    rw [List.mem_filter, hcounts, if_pos (hentries other hother)]
    refine ⟨hentries other hother, ?_⟩
    simp only [Option.some.injEq, Bool.not_eq_true', decide_eq_false_iff_not]
    omega

end Heap

end ObjectMachine
