/-
Families of method tables. A table of a family is what it started as, empty or a copy of another table,
with the methods entered that have been entered into it since; nothing that happens to another table
comes into it. The rest follows from what one insertion does to one table, and that is told by the table
without index: the slot that the index leads to is the only one with the signature, so that searching
and looking up find the same.
-/
import ObjectMachine.MethodTable.Indexed
import ObjectMachine.Proofs.MethodTable
import Mathlib.Tactic

namespace ObjectMachine.MethodTable

/-! ## Definitions -/

/-- The method that a use enters into the table of a number. -/
def Use.entered? (i : Nat) : Use → Option Method
  | .insert j e => if j = i then some e else none
  | _ => none

/-- The methods that a row of uses enters into the table of a number, in their order. -/
def entered (i : Nat) (uses : List Use) : List Method := uses.filterMap (Use.entered? i)

/-- What a new table starts as. -/
def Use.origin? (tables : List Indexed) : Use → Option Indexed
  | .start => some .empty
  | .inherit parent => tables[parent]?
  | .insert _ _ => none

/-- Enters methods one after the other. -/
def Indexed.enter (t : Indexed) (es : List Method) : Indexed := es.foldl (fun t e => (t.insert e).2) t

/-! ## Placing an entry -/

/-- An entry whose signature is present goes to the slot of that signature. -/
theorem place_set {e : Method} : ∀ {xs : List Method} {i : Nat}, (xs.map (·.signature)).Nodup →
    xs[i]?.map Method.signature = some e.signature → place xs e = xs.set i e
  | x :: xs, 0, _, h => by
    have hx : x.signature = e.signature := by simpa using h
    rw [place, if_pos hx, List.set_cons_zero]
  | x :: xs, i + 1, hn, h => by
    rw [List.map_cons, List.nodup_cons] at hn
    rw [List.getElem?_cons_succ] at h
    have hmem : e.signature ∈ xs.map (·.signature) := by
      rw [← List.getElem?_map] at h
      exact List.mem_of_getElem? h
    have hx : x.signature ≠ e.signature := fun heq => hn.1 (heq ▸ hmem)
    rw [place, if_neg hx, place_set hn.2 h, List.set_cons_succ]

/-- An entry whose signature is not present gets a slot at the end. -/
theorem place_append {e : Method} : ∀ {xs : List Method}, e.signature ∉ xs.map (·.signature) →
    place xs e = xs ++ [e]
  | [], _ => rfl
  | x :: xs, h => by
    rw [List.map_cons, List.mem_cons, not_or] at h
    rw [place, if_neg (Ne.symm h.1), place_append h.2, List.cons_append]

/-! ## One table -/

namespace Indexed

variable (t : Indexed) (e : Method)

theorem getElem?_keys (i : Nat) : t.table.keys[i]? = t.entries[i]?.map Method.signature := by
  rw [keys, table, List.getElem?_map, Array.getElem?_toList]

/-- The index leads from each signature to its place among the keys. -/
theorem slots_eq_some_iff {s : Signature} {i : Nat} : t.slots[s]? = some i ↔ t.table.keys[i]? = some s := by
  rw [t.getElem?_keys]
  exact t.slots_iff s i

/-- Two slots of one signature are both the one that the index leads to. -/
theorem keys_nodup : t.table.keys.Nodup := by
  refine List.nodup_iff_getElem?_ne_getElem?.2 fun i j hij hj heq => ?_
  have hi : t.table.keys[i]? = some t.table.keys[j] := heq.trans (List.getElem?_eq_getElem hj)
  have hsame := (t.slots_eq_some_iff.2 hi).symm.trans (t.slots_eq_some_iff.2 (List.getElem?_eq_getElem hj))
  exact hij.ne (Option.some.inj hsame)

theorem slots_eq_none_iff {s : Signature} : t.slots[s]? = none ↔ s ∉ t.table.keys := by
  rw [Option.eq_none_iff_forall_ne_some, List.mem_iff_getElem?, not_exists]
  exact forall_congr' fun i => not_congr t.slots_eq_some_iff

theorem get?_eq_some_iff {s : Signature} : t.get? s = some e ↔ e ∈ t.table.entries ∧ e.signature = s := by
  rw [get?, Option.bind_eq_some_iff, table, List.mem_iff_getElem?]
  constructor
  · rintro ⟨i, hi, he⟩
    have hs := (t.slots_iff s i).1 hi
    rw [he] at hs
    exact ⟨⟨i, by rw [Array.getElem?_toList, he]⟩, Option.some.inj hs⟩
  · rintro ⟨⟨i, he⟩, rfl⟩
    rw [Array.getElem?_toList] at he
    exact ⟨i, (t.slots_iff _ i).2 (by rw [he]; rfl), he⟩

theorem get?_isSome_iff {s : Signature} : (t.get? s).isSome ↔ s ∈ t.table.keys := by
  rw [Option.isSome_iff_exists, keys, List.mem_map]
  exact exists_congr fun e => t.get?_eq_some_iff e

/-- Looking up and searching find the same. -/
theorem get?_eq (s : Signature) : t.get? s = t.table.get? s := by
  refine Option.ext fun e => ?_
  rw [get?_eq_some_iff, MethodTable.get?, find?_key_iff Method.signature t.keys_nodup]

theorem insert_of_present {i : Nat} (h : t.slots[e.signature]? = some i) :
    (t.insert e).1 = true ∧ (t.insert e).2.entries = t.entries.setIfInBounds i e := by
  unfold insert
  split
  · rename_i j hj
    rw [h] at hj
    cases hj
    exact ⟨rfl, rfl⟩
  · rename_i hnone
    rw [h] at hnone
    cases hnone

theorem insert_of_absent (h : t.slots[e.signature]? = none) :
    (t.insert e).1 = false ∧ (t.insert e).2.entries = t.entries.push e := by
  unfold insert
  split
  · rename_i j hj
    rw [h] at hj
    cases hj
  · exact ⟨rfl, rfl⟩

theorem insert_overrides_iff : (t.insert e).1 = true ↔ e.signature ∈ t.table.keys := by
  rcases h : t.slots[e.signature]? with _ | i
  · rw [(t.insert_of_absent e h).1]
    simpa using t.slots_eq_none_iff.1 h
  · rw [(t.insert_of_present e h).1]
    simpa using List.mem_of_getElem? (t.slots_eq_some_iff.1 h)

/-- Entering a method comes to the same with the index and without. -/
theorem table_insert : (t.insert e).2.table = t.table.insert e := by
  refine congrArg MethodTable.mk ?_
  rcases h : t.slots[e.signature]? with _ | i
  · rw [(t.insert_of_absent e h).2, Array.toList_push]
    exact (place_append (t.slots_eq_none_iff.1 h)).symm
  · rw [(t.insert_of_present e h).2, Array.toList_setIfInBounds]
    refine (place_set t.keys_nodup ?_).symm
    rw [table, Array.getElem?_toList]
    exact (t.slots_iff _ _).1 h

/-- A method that takes over a slot leaves every other slot as it is, and adds none. -/
theorem insert_override (h : (t.insert e).1 = true) : (t.insert e).2.size = t.size ∧
    ∀ (k : Nat) (m : Method), t.entries[k]? = some m → m.signature ≠ e.signature →
      (t.insert e).2.entries[k]? = some m := by
  rcases hs : t.slots[e.signature]? with _ | i
  · rw [(t.insert_of_absent e hs).1] at h
    cases h
  · obtain ⟨-, hentries⟩ := t.insert_of_present e hs
    refine ⟨by rw [size, hentries, Array.size_setIfInBounds, size], fun k m hm hother => ?_⟩
    have hik : i ≠ k := by
      rintro rfl
      have hi := (t.slots_iff _ _).1 hs
      rw [hm] at hi
      exact hother (Option.some.inj hi)
    rw [hentries, Array.getElem?_setIfInBounds_ne hik, hm]

/-- A method that gets a slot of its own leaves every slot as it is, and adds this one. -/
theorem insert_fresh (h : (t.insert e).1 = false) : (t.insert e).2.size = t.size + 1 ∧
    ∀ (k : Nat) (m : Method), t.entries[k]? = some m → (t.insert e).2.entries[k]? = some m := by
  rcases hs : t.slots[e.signature]? with _ | i
  · obtain ⟨-, hentries⟩ := t.insert_of_absent e hs
    refine ⟨by rw [size, hentries, Array.size_push, size], fun k m hm => ?_⟩
    have hlt := (Array.getElem?_eq_some_iff.1 hm).1
    rw [hentries, Array.getElem?_push_lt hlt, ← Array.getElem?_eq_getElem hlt, hm]
  · rw [(t.insert_of_present e hs).1] at h
    cases h

end Indexed

/-! ## A row of insertions -/

theorem findRev?_snoc {α : Type} (p : α → Bool) (x : α) : ∀ xs : List α,
    (xs ++ [x]).findRev? p = if p x then some x else xs.findRev? p
  | [] => by simp [List.findRev?]
  | y :: xs => by
    rw [List.cons_append, List.findRev?, findRev?_snoc p x xs, List.findRev?]
    by_cases hx : p x <;> simp [hx]

theorem eraseDups_snoc {α : Type} [DecidableEq α] (x : α) (xs : List α) :
    (xs ++ [x]).eraseDups = if x ∈ xs then xs.eraseDups else xs.eraseDups ++ [x] := by
  rw [List.eraseDups_append]
  by_cases hx : x ∈ xs <;> simp [hx, List.removeAll, List.eraseDups_cons]

theorem eraseDups_of_nodup {α : Type} [DecidableEq α] {xs : List α} (h : xs.Nodup) : xs.eraseDups = xs := by
  induction xs using List.reverseRecOn with
  | nil => rfl
  | append_singleton xs x ih =>
    rw [List.nodup_append_comm, List.singleton_append, List.nodup_cons] at h
    rw [eraseDups_snoc, if_neg h.1, ih h.2]

namespace Indexed

variable (t : Indexed) (es : List Method)

theorem enter_snoc (e : Method) : t.enter (es ++ [e]) = ((t.enter es).insert e).2 := by
  rw [enter, List.foldl_append]
  rfl

/-- The last entry under a signature is found, and what was there before if none was entered. -/
theorem get?_enter (s : Signature) :
    (t.enter es).get? s = (es.findRev? (·.signature = s)).or (t.get? s) := by
  induction es using List.reverseRecOn with
  | nil => rfl
  | append_singleton es e ih =>
    rw [enter_snoc, get?_eq, table_insert, get?_insert, ← get?_eq, ih, findRev?_snoc]
    by_cases hs : e.signature = s <;> simp [hs]

/-- The keys come in the order in which they were first entered. -/
theorem keys_enter : (t.enter es).table.keys = (t.table.keys ++ es.map (·.signature)).eraseDups := by
  induction es using List.reverseRecOn with
  | nil => rw [List.map_nil, List.append_nil, eraseDups_of_nodup t.keys_nodup]; rfl
  | append_singleton es e ih =>
    rw [enter_snoc, table_insert, keys_insert, ih, List.map_append, ← List.append_assoc, List.map_singleton,
      eraseDups_snoc]
    simp only [List.mem_eraseDups]

/-- The entries are what is found under the keys, one after the other. -/
theorem entries_eq_filterMap : t.table.entries = t.table.keys.filterMap t.get? := by
  have hfound : ∀ e ∈ t.table.entries, t.get? e.signature = some e := fun e he =>
    (t.get?_eq_some_iff e).2 ⟨he, rfl⟩
  rw [keys, List.filterMap_map]
  exact ((List.filterMap_congr hfound).trans List.filterMap_some).symm

end Indexed

/-! ## Families -/

theorem family_snoc (uses : List Use) (u : Use) : family (uses ++ [u]) = use (family uses) u := by
  rw [family, List.foldl_append]
  rfl

section Families

variable {tables : List Indexed}

/-- A use that makes a table puts it at the end. -/
theorem use_origin {u : Use} {origin : Indexed} (h : u.origin? tables = some origin) :
    use tables u = tables ++ [origin] := by
  cases u with
  | start => cases h; rfl
  | inherit parent =>
    rw [use, show tables[parent]? = some origin from h]
    rfl
  | insert i e => cases h

theorem length_use {u : Use} (h : u.origin? tables = none) : (use tables u).length = tables.length := by
  cases u with
  | start => cases h
  | inherit parent =>
    rw [use, show tables[parent]? = none from h]
    simp
  | insert i e => exact List.length_modify _ _ _

/-- A table that is there has those methods entered that a use enters into it, and nothing else happens to
it. -/
theorem getElem?_use {i : Nat} (hi : i < tables.length) (u : Use) :
    (use tables u)[i]? = tables[i]?.map (·.enter (u.entered? i).toList) := by
  have hrest : (use tables u)[i]? = tables[i]? → u.entered? i = none →
      (use tables u)[i]? = tables[i]?.map (·.enter (u.entered? i).toList) := fun h hnone => by
    rw [h, hnone]
    exact Option.map_id'.symm
  cases u with
  | start => exact hrest (List.getElem?_append_left hi) rfl
  | inherit parent => exact hrest (List.getElem?_append_left hi) rfl
  | insert j e =>
    by_cases hj : j = i
    · subst hj
      rw [use, List.getElem?_modify_eq, Use.entered?, if_pos rfl]
      rfl
    · exact hrest (List.getElem?_modify_ne _ _ hj) (if_neg hj)

theorem length_le_use (u : Use) : tables.length ≤ (use tables u).length := by
  rcases h : u.origin? tables with _ | origin
  · exact (length_use h).ge
  · rw [use_origin h, List.length_append]
    exact Nat.le_add_right _ _

theorem entered_snoc (i : Nat) (uses : List Use) (u : Use) :
    entered i (uses ++ [u]) = entered i uses ++ (u.entered? i).toList := by
  rw [entered, List.filterMap_append, ← entered]
  cases h : u.entered? i <;> simp [h]

/-- A table of a family is, after further uses, the table with those methods entered that they enter into
it. -/
theorem getElem?_family {before : List Use} {i : Nat} (hi : i < (family before).length) (after : List Use) :
    (family (before ++ after))[i]? = (family before)[i]?.map (·.enter (entered i after)) ∧
    i < (family (before ++ after)).length := by
  induction after using List.reverseRecOn with
  | nil =>
    rw [List.append_nil]
    exact ⟨Option.map_id'.symm, hi⟩
  | append_singleton after u ih =>
    rw [← List.append_assoc, family_snoc, entered_snoc]
    refine ⟨?_, ih.2.trans_le (length_le_use u)⟩
    rw [getElem?_use ih.2, ih.1, Option.map_map]
    refine congrArg (Option.map · _) (funext fun t => ?_)
    exact List.foldl_append.symm

/-- Every table of a family was made by one of the uses. -/
theorem exists_origin {i : Nat} : ∀ {uses : List Use}, i < (family uses).length →
    ∃ before made after origin, uses = before ++ made :: after ∧ (family before).length = i ∧
      made.origin? (family before) = some origin := by
  intro uses hi
  induction uses using List.reverseRecOn with
  | nil => cases hi
  | append_singleton uses u ih =>
    by_cases hold : i < (family uses).length
    · obtain ⟨before, made, after, origin, rfl, hbefore, horigin⟩ := ih hold
      exact ⟨before, made, after ++ [u], origin, by simp, hbefore, horigin⟩
    · rw [family_snoc] at hi
      rcases h : u.origin? (family uses) with _ | origin
      · rw [length_use h] at hi
        exact absurd hi hold
      · rw [use_origin h, List.length_append, List.length_singleton] at hi
        exact ⟨uses, u, [], origin, rfl, by omega, h⟩

end Families

/-! ## Main statement -/

/-- A method table is a map in the order of insertion, with stable slots, in every family of tables that
start empty or inherit. What is found under a signature is the last entry inserted into the table under it
and, if there is none, what the table was made with: that of its parent at that time. The keys are those of
the parent at that time and then those of the insertions, each where it first comes, and the entries are
what is found under them, key by key. An insertion overrides if its key is present; then the number of
entries stays and so does every slot but that of the key. Otherwise there is one slot more, and every slot
stays. No insertion changes another table of the family. The index is never seen: table by table, looking
up and inserting come to what they come to without it. -/
theorem family_exact (uses : List Use) :
    (∀ (i : Nat) (t : Indexed), (family uses)[i]? = some t →
      (∃ before made after origin, uses = before ++ made :: after ∧ (family before).length = i ∧
        made.origin? (family before) = some origin ∧
        (∀ s, t.get? s = ((entered i after).findRev? (·.signature = s)).or (origin.get? s)) ∧
        t.table.keys = (origin.table.keys ++ (entered i after).map (·.signature)).eraseDups) ∧
      t.table.keys.Nodup ∧ t.table.entries = t.table.keys.filterMap t.get?) ∧
    (∀ (i : Nat) (t : Indexed) (e : Method), (family uses)[i]? = some t →
      let t' := (t.insert e).2
      (family (uses ++ [.insert i e]))[i]? = some t' ∧
      (∀ j, j ≠ i → (family (uses ++ [.insert i e]))[j]? = (family uses)[j]?) ∧
      ((t.insert e).1 = true ↔ (t.get? e.signature).isSome) ∧
      ((t.insert e).1 = true → t'.size = t.size ∧ ∀ (k : Nat) (m : Method), t.entries[k]? = some m →
        m.signature ≠ e.signature → t'.entries[k]? = some m) ∧
      ((t.insert e).1 = false → t'.size = t.size + 1 ∧ ∀ (k : Nat) (m : Method), t.entries[k]? = some m →
        t'.entries[k]? = some m) ∧
      t'.table = t.table.insert e ∧ ∀ s, t.get? s = t.table.get? s) := by
  refine ⟨fun i t ht => ⟨?_, t.keys_nodup, t.entries_eq_filterMap⟩, fun i t e ht => ?_⟩
  · obtain ⟨before, made, after, origin, rfl, rfl, horigin⟩ :=
      exists_origin (List.getElem?_eq_some_iff.1 ht).1
    have hmade : family (before ++ [made]) = family before ++ [origin] := by
      rw [family_snoc, use_origin horigin]
    have hlt : (family before).length < (family (before ++ [made])).length := by
      rw [hmade, List.length_append]
      exact Nat.lt_succ_self _
    have hthen := (getElem?_family hlt after).1
    rw [List.append_assoc, List.singleton_append, ht, hmade, List.getElem?_concat_length] at hthen
    obtain rfl : t = origin.enter (entered (family before).length after) := Option.some.inj hthen
    exact ⟨before, made, after, origin, rfl, rfl, horigin, origin.get?_enter _, origin.keys_enter _⟩
  · have hi := (List.getElem?_eq_some_iff.1 ht).1
    refine ⟨?_, fun j hj => ?_, ?_, t.insert_override e, t.insert_fresh e, t.table_insert e, t.get?_eq⟩
    · rw [family_snoc, getElem?_use hi, ht, Use.entered?, if_pos rfl]
      rfl
    · rw [family_snoc, use, List.getElem?_modify_ne _ _ hj.symm]
    · rw [t.insert_overrides_iff, t.get?_isSome_iff]

/-- A method `print(int)` of a class. -/
def printing (cls : String) : Method where
  signature := ⟨"print", [.int]⟩
  returns := .void
  isStatic := false
  declaringName := cls
  declaring := 0
  impl := .managed {}

/-- A child that overrides the method of its parent: the slot is the same, and the parent keeps its own. -/
theorem family_exact_override :
    let shared : List Use := [.start, .insert 0 (printing "A"), .inherit 0]
    let overriding := shared ++ [.insert 1 (printing "B")]
    ∃ t, (family shared)[1]? = some t ∧ (family shared)[0]? = some t ∧
      (family overriding)[1]? = some (t.insert (printing "B")).2 ∧ (family overriding)[0]? = some t ∧
      (t.insert (printing "B")).1 = true ∧ (t.insert (printing "B")).2.size = t.size ∧
      t.table.entries = [printing "A"] ∧ (t.insert (printing "B")).2.table.entries = [printing "B"] := by
  intro shared overriding
  let t : Indexed := (Indexed.empty.insert (printing "A")).2
  have ht : (family shared)[1]? = some t := rfl
  have htable : t.table = ⟨[printing "A"]⟩ := Indexed.table_insert _ _
  obtain ⟨hchild, hothers, hoverrides, hslots, -, hinsert, -⟩ := (family_exact shared).2 1 t (printing "B") ht
  have hpresent : (t.insert (printing "B")).1 = true := by
    rw [hoverrides, t.get?_isSome_iff, htable]
    exact List.mem_singleton.2 rfl
  refine ⟨t, ht, rfl, hchild, (hothers 0 (by decide)).trans rfl, hpresent, (hslots hpresent).1, ?_, ?_⟩
  · rw [htable]
  · rw [hinsert, htable]
    rfl

end ObjectMachine.MethodTable
