/-
Method tables as maps: what a look-up answers after an entry is placed, and the keys of a table,
which are its signatures in slot order. Placing keeps every key in its slot and adds at most one
key at the end, so that no key is ever there twice.
-/
import ObjectMachine.MethodTable
import Mathlib.Tactic

namespace ObjectMachine.MethodTable

/-- The signatures of a table in slot order. -/
def keys (t : MethodTable) : List Signature := t.entries.map (·.signature)

theorem find?_place (e : Method) (s : Signature) : ∀ xs : List Method,
    (place xs e).find? (·.signature = s) =
      if e.signature = s then some e else xs.find? (·.signature = s)
  | [] => by by_cases h : e.signature = s <;> simp [place, h]
  | x :: xs => by
    unfold place
    by_cases hx : x.signature = e.signature
    · rw [if_pos hx]
      by_cases h : e.signature = s
      · simp [h]
      · have hxs : x.signature ≠ s := fun h' => h (hx.symm.trans h')
        simp [h, hxs]
    · rw [if_neg hx, List.find?_cons, find?_place e s xs, List.find?_cons]
      by_cases h : e.signature = s
      · have hxs : x.signature ≠ s := fun h' => hx (h'.trans h.symm)
        simp [h, hxs]
      · simp [h]

theorem get?_insert (t : MethodTable) (e : Method) (s : Signature) :
    (t.insert e).get? s = if e.signature = s then some e else t.get? s :=
  find?_place e s t.entries

/-- A signature that is present keeps its slot; any other gets one at the end. -/
theorem keys_place (e : Method) : ∀ xs : List Method, (place xs e).map (·.signature) =
    if e.signature ∈ xs.map (·.signature) then xs.map (·.signature)
    else xs.map (·.signature) ++ [e.signature]
  | [] => rfl
  | x :: xs => by
    unfold place
    by_cases hx : x.signature = e.signature
    · simp [hx]
    · have hx' : ¬ e.signature = x.signature := fun h => hx h.symm
      rw [if_neg hx, List.map_cons, keys_place e xs]
      by_cases hm : e.signature ∈ xs.map (·.signature)
      · rw [if_pos hm, if_pos (by rw [List.map_cons]; exact List.mem_cons_of_mem _ hm), List.map_cons]
      · rw [if_neg hm, if_neg (by rw [List.map_cons, List.mem_cons]; exact not_or.2 ⟨hx', hm⟩),
          List.map_cons, List.cons_append]

theorem keys_insert (t : MethodTable) (e : Method) : (t.insert e).keys =
    if e.signature ∈ t.keys then t.keys else t.keys ++ [e.signature] :=
  keys_place e t.entries

theorem keys_prefix_insert (t : MethodTable) (e : Method) : t.keys <+: (t.insert e).keys := by
  rw [keys_insert]
  split
  · exact List.prefix_refl _
  · exact List.prefix_append _ _

theorem keys_nodup_insert {t : MethodTable} (h : t.keys.Nodup) (e : Method) :
    (t.insert e).keys.Nodup := by
  rw [keys_insert]
  split
  · exact h
  · rename_i hm
    refine List.nodup_append.2 ⟨h, List.nodup_singleton _, fun a ha b hb => ?_⟩
    rw [List.mem_singleton] at hb
    subst hb
    exact fun hab => hm (hab ▸ ha)

/-- Under keys without repetition a search for a key finds the one element that has it. -/
theorem find?_key_iff {α κ : Type} [DecidableEq κ] (key : α → κ) {xs : List α} (hn : (xs.map key).Nodup)
    {k : κ} {x : α} : xs.find? (key · = k) = some x ↔ x ∈ xs ∧ key x = k := by
  constructor
  · intro h
    exact ⟨List.mem_of_find?_eq_some h, by simpa using List.find?_some h⟩
  · rintro ⟨hx, rfl⟩
    rcases hf : xs.find? (key · = key x) with _ | y
    · have := List.find?_eq_none.1 hf x hx
      simp at this
    · have hy : key y = key x := by simpa using List.find?_some hf
      exact congrArg some (List.inj_on_of_nodup_map hn (List.mem_of_find?_eq_some hf) hx hy)

/-- A look-up answers an entry of the table, under its own signature. -/
theorem get?_of_mem {t : MethodTable} (hn : t.keys.Nodup) {e : Method} (he : e ∈ t.entries) :
    t.get? e.signature = some e :=
  (find?_key_iff Method.signature hn).2 ⟨he, rfl⟩

end ObjectMachine.MethodTable
