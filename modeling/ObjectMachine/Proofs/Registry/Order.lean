/-
The order in which the sources of a batch are registered. Repetitions are dropped first (`distinct`);
then, name by name, the sources that still wait are taken from the topmost ancestor down (`climb`,
`schedule`). In the order that results no source stands before its parent (`ParentsFirst`), and there is
one exactly if no source of the batch stands on itself, going from source to parent (`StandsOn`).
-/
import ObjectMachine.Registry.Batch
import Mathlib.Tactic

namespace ObjectMachine.Registry

/-! ## Definitions -/

/-- The batch has a source named `n` below a source named `p`. -/
def StandsOn (batch : List ClassDecl) (n p : String) : Prop :=
  ∃ s ∈ batch, s.name = n ∧ s.parent = some p ∧ p ∈ batch.map (·.name)

/-- No source stands before its parent, or is its own. -/
inductive ParentsFirst : List ClassDecl → Prop where
  | nil : ParentsFirst []
  | cons {s : ClassDecl} {rest : List ClassDecl} :
      (∀ p, s.parent = some p → p ∉ (s :: rest).map (·.name)) → ParentsFirst rest →
      ParentsFirst (s :: rest)

/-- The sources of a batch in an order in which parents come first. -/
structure Ordered (batch order : List ClassDecl) : Prop where
  mem : ∀ s, s ∈ order ↔ s ∈ batch
  nodup : (order.map (·.name)).Nodup
  parents : ParentsFirst order

/-- The order in which the sources that wait in a batch are registered. -/
def schedule : List String → List ClassDecl → Except Failure (List ClassDecl)
  | [], _ => .ok []
  | name :: names, pending =>
    match climb pending pending.length [] name with
    | .error e => .error e
    | .ok chain =>
      match schedule names (pending.filter fun s => !chain.any (·.name = s.name)) with
      | .error e => .error e
      | .ok rest => .ok (chain ++ rest)

/-! ## Orders with parents first -/

theorem StandsOn.mono {a b : List ClassDecl} (h : ∀ s ∈ a, s ∈ b) {n p : String}
    (hs : StandsOn a n p) : StandsOn b n p := by
  obtain ⟨s, hm, hn, hp, hmem⟩ := hs
  obtain ⟨t, ht, rfl⟩ := List.mem_map.1 hmem
  exact ⟨s, h s hm, hn, hp, List.mem_map.2 ⟨t, h t ht, rfl⟩⟩

theorem StandsOn.transGen_mono {a b : List ClassDecl} (h : ∀ s ∈ a, s ∈ b) {n p : String}
    (hs : Relation.TransGen (StandsOn a) n p) : Relation.TransGen (StandsOn b) n p :=
  Relation.TransGen.mono (fun _ _ => StandsOn.mono h) _ _ hs

theorem ParentsFirst.append {a b : List ClassDecl} (ha : ParentsFirst a) (hb : ParentsFirst b)
    (hab : ∀ s ∈ a, ∀ p, s.parent = some p → p ∉ b.map (·.name)) : ParentsFirst (a ++ b) := by
  induction ha with
  | nil => exact hb
  | @cons s rest hs _ ih =>
    refine .cons (fun p hp => ?_) (ih fun t ht => hab t (List.mem_cons_of_mem _ ht))
    have hno := not_or.2 ⟨hs p hp, hab s List.mem_cons_self p hp⟩
    rwa [← List.mem_append, ← List.map_append] at hno

/-- Where parents come first, no source stands on itself. -/
theorem ParentsFirst.acyclic {l : List ClassDecl} (h : ParentsFirst l) (hn : (l.map (·.name)).Nodup)
    (n : String) : ¬ Relation.TransGen (StandsOn l) n n := by
  induction h generalizing n with
  | nil =>
    intro hc
    obtain ⟨_, ⟨s, hs, -⟩, -⟩ := Relation.TransGen.head'_iff.1 hc
    cases hs
  | @cons s rest hs _ ih =>
    rw [List.map_cons, List.nodup_cons] at hn
    -- nothing leads away from the first source, so that a cycle stays among the others
    have hout : ∀ x y, StandsOn (s :: rest) x y → x ≠ s.name := by
      rintro x y ⟨t, ht, rfl, hp, hy⟩ hx
      rcases List.mem_cons.1 ht with rfl | ht
      · exact hs y hp hy
      · exact hn.1 (hx ▸ List.mem_map.2 ⟨t, ht, rfl⟩)
    have hrest : ∀ x y, Relation.TransGen (StandsOn (s :: rest)) x y → y ≠ s.name →
        Relation.TransGen (StandsOn rest) x y := by
      have hstep : ∀ x y, StandsOn (s :: rest) x y → y ≠ s.name → StandsOn rest x y := by
        intro x y hxy hy
        obtain ⟨t, ht, hx, hp, hmem⟩ := id hxy
        rcases List.mem_cons.1 ht with rfl | ht
        · exact absurd hx.symm (hout x y hxy)
        · exact ⟨t, ht, hx, hp, (List.mem_cons.1 hmem).resolve_left hy⟩
      intro x y h hy
      induction h with
      | single h => exact .single (hstep _ _ h hy)
      | tail _ h ih => exact .tail (ih (hout _ _ h)) (hstep _ _ h hy)
    intro hc
    obtain ⟨y, hny, -⟩ := Relation.TransGen.head'_iff.1 hc
    exact ih hn.2 n (hrest n n hc (hout n y hny))

/-! ## Waiting sources -/

theorem waiting?_some {pending : List ClassDecl} {name : String} {s : ClassDecl}
    (h : waiting? pending name = some s) : s ∈ pending ∧ s.name = name := by
  unfold waiting? at h
  exact ⟨List.mem_of_find?_eq_some h, by simpa using List.find?_some h⟩

theorem waiting?_none {pending : List ClassDecl} {name : String} :
    waiting? pending name = none ↔ name ∉ pending.map (·.name) := by
  unfold waiting?
  simp [List.find?_eq_none]

/-- Dropping repetitions keeps one source of each name; it fails where two sources of one name
differ. -/
theorem distinct_spec (r : Registry) (u : UnitId) : ∀ (sources kept : List ClassDecl),
    (kept.map (·.name)).Nodup →
    match r.distinct u sources kept with
    | .ok batch => (batch.map (·.name)).Nodup ∧ ∀ s, s ∈ batch ↔ s ∈ kept ∨ s ∈ sources
    | .error _ => ∃ s ∈ sources, ∃ t, (t ∈ kept ∨ t ∈ sources) ∧ s.name = t.name ∧ s ≠ t
  | [], kept, hk => by
    simp only [distinct]
    refine ⟨?_, by simp⟩
    rw [List.map_reverse]
    exact List.nodup_reverse.2 hk
  | s :: rest, kept, hk => by
    unfold distinct
    cases hw : waiting? kept s.name with
    | none =>
      have ih := distinct_spec r u rest (s :: kept)
        (by rw [List.map_cons]; exact List.nodup_cons.2 ⟨waiting?_none.1 hw, hk⟩)
      simp only
      split at ih
      · refine ⟨ih.1, fun t => ?_⟩
        rw [ih.2 t, List.mem_cons, List.mem_cons]
        tauto
      · obtain ⟨a, ha, b, hb, hab⟩ := ih
        refine ⟨a, List.mem_cons_of_mem _ ha, b, ?_, hab⟩
        rw [List.mem_cons] at hb ⊢
        tauto
    | some seen =>
      obtain ⟨hseen, hname⟩ := waiting?_some hw
      simp only
      by_cases heq : seen = s
      · rw [if_pos heq]
        have ih := distinct_spec r u rest kept hk
        split at ih
        · refine ⟨ih.1, fun t => ?_⟩
          rw [ih.2 t, List.mem_cons]
          constructor
          · tauto
          · rintro (ht | rfl | ht)
            · exact .inl ht
            · exact .inl (heq ▸ hseen)
            · exact .inr ht
        · obtain ⟨a, ha, b, hb, hab⟩ := ih
          exact ⟨a, List.mem_cons_of_mem _ ha, b, hb.imp_right (List.mem_cons_of_mem _), hab⟩
      · rw [if_neg heq]
        exact ⟨s, List.mem_cons_self, seen, .inl hseen, hname.symm, fun h => heq h.symm⟩

/-! ## The way up from a name -/

/-- What climbing has passed when it comes to a name. -/
structure Passed (pending chain : List ClassDecl) (name : String) : Prop where
  waiting : ∀ s ∈ chain, s ∈ pending
  nodup : (chain.map (·.name)).Nodup
  order : name ∉ chain.map (·.name) → ParentsFirst chain
  closed : ∀ s ∈ chain, ∀ p, s.parent = some p → p = name ∨ p ∈ chain.map (·.name)
  below : ∀ s ∈ chain, name ∈ pending.map (·.name) →
    Relation.TransGen (StandsOn pending) s.name name

/-- The waiting sources from a name upwards. -/
structure Climbed (pending : List ClassDecl) (name : String) (chain : List ClassDecl) : Prop where
  waiting : ∀ s ∈ chain, s ∈ pending
  nodup : (chain.map (·.name)).Nodup
  order : ParentsFirst chain
  closed : ∀ s ∈ chain, ∀ p, s.parent = some p → p ∈ pending.map (·.name) → p ∈ chain.map (·.name)
  name : name ∈ pending.map (·.name) → name ∈ chain.map (·.name)

theorem Passed.nil (pending : List ClassDecl) (name : String) : Passed pending [] name :=
  ⟨by simp, by simp, fun _ => .nil, by simp, by simp⟩

section Climb

variable {pending chain : List ClassDecl} {name : String} {s : ClassDecl}

theorem Passed.waiting_cons (hp : Passed pending chain name) (hs : s ∈ pending) :
    ∀ t ∈ s :: chain, t ∈ pending := List.forall_mem_cons.2 ⟨hs, hp.waiting⟩

theorem Passed.stop (hp : Passed pending chain name) (hfresh : name ∉ chain.map (·.name))
    (hno : name ∉ pending.map (·.name)) : Climbed pending name chain := by
  refine ⟨hp.waiting, hp.nodup, hp.order hfresh, fun s hs p hsp hmem => ?_, fun h => absurd h hno⟩
  refine (hp.closed s hs p hsp).resolve_left ?_
  rintro rfl
  exact hno hmem

theorem Passed.top (hp : Passed pending chain name) (hfresh : name ∉ chain.map (·.name))
    (hs : s ∈ pending) (hname : s.name = name) (htop : s.parent = none) :
    Climbed pending name (s :: chain) := by
  subst hname
  refine ⟨hp.waiting_cons hs, ?_, .cons (fun p hsp => ?_) (hp.order hfresh), fun t ht p htp _ => ?_, ?_⟩
  · exact List.nodup_cons.2 ⟨hfresh, hp.nodup⟩
  · rw [htop] at hsp
    cases hsp
  · rcases List.mem_cons.1 ht with rfl | ht
    · rw [htop] at htp
      cases htp
    · exact List.mem_cons.2 (hp.closed t ht p htp)
  · exact fun _ => List.mem_cons_self

theorem Passed.up (hp : Passed pending chain name) (hfresh : name ∉ chain.map (·.name))
    (hs : s ∈ pending) (hname : s.name = name) {p : String} (hsp : s.parent = some p) :
    Passed pending (s :: chain) p := by
  subst hname
  have hmem : s.name ∈ pending.map (·.name) := List.mem_map.2 ⟨s, hs, rfl⟩
  refine ⟨hp.waiting_cons hs, List.nodup_cons.2 ⟨hfresh, hp.nodup⟩, fun hno => ?_,
    fun t ht q htq => ?_, fun t ht hin => ?_⟩
  · refine .cons (fun q hq => ?_) (hp.order hfresh)
    rw [hsp] at hq
    cases hq
    exact hno
  · rcases List.mem_cons.1 ht with rfl | ht
    · rw [hsp] at htq
      cases htq
      exact .inl rfl
    · exact .inr (List.mem_cons.2 (hp.closed t ht q htq))
  · have hstep : StandsOn pending s.name p := ⟨s, hs, rfl, hsp, hin⟩
    rcases List.mem_cons.1 ht with rfl | ht
    · exact .single hstep
    · exact .tail (hp.below t ht hmem) hstep

/-- A name that was passed already closes a cycle. -/
theorem Passed.again (hp : Passed pending chain name) (h : name ∈ chain.map (·.name)) :
    Relation.TransGen (StandsOn pending) name name := by
  obtain ⟨s, hs, rfl⟩ := List.mem_map.1 h
  exact hp.below s hs (List.mem_map.2 ⟨s, hp.waiting s hs, rfl⟩)

/-- Sources that were passed are all different. -/
theorem Passed.length_lt (hp : Passed pending chain name) (hfresh : name ∉ chain.map (·.name))
    (hs : s ∈ pending) (hname : s.name = name) : chain.length < pending.length := by
  subst hname
  have hnodup : (s :: chain).Nodup :=
    List.Nodup.of_map (·.name) (List.nodup_cons.2 ⟨hfresh, hp.nodup⟩)
  exact (hnodup.subperm (hp.waiting_cons hs)).length_le

/-- Climbing answers the waiting sources on the way up; it fails only where a source stands on
itself. The steps suffice, for every step passes a source that was not passed before. -/
theorem climb_spec (fuel : Nat) (chain : List ClassDecl) (name : String)
    (hfuel : pending.length ≤ chain.length + fuel) (hp : Passed pending chain name) :
    match climb pending fuel chain name with
    | .ok out => Climbed pending name out ∧ ∀ s ∈ chain, s ∈ out
    | .error e => ∃ n, e = .inheritanceCycle n ∧ Relation.TransGen (StandsOn pending) n n := by
  have hany (chain : List ClassDecl) (name : String) :
      chain.any (·.name = name) ↔ name ∈ chain.map (·.name) := by simp
  fun_induction climb pending fuel chain name with
  | case1 fuel chain name h => exact ⟨name, rfl, hp.again ((hany _ _).1 h)⟩
  | case2 fuel chain name h hw =>
    exact ⟨hp.stop (mt (hany _ _).2 h) (waiting?_none.1 hw), fun _ ht => ht⟩
  | case3 fuel chain name h source hw htop =>
    obtain ⟨hs, hname⟩ := waiting?_some hw
    exact ⟨hp.top (mt (hany _ _).2 h) hs hname htop, fun _ => List.mem_cons_of_mem _⟩
  | case4 chain name h source hw parent hpar =>
    obtain ⟨hs, hname⟩ := waiting?_some hw
    have := hp.length_lt (mt (hany _ _).2 h) hs hname
    omega
  | case5 chain name h source hw fuel parent hpar ih =>
    obtain ⟨hs, hname⟩ := waiting?_some hw
    have ih := ih (by simp only [List.length_cons]; omega) (hp.up (mt (hany _ _).2 h) hs hname hpar)
    split at ih
    · obtain ⟨hc, hmem⟩ := ih
      have hin : name ∈ _ := List.mem_map.2 ⟨source, hmem source List.mem_cons_self, hname⟩
      exact ⟨{ hc with name := fun _ => hin }, fun t ht => hmem t (List.mem_cons_of_mem _ ht)⟩
    · exact ih

end Climb

/-! ## The order of registration -/

/-- The sources on the way up from a name go before those that still wait. -/
theorem Climbed.ordered {pending chain rest remaining : List ClassDecl} {name : String}
    (hc : Climbed pending name chain) (hn : (pending.map (·.name)).Nodup)
    (hrem : ∀ s, s ∈ remaining ↔ s ∈ pending ∧ s.name ∉ chain.map (·.name))
    (hr : Ordered remaining rest) : Ordered pending (chain ++ rest) := by
  have hrest (s : ClassDecl) : s ∈ rest ↔ s ∈ pending ∧ s.name ∉ chain.map (·.name) :=
    (hr.mem s).trans (hrem s)
  constructor
  · intro s
    rw [List.mem_append, hrest]
    constructor
    · rintro (hs | ⟨hs, -⟩)
      · exact hc.waiting s hs
      · exact hs
    · intro hs
      by_cases hname : s.name ∈ chain.map (·.name)
      · obtain ⟨t, ht, hts⟩ := List.mem_map.1 hname
        have heq := List.inj_on_of_nodup_map hn (hc.waiting t ht) hs hts
        exact .inl (heq ▸ ht)
      · exact .inr ⟨hs, hname⟩
  · rw [List.map_append, List.nodup_append]
    refine ⟨hc.nodup, hr.nodup, ?_⟩
    rintro a ha b hb rfl
    obtain ⟨t, ht, rfl⟩ := List.mem_map.1 hb
    exact ((hrest t).1 ht).2 ha
  · refine hc.order.append hr.parents fun s hs p hsp hb => ?_
    obtain ⟨t, ht, rfl⟩ := List.mem_map.1 hb
    obtain ⟨ht, hno⟩ := (hrest t).1 ht
    exact hno (hc.closed s hs t.name hsp (List.mem_map.2 ⟨t, ht, rfl⟩))

/-- The sources that wait are put in an order in which parents come first, or one of them stands on
itself. -/
theorem schedule_spec : ∀ (names : List String) (pending : List ClassDecl),
    (pending.map (·.name)).Nodup → (∀ s ∈ pending, s.name ∈ names) →
    match schedule names pending with
    | .ok order => Ordered pending order
    | .error e => ∃ n, e = .inheritanceCycle n ∧ Relation.TransGen (StandsOn pending) n n
  | [], pending, hn, hin => by
    have hnil : pending = [] := List.eq_nil_iff_forall_not_mem.2 fun s hs => nomatch hin s hs
    subst hnil
    exact ⟨fun s => Iff.rfl, List.nodup_nil, .nil⟩
  | name :: names, pending, hn, hin => by
    unfold schedule
    have hclimb := climb_spec pending.length [] name (by simp) (.nil pending name)
    split at hclimb
    · rename_i chain hc
      obtain ⟨hclimbed, -⟩ := hclimb
      rw [hc]
      simp only
      have hrest (s : ClassDecl) : s ∈ pending.filter (fun s => !chain.any (·.name = s.name)) ↔
          s ∈ pending ∧ s.name ∉ chain.map (·.name) := by
        simp [List.mem_filter]
      have ih := schedule_spec names (pending.filter fun s => !chain.any (·.name = s.name))
        ((List.filter_sublist.map _).nodup hn) fun s hs => by
          obtain ⟨hs, hno⟩ := (hrest s).1 hs
          refine (List.mem_cons.1 (hin s hs)).resolve_left fun hname => hno ?_
          exact hname ▸ hclimbed.name (hname ▸ List.mem_map.2 ⟨s, hs, rfl⟩)
      split at ih
      · rename_i rest hr
        rw [hr]
        exact hclimbed.ordered hn hrest ih
      · rename_i e hr
        obtain ⟨n, he, hcycle⟩ := ih
        rw [hr]
        exact ⟨n, he, StandsOn.transGen_mono (fun s hs => ((hrest s).1 hs).1) hcycle⟩
    · rename_i e hc
      rw [hc]
      exact hclimb

end ObjectMachine.Registry
