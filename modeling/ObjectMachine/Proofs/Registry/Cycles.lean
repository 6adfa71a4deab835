/-
Inheritance cycles among the sources of a batch. The walk up from a name is first described without any
bound on its length (`Climbs`): it goes from source to parent while there is a source that still waits,
and it has passed every source at most once, so it always ends and the bound that `climb` counts down is
never met. A walk reports a cycle only at a name it has passed, which then stands on itself; and where a
source of the batch stands on itself the batch has no order with parents first, so that it cannot succeed.
A parent that is not in the batch ends the walk, and no source above which it stands is ever reported.
-/
import ObjectMachine.Proofs.Registry.Batch

namespace ObjectMachine.Registry

/-! ## Definitions -/

/-- The outcome of the walk up from a name, whatever its length; `chain` are the sources passed. -/
inductive Climbs (pending : List ClassDecl) :
    List ClassDecl → String → Except Failure (List ClassDecl) → Prop where
  | again {chain : List ClassDecl} {name : String} : name ∈ chain.map (·.name) →
      Climbs pending chain name (.error (.inheritanceCycle name))
  | gone {chain : List ClassDecl} {name : String} : name ∉ chain.map (·.name) →
      waiting? pending name = none → Climbs pending chain name (.ok chain)
  | top {chain : List ClassDecl} {name : String} {s : ClassDecl} : name ∉ chain.map (·.name) →
      waiting? pending name = some s → s.parent = none → Climbs pending chain name (.ok (s :: chain))
  | up {chain : List ClassDecl} {name p : String} {s : ClassDecl}
      {out : Except Failure (List ClassDecl)} : name ∉ chain.map (·.name) →
      waiting? pending name = some s → s.parent = some p → Climbs pending (s :: chain) p out →
      Climbs pending chain name out

/-- The outcome of registering the names of a batch one after the other, with walks of any length. -/
inductive RegistersNames (u : UnitId) (natives : Bindings) : List String → List ClassDecl → Registry →
    Except Failure (List Class) × Registry → Prop where
  | done {pending : List ClassDecl} {r : Registry} :
      RegistersNames u natives [] pending r (.ok [], r)
  | cycle {name : String} {names : List String} {pending : List ClassDecl} {r : Registry} {e : Failure} :
      Climbs pending [] name (.error e) → RegistersNames u natives (name :: names) pending r (.error e, r)
  | refused {name : String} {names : List String} {pending chain : List ClassDecl} {r r' : Registry}
      {e : Failure} : Climbs pending [] name (.ok chain) →
      registerAll u natives chain r = (.error e, r') →
      RegistersNames u natives (name :: names) pending r (.error e, r')
  | next {name : String} {names : List String} {pending chain : List ClassDecl} {r r' : Registry}
      {cs : List Class} {out : Except Failure (List Class) × Registry} :
      Climbs pending [] name (.ok chain) → registerAll u natives chain r = (.ok cs, r') →
      RegistersNames u natives names (pending.filter fun s => !chain.any (·.name = s.name)) r' out →
      RegistersNames u natives (name :: names) pending r (out.1.map (cs ++ ·), out.2)

/-- The outcome of registering a batch, with walks of any length. -/
def RegistersBatch (r : Registry) (u : UnitId) (sources : List ClassDecl) (natives : Bindings)
    (out : Except Failure (List Class) × Registry) : Prop :=
  match r.distinct u sources [] with
  | .error e => out = (.error e, r)
  | .ok batch => RegistersNames u natives (batch.map (·.name)) batch r out

/-! ## The walk ends -/

section Walk

variable {pending chain : List ClassDecl} {name : String} {out : Except Failure (List ClassDecl)}

/-- The walk with a bound is a walk: it has passed fewer sources than wait as long as it goes on. -/
theorem climbs_climb {fuel : Nat} (hfuel : pending.length ≤ chain.length + fuel)
    (hp : Passed pending chain name) : Climbs pending chain name (climb pending fuel chain name) := by
  have hany (chain : List ClassDecl) (name : String) :
      chain.any (·.name = name) ↔ name ∈ chain.map (·.name) := by simp
  fun_induction climb pending fuel chain name with
  | case1 fuel chain name h => exact .again ((hany _ _).1 h)
  | case2 fuel chain name h hw => exact .gone (mt (hany _ _).2 h) hw
  | case3 fuel chain name h source hw htop => exact .top (mt (hany _ _).2 h) hw htop
  | case4 chain name h source hw parent hpar =>
    obtain ⟨hs, hname⟩ := waiting?_some hw
    have hlt := hp.length_lt (mt (hany _ _).2 h) hs hname
    omega
  | case5 chain name h source hw fuel parent hpar ih =>
    obtain ⟨hs, hname⟩ := waiting?_some hw
    have hfresh := mt (hany _ _).2 h
    refine .up hfresh hw hpar (ih ?_ (hp.up hfresh hs hname hpar))
    rw [List.length_cons]
    omega

/-- A walk has one outcome. -/
theorem Climbs.unique {out' : Except Failure (List ClassDecl)} (h : Climbs pending chain name out)
    (h' : Climbs pending chain name out') : out = out' := by
  induction h with
  | again hin =>
    cases h' with
    | again => rfl
    | gone hout | top hout | up hout => exact absurd hin hout
  | gone hout hw =>
    cases h' with
    | again hin => exact absurd hin hout
    | gone => rfl
    | top _ hw' | up _ hw' =>
      rw [hw] at hw'
      cases hw'
  | top hout hw htop =>
    cases h' with
    | again hin => exact absurd hin hout
    | gone _ hw' =>
      rw [hw] at hw'
      cases hw'
    | top _ hw' =>
      rw [hw] at hw'
      cases hw'
      rfl
    | up _ hw' hpar =>
      rw [hw] at hw'
      cases hw'
      rw [htop] at hpar
      cases hpar
  | up hout hw hpar _ ih =>
    cases h' with
    | again hin => exact absurd hin hout
    | gone _ hw' =>
      rw [hw] at hw'
      cases hw'
    | top _ hw' htop =>
      rw [hw] at hw'
      cases hw'
      rw [hpar] at htop
      cases htop
    | up _ hw' hpar' hrest =>
      rw [hw] at hw'
      cases hw'
      rw [hpar] at hpar'
      cases hpar'
      exact ih hrest

/-- The walk up from a name ends, and as `climb` says. -/
theorem climbs_iff : Climbs pending [] name out ↔ climb pending pending.length [] name = out := by
  have hwalk : Climbs pending [] name (climb pending pending.length [] name) :=
    climbs_climb (Nat.le_add_left _ _) (.nil pending name)
  constructor
  · exact hwalk.unique
  · rintro rfl
    exact hwalk

end Walk

section Batch

variable {r r' : Registry} {u : UnitId} {natives : Bindings} {sources : List ClassDecl}

theorem registersNames_registerNames : ∀ (names : List String) (pending : List ClassDecl) (r : Registry),
    RegistersNames u natives names pending r (registerNames u natives names pending r)
  | [], pending, r => .done
  | name :: names, pending, r => by
    rw [registerNames]
    cases hc : climb pending pending.length [] name with
    | error e => exact .cycle (climbs_iff.2 hc)
    | ok chain =>
      simp only
      split
      · rename_i ha
        exact .refused (climbs_iff.2 hc) ha
      · rename_i cs r' ha
        have hnext := RegistersNames.next (climbs_iff.2 hc) ha
          (registersNames_registerNames names (pending.filter fun s => !chain.any (·.name = s.name)) r')
        split
        all_goals
          rename_i hr
          rw [hr] at hnext
          exact hnext

theorem RegistersNames.unique {names : List String} {pending : List ClassDecl}
    {out out' : Except Failure (List Class) × Registry} (h : RegistersNames u natives names pending r out)
    (h' : RegistersNames u natives names pending r out') : out = out' := by
  induction h generalizing out' with
  | done =>
    cases h'
    rfl
  | cycle hc =>
    cases h' with
    | cycle hc' =>
      cases hc.unique hc'
      rfl
    | refused hc' | next hc' => cases hc.unique hc'
  | refused hc ha =>
    cases h' with
    | cycle hc' => cases hc.unique hc'
    | refused hc' ha' =>
      cases hc.unique hc'
      rw [ha] at ha'
      cases ha'
      rfl
    | next hc' ha' =>
      cases hc.unique hc'
      rw [ha] at ha'
      cases ha'
  | next hc ha _ ih =>
    cases h' with
    | cycle hc' => cases hc.unique hc'
    | refused hc' ha' =>
      cases hc.unique hc'
      rw [ha] at ha'
      cases ha'
    | next hc' ha' hrest =>
      cases hc.unique hc'
      rw [ha] at ha'
      cases ha'
      rw [ih hrest]

/-- Registering a batch ends, with the one outcome that `registerBatch` has. -/
theorem registersBatch_iff {out : Except Failure (List Class) × Registry} :
    RegistersBatch r u sources natives out ↔ out = r.registerBatch u sources natives := by
  unfold RegistersBatch registerBatch
  cases r.distinct u sources [] with
  | error e => rfl
  | ok batch =>
    have hrun : RegistersNames u natives (batch.map (·.name)) batch r
        (registerNames u natives (batch.map (·.name)) batch r) := registersNames_registerNames _ _ _
    constructor
    · intro h
      exact h.unique hrun
    · rintro rfl
      exact hrun

end Batch

/-! ## What reports a cycle -/

section Reports

variable {u : UnitId} {natives : Bindings} {n : String}

theorem declareMethods_no_cycle (id : ClassId) (cls : String) : ∀ (ds : List MethodDecl)
    (seen : List Signature) (table : MethodTable),
    declareMethods id cls natives ds seen table ≠ .error (.inheritanceCycle n)
  | [], seen, table => nofun
  | d :: ds, seen, table => by
    unfold declareMethods
    simp only
    split
    · nofun
    · unfold implementation
      cases d.body with
      | managed body => exact declareMethods_no_cycle id cls ds _ _
      | native =>
        cases natives.get? ⟨cls, d.name, d.params⟩ with
        | none => nofun
        | some f => exact declareMethods_no_cycle id cls ds _ _

theorem declareConstructors_no_cycle (cls : String) : ∀ (ds : List ConstructorDecl)
    (seen : List (List Ty)), declareConstructors cls ds seen ≠ .error (.inheritanceCycle n)
  | [], seen => nofun
  | d :: ds, seen => by
    have ih := declareConstructors_no_cycle cls ds (d.params :: seen)
    unfold declareConstructors
    split
    · nofun
    · cases h : declareConstructors cls ds (d.params :: seen) with
      | ok rest => nofun
      | error e =>
        rw [h] at ih
        exact ih

theorem build_no_cycle {id : ClassId} {s : ClassDecl} {parent : Option Class} :
    build id u s parent natives ≠ .error (.inheritanceCycle n) := by
  have hmethods : declareMethods id s.name natives s.methods [] ((parent.map (·.methods)).getD {}) ≠
      .error (.inheritanceCycle n) := declareMethods_no_cycle _ _ _ _ _
  have hconstructors : declareConstructors s.name s.constructors [] ≠ .error (.inheritanceCycle n) :=
    declareConstructors_no_cycle _ _ _
  intro h
  unfold build buildConstructors at h
  simp only at h
  split at h
  · rename_i hm
    cases h
    exact hmethods hm
  · split at h
    · rename_i hc
      cases h
      split at hc
      · cases hc
      · exact hconstructors hc
    · cases h

/-- Registering one source reports a cycle only where it names itself as its parent. -/
theorem register_cycle {r : Registry} {s : ClassDecl}
    (h : r.register u s natives = .error (.inheritanceCycle n)) : s.name = n ∧ s.parent = some n := by
  unfold register at h
  split at h
  · split at h
    · cases h
    · cases h
  · split at h
    · rename_i e hparent
      cases h
      unfold resolveParent at hparent
      split at hparent
      · cases hparent
      · rename_i p hp
        split at hparent
        · rename_i heq
          cases hparent
          exact ⟨rfl, heq ▸ hp⟩
        · unfold lookup at hparent
          split at hparent
          · cases hparent
          · cases hparent
    · split at h
      · rename_i hb
        cases h
        exact absurd hb build_no_cycle
      · cases h

theorem registerAll_cycle : ∀ {order : List ClassDecl} {r r' : Registry},
    registerAll u natives order r = (.error (.inheritanceCycle n), r') →
    ∃ s ∈ order, s.name = n ∧ s.parent = some n
  | [], r, r', h => nomatch h
  | s :: rest, r, r', h => by
    rw [registerAll] at h
    split at h
    · rename_i hs
      cases h
      exact ⟨s, List.mem_cons_self, register_cycle hs⟩
    · split at h
      · rename_i hrest
        cases h
        obtain ⟨t, ht, hn⟩ := registerAll_cycle hrest
        exact ⟨t, List.mem_cons_of_mem _ ht, hn⟩
      · cases h

/-- Going through the names of a batch reports only sources that stand on themselves. -/
theorem registerNames_cycle : ∀ {names : List String} {pending : List ClassDecl} {r r' : Registry},
    registerNames u natives names pending r = (.error (.inheritanceCycle n), r') →
    Relation.TransGen (StandsOn pending) n n
  | [], pending, r, r', h => nomatch h
  | name :: names, pending, r, r', h => by
    have hclimb := climb_spec pending.length [] name (by simp) (.nil pending name)
    rw [registerNames] at h
    split at h
    · rename_i hc
      cases h
      rw [hc] at hclimb
      obtain ⟨m, hm, hcycle⟩ := hclimb
      cases hm
      exact hcycle
    · rename_i chain hc
      rw [hc] at hclimb
      split at h
      · rename_i hall
        cases h
        -- the check of a single source, which a walk leaves nothing to find
        obtain ⟨s, hs, rfl, hp⟩ := registerAll_cycle hall
        have hmem := hclimb.1.waiting s hs
        exact .single ⟨s, hmem, rfl, hp, List.mem_map.2 ⟨s, hmem, rfl⟩⟩
      · simp only at h
        split at h
        · rename_i hrest
          cases h
          exact StandsOn.transGen_mono (fun s hs => (List.mem_filter.1 hs).1) (registerNames_cycle hrest)
        · cases h

theorem distinct_no_cycle (r : Registry) : ∀ (sources kept : List ClassDecl),
    r.distinct u sources kept ≠ .error (.inheritanceCycle n)
  | [], kept => nofun
  | s :: rest, kept => by
    unfold distinct
    split
    · exact distinct_no_cycle r rest _
    · split
      · exact distinct_no_cycle r rest _
      · nofun

/-- A batch reports only sources that stand on themselves, and then no two sources of it share a name
without being the same. -/
theorem registerBatch_cycle {r r' : Registry} {sources : List ClassDecl}
    (h : r.registerBatch u sources natives = (.error (.inheritanceCycle n), r')) :
    Relation.TransGen (StandsOn sources) n n ∧
      ∀ s ∈ sources, ∀ t ∈ sources, s.name = t.name → s = t := by
  unfold registerBatch at h
  split at h
  · rename_i hd
    cases h
    exact absurd hd (distinct_no_cycle r sources [])
  · rename_i batch hd
    obtain ⟨hnodup, hmem⟩ := distinct_ok hd
    refine ⟨StandsOn.transGen_mono (fun s => (hmem s).1) (registerNames_cycle h), fun s hs t ht hname => ?_⟩
    exact List.inj_on_of_nodup_map hnodup ((hmem s).2 hs) ((hmem t).2 ht) hname

/-- A unit fails with the error of its batch. -/
theorem registerUnit_batch_error {r r' : Registry} {sources : List ClassDecl} {e : Failure}
    (h : r.registerUnit u sources natives = (.error e, r')) :
    ∃ r'', r.registerBatch u sources natives = (.error e, r'') := by
  unfold registerUnit at h
  split at h
  · cases h
  · rename_i r'' hb
    cases h
    exact ⟨r'', hb⟩

end Reports

/-! ## Main statement -/

/-- Registering a batch ends however long the walks up from its names may be, and with one outcome. If a
source of the batch stands on itself, going from source to parent inside the batch, the unit fails; it
reports a cycle only at such a source. A parent that is not in the batch is no part of a cycle, whatever
its name stands for elsewhere: neither it nor a source right below it is reported. -/
theorem registerUnit_inheritance_cycles (changes : List Change) (u : UnitId) (sources : List ClassDecl)
    (natives : Bindings) :
    (∀ out, RegistersBatch (grow changes) u sources natives out ↔
      out = (grow changes).registerBatch u sources natives) ∧
    ((∃ n, Relation.TransGen (StandsOn sources) n n) →
      ∃ e r', (grow changes).registerUnit u sources natives = (.error e, r')) ∧
    (∀ n r', (grow changes).registerUnit u sources natives = (.error (.inheritanceCycle n), r') →
      Relation.TransGen (StandsOn sources) n n) ∧
    ∀ s ∈ sources, ∀ p, s.parent = some p → p ∉ sources.map (·.name) → ∀ e r',
      (grow changes).registerUnit u sources natives = (.error e, r') →
      e ≠ .inheritanceCycle s.name ∧ e ≠ .inheritanceCycle p := by
  refine ⟨fun out => registersBatch_iff, ?_, fun n r' h => ?_, fun s hs p hp hno e r' h => ?_⟩
  · rintro ⟨n, hcycle⟩
    rcases h : (grow changes).registerUnit u sources natives with ⟨e | cs, r'⟩
    · exact ⟨e, r', rfl⟩
    · have hadmits := (registerBatch_isOk (grow_sound changes)).1 ⟨cs, r', registerUnit_ok h⟩
      exact absurd hcycle (hadmits.acyclic n)
  · obtain ⟨r'', hb⟩ := registerUnit_batch_error h
    exact (registerBatch_cycle hb).1
  · obtain ⟨r'', hb⟩ := registerUnit_batch_error h
    constructor
    · rintro rfl
      obtain ⟨hcycle, hsame⟩ := registerBatch_cycle hb
      obtain ⟨q, ⟨t, ht, hname, hq, hin⟩, -⟩ := Relation.TransGen.head'_iff.1 hcycle
      obtain rfl := hsame t ht s hs hname
      rw [hp] at hq
      cases hq
      exact hno hin
    · rintro rfl
      obtain ⟨q, ⟨t, ht, hname, -⟩, -⟩ := Relation.TransGen.head'_iff.1 (registerBatch_cycle hb).1
      exact hno (List.mem_map.2 ⟨t, ht, hname⟩)

/-- A class below two that stand on each other, and one below a class of another scope. -/
def entangled : List ClassDecl :=
  [{ name := "E", parent := some "System" }, { name := "D", parent := some "B" },
    { name := "B", parent := some "C" }, { name := "C", parent := some "B" }]

/-- The walk enters the cycle from outside and reports the class at which it does. -/
example : (((grow [.registerUnit 0 [{ name := "System" }] {}]).registerUnit 1 entangled {}).1.map
    fun cs => cs.map (·.name)) = .error (.inheritanceCycle "B") := by rfl

end ObjectMachine.Registry
