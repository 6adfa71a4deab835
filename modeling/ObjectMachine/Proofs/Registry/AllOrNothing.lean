/-
A unit goes in as a whole or not at all. If registering it fails, the registry is as it was; if it
succeeds, everything that could be seen from another scope is as it was, and there is one class for each
name of the batch.

The classes come back in the order of registration. A class stands after the ancestors that it reaches
by way of classes of the batch (`Reaches`), among them every ancestor that came in with it. It may stand
before an ancestor that was there already, when its batch lists that ancestor again but not a class
between the two (`relisted_after_descendant`).
-/
import ObjectMachine.Proofs.Registry.Batch
import ObjectMachine.Proofs.Exec.History

namespace ObjectMachine

namespace Registry

/-- Going up from a class by parents that belong to the list. -/
def Reaches (r : Registry) (cs : List Class) : Class → Class → Prop :=
  Relation.TransGen fun c p => p ∈ cs ∧ r.parent? c = some p

/-! ## The classes of a batch -/

section Batch

variable {r r' : Registry} {u : UnitId} {natives : Bindings} {order : List ClassDecl} {cs : List Class}

theorem ParentsFirst.lt (h : ParentsFirst order) : ∀ {i j : Nat} {s t : ClassDecl},
    order[i]? = some s → order[j]? = some t → s.parent = some t.name → j < i := by
  induction h with
  | nil =>
    intro i j s t hi
    simp at hi
  | @cons s rest hs _ ih =>
    intro i j x t hi hj hp
    cases i with
    | zero =>
      rw [List.getElem?_cons_zero] at hi
      cases hi
      exact absurd (List.mem_map.2 ⟨t, List.mem_of_getElem? hj, rfl⟩) (hs t.name hp)
    | succ i =>
      cases j with
      | zero => omega
      | succ j =>
        have := ih hi hj hp
        omega

/-- A new class is a class of the batch. -/
theorem Registered.mem_of_new (h : Registered r u natives order cs r') (hwf : r.WF fun _ _ => True)
    {c : Class} (hc : r'.Has c) (hnew : r.size ≤ c.id) : c ∈ cs := by
  have hfind : r'.find? c.scope c.name = some c := h.wf.find?_iff.2 ⟨hc, rfl, rfl⟩
  by_cases hbatch : c.scope = u → c.name ∉ order.map (·.name)
  · rw [h.others _ _ hbatch] at hfind
    obtain ⟨hold, -⟩ := hwf.find?_iff.1 hfind
    exact absurd (class?_lt hold) (not_lt.2 hnew)
  · push Not at hbatch
    obtain ⟨hscope, hname⟩ := hbatch
    rw [← h.names] at hname
    obtain ⟨d, hd, hdc⟩ := List.mem_map.1 hname
    have hfound := h.found d hd
    rw [hdc, ← hscope, hfind] at hfound
    cases hfound
    exact hd

/-- A class stands after the ancestors that it reaches by way of the batch. -/
theorem Registered.after (h : Registered r u natives order cs r') (ho : ParentsFirst order)
    {c a : Class} (hr : r'.Reaches cs c a) : ∀ {i j : Nat},
    cs[i]? = some c → cs[j]? = some a → j < i := by
  have hstep {c p : Class} (hp : p ∈ cs ∧ r'.parent? c = some p) {i j : Nat} (hi : cs[i]? = some c)
      (hj : cs[j]? = some p) : j < i := by
    obtain ⟨natives', -, hb⟩ := h.wf.built_parent (h.has (List.mem_of_getElem? hi)).1
    have hnamed := hb.named
    rw [hp.2] at hnamed
    have hsource {k : Nat} {d : Class} (hk : cs[k]? = some d) : order[k]? = some d.source := by
      rw [← h.sources, List.getElem?_map, hk]
      rfl
    exact ho.lt (hsource hi) (hsource hj) hnamed
  induction hr with
  | single hp => exact hstep hp
  | @tail b a hcb hba ih =>
    intro i j hi hj
    obtain ⟨_, -, hb, -⟩ := Relation.TransGen.tail'_iff.1 hcb
    obtain ⟨k, hk⟩ := List.mem_iff_getElem?.1 hb
    exact (hstep hba hk hj).trans (ih hi hk)

/-- Every ancestor that came in with the class is reached by way of the batch. -/
theorem Registered.reaches (h : Registered r u natives order cs r') (hwf : r.WF fun _ _ => True)
    {a : Class} (ha : r'.Has a) (hnew : r.size ≤ a.id) : ∀ (n : Nat) {c : Class}, c.id = n →
    r'.Has c → a.id ∈ c.ancestors → r'.Reaches cs c a := by
  intro n
  induction n using Nat.strong_induction_on with
  | _ n ih =>
    intro c hn hc hmem
    obtain ⟨p, hp, hmem⟩ := h.wf.exists_parent hc hmem
    obtain ⟨hph, hlt⟩ := h.wf.parent_before hc hp
    rcases List.mem_cons.1 hmem with hid | hmem
    · obtain rfl := ha.unique hph hid
      exact .single ⟨h.mem_of_new hwf ha hnew, hp⟩
    · have hpnew : r.size ≤ p.id := hnew.trans (h.wf.ancestors_lt hph hmem).le
      exact .head ⟨h.mem_of_new hwf hph hpnew, hp⟩ (ih p.id (hn ▸ hlt) rfl hph hmem)

end Batch

/-! ## Main statement -/

/-- A unit that fails leaves the registry as it was, and so does a machine that fails to load it but for
the name of the scope. If it succeeds, the classes that were there keep their positions, no other scope
sees a difference, there is one class for each name of the batch, and each of them stands after the
ancestors that it reaches by way of the batch; the ancestors that came in with it are among these. -/
theorem registerUnit_all_or_nothing (changes : List Change) (u : UnitId) (sources : List ClassDecl)
    (natives : Bindings) :
    (∀ e r', (grow changes).registerUnit u sources natives = (.error e, r') → r' = grow changes) ∧
    (∀ cs r', u ≠ systemUnit → (grow changes).registerUnit u sources natives = (.ok cs, r') →
      (∀ id c, (grow changes).class? id = some c → r'.class? id = some c) ∧
      (∀ v n, v ≠ u → r'.get? v n = (grow changes).get? v n) ∧
      (cs.map (·.name)).Nodup ∧ (∀ n, n ∈ cs.map (·.name) ↔ n ∈ sources.map (·.name)) ∧
      (∀ c ∈ cs, r'.get? u c.name = some c) ∧
      (∀ (i j : Nat) c a, cs[i]? = some c → cs[j]? = some a → r'.Reaches cs c a → j < i) ∧
      (∀ c ∈ cs, ∀ a ∈ cs, a.id ∈ c.ancestors → (grow changes).size ≤ a.id → r'.Reaches cs c a)) ∧
    ∀ m past, History (fun _ => True) m past → ∀ unit e m', m.load unit = (.error e, m') →
      m' = { m with registry := { m.registry with units := m.registry.units.push unit.name } } := by
  have hwf := grow_sound changes
  refine ⟨fun e r' h => registerUnit_error hwf h, fun cs r' hu h => ?_, fun m past hm unit e m' h => ?_⟩
  · obtain ⟨order, ho, hr⟩ := registerBatch_registered hwf (registerUnit_ok h)
    refine ⟨fun id c => hr.kept.class?, fun v n hv => ?_, ?_, fun n => ?_, fun c hc => ?_,
      fun i j c a hi hj hca => hr.after ho.parents hca hi hj, fun c hc a ha hmem hnew => ?_⟩
    · exact hr.get?_eq (fun h => absurd h hv) fun h => absurd h.symm hu
    · rw [hr.names]
      exact ho.nodup
    · rw [hr.names]
      simp [ho.mem]
    · exact hr.get?_mem hc
    · exact hr.reaches hwf (hr.has ha).1 hnew _ rfl (hr.has hc).1 hmem
  · have hopen : (m.registry.openUnit unit.name).2.WF fun _ _ => True := hm.sound.openUnit unit.name
    unfold Machine.load at h
    rcases hreg : (m.registry.openUnit unit.name).2.registerUnit (m.registry.openUnit unit.name).1
      unit.classes m.natives with ⟨_ | cs, r'⟩
    · have hr' := registerUnit_error hopen hreg
      simp only [hreg, Prod.mk.injEq] at h
      rw [← h.2, hr']
      rfl
    · simp only [hreg, Prod.mk.injEq] at h
      cases h.1

/-- A scope with a class and one below it. -/
def listed : List Change :=
  [.openUnit "u", .registerUnit 1 [{ name := "A" }, { name := "P", parent := some "A" }] {}]

/-- A class below both, listed before the upper one. -/
def relisted : List ClassDecl := [{ name := "C", parent := some "P" }, { name := "A" }]

/-- The batch does not list the class between the two, and the upper one comes back after its
descendant. -/
theorem relisted_after_descendant : ∃ c a r',
    (grow listed).registerUnit 1 relisted {} = (.ok [c, a], r') ∧ a.id ∈ c.ancestors := by
  have h : ((grow listed).registerUnit 1 relisted {}).1.toOption.map
      (·.map fun c => (c.id, c.ancestors)) = some [(2, [1, 0]), (0, [])] := by decide
  rcases hr : (grow listed).registerUnit 1 relisted {} with ⟨e | cs, r'⟩
  · rw [hr] at h
    cases h
  · rw [hr] at h
    obtain ⟨c, rest, rfl, hc, hrest⟩ := List.map_eq_cons_iff.1 (Option.some.inj h)
    obtain ⟨a, rest, rfl, ha, hrest⟩ := List.map_eq_cons_iff.1 hrest
    obtain rfl := List.map_eq_nil_iff.1 hrest
    refine ⟨c, a, r', rfl, ?_⟩
    rw [(Prod.mk.inj hc).2, (Prod.mk.inj ha).1]
    decide

/-- A batch whose second source names a parent that there is not. -/
def orphaned : List ClassDecl := [{ name := "B" }, { name := "C", parent := some "X" }]

/-- A batch that succeeds, one that fails at its second source, and a unit that fails to load. -/
theorem registerUnit_all_or_nothing_listed :
    (∃ cs r', (grow listed).registerUnit 1 relisted {} = (.ok cs, r') ∧
      (∀ n, n ∈ cs.map (·.name) ↔ n ∈ ["C", "A"]) ∧ ∀ n, r'.get? 0 n = (grow listed).get? 0 n) ∧
    (∃ e r', (grow listed).registerUnit 1 orphaned {} = (.error e, r') ∧ r' = grow listed) ∧
    ∃ (m : Machine) (e : Failure) (m' : Machine),
      m.load { name := "v", classes := orphaned } = (.error e, m') ∧
      m'.registry.classes = m.registry.classes := by
  refine ⟨?_, ?_, Machine.boot {} {}, ?_⟩
  · have hok : ((grow listed).registerUnit 1 relisted {}).1.toBool = true := by decide
    rcases h : (grow listed).registerUnit 1 relisted {} with ⟨e | cs, r'⟩
    · rw [h] at hok
      cases hok
    · obtain ⟨-, hother, -, hnames, -⟩ :=
        (registerUnit_all_or_nothing listed 1 relisted {}).2.1 cs r' (by decide) h
      exact ⟨cs, r', rfl, hnames, fun n => hother 0 n (by decide)⟩
  · have hok : ((grow listed).registerUnit 1 orphaned {}).1.toBool = false := by decide
    rcases h : (grow listed).registerUnit 1 orphaned {} with ⟨e | cs, r'⟩
    · exact ⟨e, r', rfl, (registerUnit_all_or_nothing listed 1 orphaned {}).1 e r' h⟩
    · rw [h] at hok
      cases hok
  · have hok : ((Machine.boot {} {}).load { name := "v", classes := orphaned }).1.toBool = false := by
      decide +kernel
    rcases h : (Machine.boot {} {}).load { name := "v", classes := orphaned } with ⟨e | u, m'⟩
    · have hm : History (fun _ => True) (.boot {} {}) [] := .boot
      have heq := (registerUnit_all_or_nothing [] 0 [] {}).2.2 _ _ hm _ e m' h
      exact ⟨e, m', rfl, by rw [heq]⟩
    · rw [h] at hok
      cases hok

end Registry

end ObjectMachine
