/-
Registering a unit again. A source that is registered already gives back its class and leaves the registry
as it is (`registerAll_known`), and that a batch succeeded once says already that its names are consistent
and that none of its sources stands on itself, in whatever order and however often the batch lists them.
So the whole unit goes through the second time without a change, also after others came in between, for
nothing that is registered is taken away. A batch with another source for a registered name is not admitted
at all, wherever the batch has that source.
-/
import ObjectMachine.Proofs.Registry.Batch

namespace ObjectMachine.Registry

/-! ## Definitions -/

/-- The source is registered in the scope. -/
def Known (r : Registry) (u : UnitId) (s : ClassDecl) : Prop :=
  ∃ c, r.find? u s.name = some c ∧ c.source = s

/-! ## Sources that are registered -/

section Known

variable {r r' : Registry} {u : UnitId} {natives : Bindings} {order sources : List ClassDecl}
  {s : ClassDecl} {cs : List Class}

theorem Known.admissible (h : r.Known u s) (batch : List ClassDecl) :
    r.Admissible u natives batch s := by
  obtain ⟨c, hc, hs⟩ := h
  unfold Admissible
  rw [hc]
  exact hs

/-- A registered source stays registered. -/
theorem Known.extends (h : r.Known u s) (hwf : r.WF fun _ _ => True) (hwf' : r'.WF fun _ _ => True)
    (hx : r.Extends r') : r'.Known u s := by
  obtain ⟨c, hc, hs⟩ := h
  obtain ⟨hhas, hu, hn⟩ := hwf.find?_iff.1 hc
  exact ⟨c, hwf'.find?_iff.2 ⟨hx.has hhas, hu, hn⟩, hs⟩

/-- After a batch each of its sources is registered. -/
theorem Registered.known (h : Registered r u natives order cs r') (hs : s ∈ order) : r'.Known u s := by
  obtain ⟨c, hc, rfl⟩ := List.mem_map.1 (h.sources ▸ hs)
  exact ⟨c, h.found c hc, rfl⟩

theorem register_known (natives : Bindings) (h : r.Known u s) :
    ∃ c, r.register u s natives = .ok (c, r) := by
  obtain ⟨c, hc, hs⟩ := h
  unfold register
  rw [hc]
  exact ⟨c, if_pos hs⟩

/-- Registered sources are passed over one after the other. -/
theorem registerAll_known (natives : Bindings) : ∀ {order : List ClassDecl},
    (∀ s ∈ order, r.Known u s) → ∃ cs, registerAll u natives order r = (.ok cs, r)
  | [], _ => ⟨[], rfl⟩
  | s :: rest, h => by
    obtain ⟨c, hc⟩ := register_known natives (h s List.mem_cons_self)
    obtain ⟨cs, hcs⟩ := registerAll_known natives fun t ht => h t (List.mem_cons_of_mem _ ht)
    exact ⟨c :: cs, registerAll_cons_ok.2 ⟨c, r, cs, hc, hcs, rfl⟩⟩

/-- A batch of registered sources changes nothing, provided that a batch can have them together. -/
theorem registerUnit_known (hwf : r.WF fun _ _ => True) (ha : r.Admits u natives sources)
    (hk : ∀ s ∈ sources, r.Known u s) :
    ∃ cs order, r.registerUnit u sources natives = (.ok cs, r) ∧ Ordered sources order ∧
      Registered r u natives order cs r := by
  obtain ⟨cs, r', h⟩ := registerUnit_isOk.2 ((registerBatch_isOk hwf).2 ha)
  obtain ⟨batch, order, hb, hs, hr⟩ := registerBatch_ok_iff.1 (registerUnit_ok h)
  have ho := schedule_ok hb hs
  obtain ⟨ds, hds⟩ := registerAll_known natives fun s hs => hk s ((ho.mem s).1 hs)
  rw [hds] at hr
  cases hr
  exact ⟨_, order, h, ho, registerAll_registered ho.parents hwf ho.nodup hds⟩

/-- A source other than the registered one of its name keeps the whole batch out. -/
theorem registerUnit_other (hwf : r.WF fun _ _ => True) (hs : s ∈ sources) {c : Class}
    (hc : r.find? u s.name = some c) (hne : c.source ≠ s) :
    ∃ e, r.registerUnit u sources natives = (.error e, r) := by
  rcases h : r.registerUnit u sources natives with ⟨e | cs, r'⟩
  · rw [registerUnit_error hwf h]
    exact ⟨e, rfl⟩
  · have ha := (registerBatch_isOk hwf).1 (registerUnit_isOk.1 ⟨cs, r', h⟩)
    have hadm := ha.admissible s hs
    unfold Admissible at hadm
    rw [hc] at hadm
    exact absurd hadm hne

/-- The classes of two batches with the same sources are the same, once one of them is in. -/
theorem Registered.perm {r1 r2 : Registry} {order1 order2 : List ClassDecl} {cs1 cs2 : List Class}
    {natives' : Bindings} (h1 : Registered r u natives order1 cs1 r1)
    (h2 : Registered r' u natives' order2 cs2 r2) (hx : r1.Extends r2)
    (hn1 : (order1.map (·.name)).Nodup) (hn2 : (order2.map (·.name)).Nodup)
    (hmem : ∀ s, s ∈ order2 ↔ s ∈ order1) : cs2.Perm cs1 := by
  have hsame {c d : Class} (hc : c ∈ cs1) (hd : d ∈ cs2) (hname : c.name = d.name) : c = d :=
    h2.wf.names (hx.has (h1.has hc).1) (h2.has hd).1 ((h1.has hc).2.trans (h2.has hd).2.symm) hname
  have hnames (n : String) : n ∈ cs2.map (·.name) ↔ n ∈ cs1.map (·.name) := by
    simp [h1.names, h2.names, hmem]
  have hnodup1 : cs1.Nodup := List.Nodup.of_map (·.name) (h1.names ▸ hn1)
  have hnodup2 : cs2.Nodup := List.Nodup.of_map (·.name) (h2.names ▸ hn2)
  refine (List.perm_ext_iff_of_nodup hnodup2 hnodup1).2 fun c => ⟨fun hc => ?_, fun hc => ?_⟩
  · obtain ⟨d, hd, hname⟩ := List.mem_map.1 ((hnames _).1 (List.mem_map.2 ⟨c, hc, rfl⟩))
    exact hsame hd hc hname ▸ hd
  · obtain ⟨d, hd, hname⟩ := List.mem_map.1 ((hnames _).2 (List.mem_map.2 ⟨c, hc, rfl⟩))
    exact hsame hc hd hname.symm ▸ hd

end Known

/-- A list of changes keeps the invariant and every class. -/
theorem foldl_change_wf_extends : ∀ (changes : List Change) {r : Registry}, (r.WF fun _ _ => True) →
    ((changes.foldl change r).WF fun _ _ => True) ∧ r.Extends (changes.foldl change r)
  | [], r, hwf => ⟨hwf, .refl r⟩
  | c :: changes, r, hwf => by
    obtain ⟨hwf1, hx1⟩ := change_wf_extends hwf c fun _ _ _ _ => trivial
    obtain ⟨hwf2, hx2⟩ := foldl_change_wf_extends changes hwf1
    exact ⟨hwf2, hx1.trans hx2⟩

/-! ## Main statement -/

/-- Once a unit is registered, any list of the same sources can be registered in its scope again, at once
or later and with whatever host functions: the registry stays as it is, and the classes that come back are
those of the first time, one for each name, and each the one that its name stands for. A batch that has, for
a name of its scope, another source than the registered one fails and leaves the registry as it is. -/
theorem registerUnit_again (changes later : List Change) (u : UnitId) (sources again : List ClassDecl)
    (natives natives' : Bindings) :
    (∀ cs r', (grow changes).registerUnit u sources natives = (.ok cs, r') →
      (∀ s, s ∈ again ↔ s ∈ sources) →
      ∃ ds, (later.foldl change r').registerUnit u again natives' = (.ok ds, later.foldl change r') ∧
        ds.Perm cs ∧ (ds.map (·.name)).Nodup ∧
        (∀ n, n ∈ ds.map (·.name) ↔ n ∈ again.map (·.name)) ∧
        ∀ d ∈ ds, r'.find? u d.name = some d ∧ (later.foldl change r').find? u d.name = some d) ∧
    ∀ s ∈ again, ∀ c, (grow changes).find? u s.name = some c → c.source ≠ s →
      ∃ e, (grow changes).registerUnit u again natives' = (.error e, grow changes) := by
  have hwf := grow_sound changes
  refine ⟨fun cs r' h hmem => ?_, fun s hs c hc hne => registerUnit_other hwf hs hc hne⟩
  have hbatch := registerUnit_ok h
  have ha := (registerBatch_isOk hwf).1 ⟨cs, r', hbatch⟩
  obtain ⟨order, ho, hr⟩ := registerBatch_registered hwf hbatch
  obtain ⟨hwf', hx⟩ := foldl_change_wf_extends later hr.wf
  have hknown : ∀ s ∈ again, (later.foldl change r').Known u s := fun s hs =>
    (hr.known ((ho.mem s).2 ((hmem s).1 hs))).extends hr.wf hwf' hx
  have hadmits : (later.foldl change r').Admits u natives' again := by
    constructor
    · exact fun s hs t ht => ha.consistent s ((hmem s).1 hs) t ((hmem t).1 ht)
    · exact fun n hn => ha.acyclic n (StandsOn.transGen_mono (fun s => (hmem s).1) hn)
    · exact fun s hs => (hknown s hs).admissible again
  obtain ⟨ds, order', hds, ho', hr'⟩ := registerUnit_known hwf' hadmits hknown
  have hperm : ds.Perm cs := hr.perm hr' hx ho.nodup ho'.nodup fun s => by
    rw [ho'.mem, ho.mem, hmem]
  refine ⟨ds, hds, hperm, hr'.names ▸ ho'.nodup, fun n => ?_, fun d hd => ⟨?_, hr'.found d hd⟩⟩
  · simp [hr'.names, ho'.mem]
  · exact hr.found d (hperm.mem_iff.1 hd)

/-- A class with a field. -/
def gauge : ClassDecl := { name := "Gauge", fields := [⟨"level", .int⟩] }

/-- A class below it. -/
def thermometer : ClassDecl := { name := "Thermometer", parent := some "Gauge" }

/-- The child first, then once more with the parent listed twice, and last with the field taken from the
parent. -/
theorem registerUnit_again_gauge :
    (∃ cs r' ds, (grow []).registerUnit 1 [thermometer, gauge] {} = (.ok cs, r') ∧
      r'.registerUnit 1 [gauge, thermometer, gauge] {} = (.ok ds, r') ∧ ds.Perm cs) ∧
    ∃ e, (grow [.registerUnit 1 [thermometer, gauge] {}]).registerUnit 1
      [thermometer, { gauge with fields := [] }] {} =
        (.error e, grow [.registerUnit 1 [thermometer, gauge] {}]) := by
  constructor
  · have hok : ((grow []).registerUnit 1 [thermometer, gauge] {}).1.toBool = true := by decide
    rcases h : (grow []).registerUnit 1 [thermometer, gauge] {} with ⟨e | cs, r'⟩
    · rw [h] at hok
      cases hok
    · have hmem : ∀ s, s ∈ [gauge, thermometer, gauge] ↔ s ∈ [thermometer, gauge] := by
        intro s
        simp only [List.mem_cons, List.not_mem_nil, or_false]
        tauto
      obtain ⟨ds, hds, hperm, -⟩ := (registerUnit_again [] [] 1 [thermometer, gauge]
        [gauge, thermometer, gauge] {} {}).1 cs r' h hmem
      exact ⟨cs, r', ds, rfl, hds, hperm⟩
  · have hsource : ((grow [.registerUnit 1 [thermometer, gauge] {}]).find? 1 "Gauge").map (·.source) =
        some gauge := by decide
    obtain ⟨c, hc, hs⟩ := Option.map_eq_some_iff.1 hsource
    exact (registerUnit_again [.registerUnit 1 [thermometer, gauge] {}] [] 1 []
      [thermometer, { gauge with fields := [] }] {} {}).2 { gauge with fields := [] } (by simp) c hc
      (by rw [hs]; decide)

end ObjectMachine.Registry
