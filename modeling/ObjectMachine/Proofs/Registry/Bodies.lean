/-
The bodies that a class declares. What a table entry, a constructor or a static block runs was
declared by a class in the registry: an entry runs a body of the class it names as the declaring one,
and only a class without constructors gets one that it did not declare, with nothing to run. A class
that declares two constructors with the same parameters cannot be registered.
-/
import ObjectMachine.Proofs.Registry.Methods

namespace ObjectMachine

/-- The managed body of a method, if it is not left to the host. -/
def MethodBody.managed? : MethodBody → Option Body
  | .managed body => some body
  | .native => none

/-- The bodies of the methods and constructors of a class, and its static block. -/
def ClassDecl.bodies (d : ClassDecl) : List Body :=
  d.methods.filterMap (·.body.managed?) ++ d.constructors.map (·.body) ++ d.staticBlock.toList

/-- The constructors that a source comes to: those it declares, or one without arguments or effect. -/
def ClassDecl.offered (source : ClassDecl) : List Constructor :=
  if source.constructors.isEmpty then [⟨[], {}⟩]
  else source.constructors.map fun d => ⟨d.params, d.body⟩

namespace ClassDecl

variable {source : ClassDecl} {body : Body}

theorem method_mem_bodies {d : MethodDecl} (hd : d ∈ source.methods) (hb : d.body = .managed body) :
    body ∈ source.bodies := by
  have hm : body ∈ source.methods.filterMap (·.body.managed?) :=
    List.mem_filterMap.2 ⟨d, hd, by rw [hb]; rfl⟩
  exact List.mem_append_left _ (List.mem_append_left _ hm)

theorem constructor_mem_bodies {d : ConstructorDecl} (hd : d ∈ source.constructors) :
    d.body ∈ source.bodies :=
  List.mem_append_left _ (List.mem_append_right _ (List.mem_map.2 ⟨d, hd, rfl⟩))

theorem staticBlock_mem_bodies (hb : source.staticBlock = some body) : body ∈ source.bodies :=
  List.mem_append_right _ (by simp [hb])

end ClassDecl

namespace Registry

theorem declareConstructors_ok {cls : String} : ∀ {ds : List ConstructorDecl} {seen : List (List Ty)}
    {ks : List Constructor}, declareConstructors cls ds seen = .ok ks →
      ks = ds.map (fun d => ⟨d.params, d.body⟩) ∧ (ks.map (·.params)).Nodup ∧
        ∀ k ∈ ks, k.params ∉ seen
  | [], _, ks, h => by
    cases h
    exact ⟨rfl, List.nodup_nil, nofun⟩
  | d :: ds, seen, ks, h => by
    unfold declareConstructors at h
    split at h
    · cases h
    · rename_i hseen
      split at h
      · cases h
      · rename_i rest hrest
        cases h
        obtain ⟨heq, hnodup, hfresh⟩ := declareConstructors_ok hrest
        refine ⟨by rw [heq, List.map_cons], ?_, ?_⟩
        · rw [List.map_cons, List.nodup_cons]
          refine ⟨fun hm => ?_, hnodup⟩
          obtain ⟨k, hk, hparams⟩ := List.mem_map.1 hm
          exact hfresh k hk (hparams ▸ List.mem_cons_self)
        · rw [List.forall_mem_cons]
          exact ⟨hseen, fun k hk hm => hfresh k hk (List.mem_cons_of_mem _ hm)⟩

theorem buildConstructors_ok {source : ClassDecl} {ks : List Constructor}
    (h : buildConstructors source = .ok ks) : ks = source.offered ∧ (ks.map (·.params)).Nodup := by
  unfold buildConstructors at h
  unfold ClassDecl.offered
  split at h
  · rename_i hnone
    cases h
    rw [if_pos hnone]
    exact ⟨rfl, List.nodup_singleton _⟩
  · rename_i hsome
    rw [if_neg hsome]
    obtain ⟨heq, hnodup, -⟩ := declareConstructors_ok h
    exact ⟨heq, hnodup⟩

namespace WF

variable {r : Registry} {came : ClassId → Bindings → Prop} {c : Class} {body : Body}

/-- A table entry runs a body of the class that declares it. -/
theorem entry_body (hwf : r.WF came) (hc : r.Has c) {e : Method} (he : e ∈ c.methods.entries)
    (hb : e.impl = .managed body) :
    ∃ owner, r.class? e.declaring = some owner ∧ body ∈ owner.source.bodies := by
  obtain ⟨owner, d, natives, ho, -, hd, -, hentry⟩ := hwf.entry_origin hc he
  refine ⟨owner, by rw [hentry.declaring]; exact ho, ?_⟩
  cases hbody : d.body with
  | managed b =>
    rw [hentry.managed b hbody] at hb
    cases hb
    exact ClassDecl.method_mem_bodies hd hbody
  | native =>
    obtain ⟨f, -, hi⟩ := hentry.native hbody
    rw [hi] at hb
    cases hb

/-- A class has the constructors of its source, no two with the same parameters. -/
theorem constructors_offered (hwf : r.WF came) (hc : r.Has c) :
    c.constructors = c.source.offered ∧ (c.constructors.map (·.params)).Nodup := by
  obtain ⟨natives, -, hb⟩ := hwf.built_parent hc
  obtain ⟨-, -, -, -, -, -, hconstructors⟩ := build_ok hb.build
  exact buildConstructors_ok hconstructors

/-- A constructor runs a body of its class, or nothing. -/
theorem constructor_body (hwf : r.WF came) (hc : r.Has c) {k : Constructor} (hk : k ∈ c.constructors) :
    k.body ∈ c.source.bodies ∨ k.body.code = [] := by
  rw [(hwf.constructors_offered hc).1] at hk
  unfold ClassDecl.offered at hk
  split at hk
  · rw [List.mem_singleton.1 hk]
    exact .inr rfl
  · obtain ⟨d, hd, rfl⟩ := List.mem_map.1 hk
    exact .inl (ClassDecl.constructor_mem_bodies hd)

end WF

end Registry

end ObjectMachine
