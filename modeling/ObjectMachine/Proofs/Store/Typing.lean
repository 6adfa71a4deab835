/-
Every cell holds what its slot is declared for. Local slots have no types, so the cells of objects
and of classes are typed only because each way of storing into them checks the value against the
declaration of that very slot: a field is found in the layout of the class that the code names, and
that layout is an initial part of the layout of the object.
-/
import ObjectMachine.Proofs.Exec.Registered
import ObjectMachine.Proofs.Exec.Results
import ObjectMachine.Proofs.Heap

namespace ObjectMachine

/-! ## Definitions -/

/-- What a slot of a type may hold: a value of that type, or its zero value. -/
def Value.Fills (v : Value) (ty : Ty) : Prop := v.conformsTo ty = true ∨ v = ty.default

/-- One cell for each slot, and in it what the slot may hold. -/
def CellsFill (cells : List Value) (types : List Ty) : Prop := List.Forall₂ Value.Fills cells types

/-- The cells of objects and of classes hold what their slots are declared for. -/
structure Store.Typed (r : Registry) (σ : Store) : Prop where
  objects : ∀ o ∈ σ.heap.objects.toList, ∃ c, r.class? o.cls = some c ∧
    CellsFill o.cells (c.fields.map (·.type))
  statics : ∀ entry ∈ σ.statics.areas, ∃ c, r.class? entry.1 = some c ∧
    CellsFill entry.2.cells (c.statics.map (·.type))

/-! ## Cells -/

theorem CellsFill.defaults (types : List Ty) : CellsFill (types.map Ty.default) types := by
  induction types with
  | nil => exact .nil
  | cons ty types ih => exact .cons (.inr rfl) ih

theorem CellsFill.set {cells : List Value} {types : List Ty} (h : CellsFill cells types) {slot : Nat}
    {ty : Ty} (hty : types[slot]? = some ty) {v : Value} (hv : v.Fills ty) :
    CellsFill (cells.set slot v) types := by
  induction h generalizing slot with
  | nil => cases hty
  | @cons w ty' cells types hw hrest ih =>
    cases slot with
    | zero => cases hty; exact .cons hv hrest
    | succ slot => exact .cons hw (ih hty)

/-- Every slot has a cell. -/
theorem CellsFill.get? {cells : List Value} {types : List Ty} (h : CellsFill cells types) {slot : Nat}
    {ty : Ty} (hty : types[slot]? = some ty) : ∃ v, cells[slot]? = some v ∧ v.Fills ty := by
  induction h generalizing slot with
  | nil => cases hty
  | @cons w ty' cells types hw hrest ih =>
    cases slot with
    | zero => cases hty; exact ⟨w, rfl, hw⟩
    | succ slot => exact ih hty

/-! ## Classes -/

section Classes

variable {r : Registry} {σ : Store} {c : Class}

/-- The static cells of a registered class, begun or not. -/
theorem Store.Typed.area (h : σ.Typed r) (hc : r.Has c) :
    CellsFill (σ.statics.area c).cells (c.statics.map (·.type)) := by
  rcases σ.statics.area_mem c with hm | hfresh
  · obtain ⟨d, hd, hfill⟩ := h.statics _ hm
    unfold Registry.Has at hc
    rw [hc] at hd
    cases hd
    exact hfill
  · rw [hfresh]
    have hdef := CellsFill.defaults (c.statics.map (·.type))
    rw [List.map_map] at hdef
    exact hdef

theorem Store.Typed.setArea (h : σ.Typed r) (hc : r.Has c) {a : StaticArea}
    (ha : CellsFill a.cells (c.statics.map (·.type))) :
    Store.Typed r { σ with statics := σ.statics.setArea c a } := by
  refine ⟨h.objects, fun entry hm => ?_⟩
  rcases Statics.mem_put hm with rfl | hm
  · exact ⟨c, hc, ha⟩
  · exact h.statics entry hm

theorem Store.Typed.setState (h : σ.Typed r) (hc : r.Has c) (st : InitState) :
    Store.Typed r { σ with statics := σ.statics.setState c st } :=
  h.setArea hc (h.area hc)

theorem Store.Typed.setStatic (h : σ.Typed r) (hc : r.Has c) {slot : Nat} {decl : StaticDecl}
    (hdecl : c.statics[slot]? = some decl) {v : Value} (hv : v.conformsTo decl.type = true) :
    Store.Typed r { σ with statics := σ.statics.setCell c slot v } := by
  have hty : (c.statics.map (·.type))[slot]? = some decl.type := by rw [List.getElem?_map, hdecl]; rfl
  exact h.setArea hc ((h.area hc).set hty (.inl hv))

/-- A new object has the zero values of its layout. -/
theorem Store.Typed.add (h : σ.Typed r) (hc : r.Has c) {heap : Heap}
    (hobj : heap.objects = σ.heap.objects) : Store.Typed r { σ with heap := heap.add c } := by
  refine ⟨fun o ho => ?_, h.statics⟩
  rcases Heap.mem_add ho with ho | rfl
  · rw [hobj] at ho
    exact h.objects o ho
  · have hdef := CellsFill.defaults (c.fields.map (·.type))
    rw [List.map_map] at hdef
    exact ⟨c, hc, hdef⟩

/-- A field found in the layout of an ancestor is the same field in the layout of the object. -/
theorem Store.Typed.setField (h : σ.Typed r) (hwf : r.Sound) (hc : r.Has c) {target v : Value}
    {field : String} {ref : Handle} {slot : Nat} {decl : FieldCell}
    (hloc : locateField (σ.classOf? r) c target field "write" = .ok (ref, slot))
    (hdecl : c.fields[slot]? = some decl) (hv : v.conformsTo decl.type = true) :
    Store.Typed r { σ with heap := σ.heap.setCell ref slot v } := by
  refine ⟨fun o ho => ?_, h.statics⟩
  rcases Heap.mem_setCell ho with ho | ⟨o', ho', rfl⟩
  · exact h.objects o ho
  · obtain ⟨d, hd, hfill⟩ := h.objects o' (Heap.get?_mem ho')
    obtain ⟨-, -, d', hclass, hdesc⟩ := locateField_ok hloc
    obtain ⟨o'', ho'', hd'⟩ := Store.classOf?_some hclass
    rw [ho'] at ho''
    cases ho''
    rw [hd] at hd'
    cases hd'
    have hmem : c.id ∈ d.lineage := List.contains_iff_mem.1 hdesc
    obtain ⟨rest, hrest⟩ := hwf.lineage_fields (hwf.has_of_class? hd) hc hmem
    have hslot : d.fields[slot]? = some decl := by
      rw [← hrest, List.getElem?_append_left (List.getElem?_eq_some_iff.1 hdecl).1]
      exact hdecl
    have hty : (d.fields.map (·.type))[slot]? = some decl.type := by rw [List.getElem?_map, hslot]; rfl
    exact ⟨d, hd, hfill.set hty (.inl hv)⟩

theorem Store.Typed.extends {r' : Registry} (h : σ.Typed r) (hx : r.Extends r') : σ.Typed r' :=
  ⟨fun o ho => (h.objects o ho).imp fun _ hc => ⟨hx.class? hc.1, hc.2⟩,
    fun entry hm => (h.statics entry hm).imp fun _ hc => ⟨hx.class? hc.1, hc.2⟩⟩

theorem Store.Typed.congr {σ' : Store} (h : σ.Typed r) (hobj : σ'.heap.objects = σ.heap.objects)
    (hst : σ'.statics = σ.statics) : σ'.Typed r :=
  ⟨hobj ▸ h.objects, hst ▸ h.statics⟩

end Classes

/-! ## Steps -/

/-- A step stores only what the slot is declared for. -/
theorem Transition.typed {env : Env} {s s' : State} (hwf : env.registry.Sound)
    (h : Transition env s s') (hf : s.Fits env) (ht : s.store.Typed env.registry) :
    s'.store.Typed env.registry := by
  cases h with
  | hostService hst hobj => exact ht.congr hobj hst
  | putField hl hloc hdecl hv => exact ht.setField hwf (hwf.has_of_lookup hl) hloc hdecl hv
  | create _ hobj | createOverflow _ hobj => exact ht.add hf.control hobj
  | initParent | initRoot => exact ht.setState hf.control _
  | initDone | unwindInit => exact ht.setState (hf.stack _ List.mem_cons_self) _
  | storeStatic _ hv =>
    obtain ⟨hc, decl, hdecl, rfl, -⟩ := hf.stack _ List.mem_cons_self
    exact ht.setStatic hc hdecl hv
  | thenWrite hdecl hv => exact ht.setStatic (hf.stack _ List.mem_cons_self) hdecl hv
  | _ => exact ht

/-- Every store of every history is typed, whatever the host functions answer. -/
theorem typed_invariant {allowed : Act → Prop} :
    Invariant allowed (fun r σ => σ.Fits r ∧ σ.Typed r)
      fun env s => s.Fits env ∧ s.store.Typed env.registry where
  boot := fun _ _ => ⟨nofun, nofun, nofun⟩
  load := fun _ _ hx hσ => ⟨hσ.1.extends hx, hσ.2.extends hx⟩
  track := fun hobj hσ => ⟨hσ.1, hσ.2.congr hobj rfl⟩
  allocate := fun hwf _ hc hobj hσ => ⟨hσ.1, hσ.2.add (hwf.has_of_lookup hc) hobj⟩
  start := fun hwf _ h hσ => ⟨h.fits hwf hσ.1, by rw [h.store]; exact hσ.2⟩
  step := fun hwf h hs => ⟨h.fits hwf hs.1, h.typed hwf hs.1 hs.2⟩
  stop := fun _ hs => ⟨hs.1.store, hs.2⟩

/-! ## Main statement -/

/-- At every moment of every history each object has one cell for each field of its class, the cells
of objects and of classes hold what their slots are declared for, and a call that is over with an
answer gives back what its method declares. -/
theorem storage_typed {m : Machine} {past : List State} (h : History (fun _ => True) m past)
    (op : Operation) :
    (∀ n, ∀ o ∈ (m.moment op n).store.heap.objects.toList, ∃ c, m.registry.class? o.cls = some c ∧
      CellsFill o.cells (c.fields.map (·.type))) ∧
    (∀ n c, m.registry.Has c →
      CellsFill ((m.moment op n).store.statics.area c).cells (c.statics.map (·.type))) ∧
    ∀ e i j a, m.Returns op e i j a → ∃ v, a = some v ∧ e.returns.Yields v := by
  have htyped : ∀ n, (m.moment op n).store.Typed m.registry := fun n =>
    (typed_invariant.moment h trivial n).2
  exact ⟨fun n => (htyped n).objects, fun n c hc => (htyped n).area hc, fun e i j a hr => hr.yields⟩

/-- A boxed integer is read from a numeral: a host function answers, and a field is stored. -/
theorem storage_typed_boxed : ∃ m past, History (fun _ => True) m past ∧
    (m.moment (.invokeStatic systemUnit "Long" "valueOf" [.text "42"]) 40).store.heap.objects.toList.map
      (·.cells) = [[.long 42]] ∧
    ∀ o ∈ (m.moment (.invokeStatic systemUnit "Long" "valueOf" [.text "42"]) 40).store.heap.objects.toList,
      ∃ c, m.registry.class? o.cls = some c ∧ CellsFill o.cells (c.fields.map (·.type)) := by
  have h : History (fun _ => True) (.boot {} {}) [] := .boot
  refine ⟨_, _, h, ?_, (storage_typed h _).1 40⟩
  decide +kernel

end ObjectMachine
