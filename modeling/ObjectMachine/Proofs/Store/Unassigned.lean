/-
Fields that no code assigns. A run writes into a field by way of a statement that some class declares, in
the layout of the class that the statement names, as seen from the scope of the class that declares it; so
it writes into the slot that the field has there and into no other, whatever fields of the same name the
object has besides. Where no statement of any loaded class leads to a slot of a class in this way
(`Unassigned`), that cell of its objects keeps the zero value it has from the allocation on.
-/
import ObjectMachine.Proofs.Exec.Isolation
import ObjectMachine.Proofs.Store.Access

namespace ObjectMachine

/-! ## Definitions -/

/-- No class that is loaded declares a statement that writes into the slot `k` of objects of class `c`:
wherever a statement names `c` or a class above it, the field it names is in another slot. -/
def Registry.Unassigned (r : Registry) (c : Class) (k : Nat) : Prop :=
  ∀ d, r.Has d → ∀ object owner field value, d.source.Declares (.putField object owner field value) →
    ∀ o, r.lookup d.scope owner = .ok o → c.descendsFrom o = true → o.fieldIndex? field ≠ some k

/-- The cell in the slot `k` of every object of class `c` has the zero value of its type. -/
def Store.Unwritten (r : Registry) (c : Class) (k : Nat) (σ : Store) : Prop :=
  ∀ ref, σ.classOf? r ref = some c → ∀ cell, c.fields[k]? = some cell →
    σ.heap.cell? ref k = some cell.type.default

/-- The host has no bodies of its own run. -/
def Act.NoBody : Act → Prop
  | .perform (.run _ _ _ _) => False
  | _ => True

mutual

/-- The fields that a statement writes, at any depth: the classes and the names. -/
def Stmt.fieldWrites : Stmt → List (String × String)
  | .putField _ owner field _ => [(owner, field)]
  | .branch _ yes no => Stmt.fieldWritesList yes ++ Stmt.fieldWritesList no
  | .loop _ body => Stmt.fieldWritesList body
  | _ => []

def Stmt.fieldWritesList : List Stmt → List (String × String)
  | [] => []
  | st :: rest => Stmt.fieldWrites st ++ Stmt.fieldWritesList rest

end

/-- No write of a loaded class leads to the slot, as a computation. -/
def Registry.unassigned (r : Registry) (c : Class) (k : Nat) : Bool :=
  r.classes.toList.all fun d => d.source.bodies.all fun body =>
    (Stmt.fieldWritesList body.code).all fun (owner, field) =>
      match r.lookup d.scope owner with
      | .ok o => !(c.descendsFrom o && o.fieldIndex? field = some k)
      | .error _ => true

/-! ## Writes in code -/

section Writes

variable {code : List Stmt} {st : Stmt}

theorem Stmt.fieldWrites_subset_of_mem (h : st ∈ code) : st.fieldWrites ⊆ Stmt.fieldWritesList code := by
  induction code with
  | nil => cases h
  | cons head rest ih =>
    rw [Stmt.fieldWritesList]
    rcases List.mem_cons.1 h with rfl | h
    · exact List.subset_append_left _ _
    · exact List.Subset.trans (ih h) (List.subset_append_right _ _)

/-- What a statement writes anywhere in some code the code writes. -/
theorem Stmt.PartOf.fieldWrites_subset (h : st.PartOf code) :
    st.fieldWrites ⊆ Stmt.fieldWritesList code := by
  induction h with
  | own h => exact Stmt.fieldWrites_subset_of_mem h
  | branch _ hst ih =>
    refine List.Subset.trans ?_ ih
    rw [Stmt.fieldWrites]
    rcases List.mem_append.1 hst with hst | hst
    · exact List.Subset.trans (Stmt.fieldWrites_subset_of_mem hst) (List.subset_append_left _ _)
    · exact List.Subset.trans (Stmt.fieldWrites_subset_of_mem hst) (List.subset_append_right _ _)
  | loop _ hst ih =>
    refine List.Subset.trans ?_ ih
    rw [Stmt.fieldWrites]
    exact Stmt.fieldWrites_subset_of_mem hst

theorem Stmt.not_partOf_nil : ¬ st.PartOf [] := by
  intro h
  induction h with
  | own h => cases h
  | branch _ _ ih | loop _ _ ih => exact ih

theorem Registry.unassigned_sound {r : Registry} {c : Class} {k : Nat} (h : r.unassigned c k = true) :
    r.Unassigned c k := by
  rintro d hd object owner field value ⟨body, hbody, hst⟩ o ho hbelow hslot
  have hmem : d ∈ r.classes.toList := by
    unfold Registry.Has Registry.class? at hd
    rw [← Array.getElem?_toList] at hd
    exact List.mem_of_getElem? hd
  have hwrite : (owner, field) ∈ Stmt.fieldWritesList body.code :=
    hst.fieldWrites_subset (by rw [Stmt.fieldWrites]; exact List.mem_singleton_self _)
  have hfree := List.all_eq_true.1 (List.all_eq_true.1 (List.all_eq_true.1 h d hmem) body hbody) _ hwrite
  simp only [ho, hbelow, hslot] at hfree
  simp at hfree

end Writes

/-! ## Steps -/

section Steps

variable {r : Registry} {c : Class} {k : Nat} {σ σ' : Store}

/-- Only the objects count. -/
theorem Store.Unwritten.congr (h : σ.Unwritten r c k) (hobj : σ'.heap.objects = σ.heap.objects) :
    σ'.Unwritten r c k := by
  unfold Store.Unwritten Store.classOf? Heap.cell? Heap.get? at *
  rw [hobj]
  exact h

/-- A new object has zero values in all its cells. -/
theorem Store.Unwritten.add (h : σ.Unwritten r c k) {d : Class} (hd : r.Has d) {heap : Heap}
    (hobj : heap.objects = σ.heap.objects) : Store.Unwritten r c k { σ with heap := heap.add d } := by
  have hheap : Store.Unwritten r c k { σ with heap } := h.congr hobj
  intro ref hc cell hcell
  obtain ⟨o, ho, hclass⟩ := Store.classOf?_some hc
  unfold Heap.cell?
  simp only at ho ⊢
  rw [Heap.get?_add] at ho ⊢
  split at ho
  · rename_i hnew
    cases ho
    rw [hd] at hclass
    cases hclass
    rw [if_pos hnew, Option.bind_some, List.getElem?_map, hcell]
    rfl
  · rename_i hold
    rw [if_neg hold]
    exact hheap ref (Option.bind_eq_some_iff.2 ⟨o, ho, hclass⟩) cell hcell

/-- A write into another slot, or into an object of another class. -/
theorem Store.Unwritten.setCell (h : σ.Unwritten r c k) {ref : Handle} {slot : Nat}
    (hother : σ.classOf? r ref = some c → slot ≠ k) (v : Value) :
    Store.Unwritten r c k { σ with heap := σ.heap.setCell ref slot v } := by
  intro other hc cell hcell
  have hclass : σ.classOf? r other = some c := by
    obtain ⟨o, ho, hclass⟩ := Store.classOf?_some hc
    rw [Heap.get?_setCell] at ho
    split at ho
    · obtain ⟨o', ho', rfl⟩ := Option.map_eq_some_iff.1 ho
      exact Option.bind_eq_some_iff.2 ⟨o', ho', hclass⟩
    · exact Option.bind_eq_some_iff.2 ⟨o, ho, hclass⟩
  have hcell' := h other hclass cell hcell
  unfold Heap.cell? at hcell' ⊢
  simp only
  rw [Heap.get?_setCell]
  split
  · rename_i href
    obtain rfl : other = ref := by cases other; cases ref; simp_all
    obtain ⟨o, ho, hget⟩ := Option.bind_eq_some_iff.1 hcell'
    rw [ho, Option.map_some, Option.bind_some, List.getElem?_set_ne (hother hclass)]
    exact hget
  · exact hcell'

/-- A step writes into a field only by way of a statement that a class declares. -/
theorem Transition.unwritten {env : Env} {s s' : State} (h : Transition env s s') (hfit : s.Fits env)
    {R : Realm} (hcode : ∀ d st, R.stmt d st → d.source.Declares st) (hin : s.In R)
    (hfree : env.registry.Unassigned c k) (hs : s.store.Unwritten env.registry c k) :
    s'.store.Unwritten env.registry c k := by
  cases h with
  | @putField f a owner field target v o ref slot decl K d σ hlookup hloc =>
    obtain ⟨-, -, object, value, hst⟩ := hin.stack _ List.mem_cons_self
    refine hs.setCell (fun hclass hslot => ?_) v
    obtain ⟨-, hindex, own, hown, hbelow⟩ := locateField_ok hloc
    obtain rfl : c = own := Option.some.inj (hclass.symm.trans hown)
    have hf : env.registry.Has f.cls := hfit.stack _ List.mem_cons_self f rfl
    exact hfree f.cls hf object owner field value (hcode _ _ hst) o hlookup hbelow (hslot ▸ hindex)
  | create _ hobj | createOverflow _ hobj => exact hs.add hfit.control hobj
  | hostService _ hobj => exact hs.congr hobj
  | _ => exact hs

end Steps

/-! ## Runs -/

section Runs

variable {m m' : Machine} {past : List State} {c : Class} {k : Nat}

/-- An operation that brings no body with it runs only code that the classes declare. -/
theorem Operation.code_nil {op : Operation} (h : Act.NoBody (.perform op)) : op.code = [] := by
  cases op with
  | run => exact h.elim
  | _ => rfl

theorem History.moment_unwritten (h : History Act.NoBody m past) (hfree : m.registry.Unassigned c k)
    (hs : m.store.Unwritten m.registry c k) {op : Operation} (hop : Act.NoBody (.perform op)) (n : Nat) :
    (m.moment op n).store.Unwritten m.registry c k := by
  have hgiven := m.encloses_all op
  have hcode : ∀ d st, (m.realm op fun _ => True).stmt d st → d.source.Declares st := by
    rintro d st (hst | hst)
    · exact hst
    · rw [Operation.code_nil hop] at hst
      exact absurd hst Stmt.not_partOf_nil
  induction n with
  | zero =>
    rw [m.start_store]
    exact hs
  | succ n ih =>
    rw [m.moment_succ]
    have hin := h.moment_in hgiven.covers hop hgiven.operation hgiven.store n
    have hfit : (m.moment op n).Fits m.env := fits_invariant.moment h hop n
    exact (State.step_transition m.env _).unwritten hfit hcode hin hfree ih

/-- A class that no code of a registry writes into is one that no code of a part of it does. -/
theorem Registry.Unassigned.of_grows {r r' : Registry} (hg : r.Grows r') (h : r'.Unassigned c k) :
    r.Unassigned c k := by
  intro d hd object owner field value hst o ho
  refine h d (hg.kept.has hd) object owner field value hst o ?_
  rw [hg.lookup (hg.scopes.classes d hd)]
  exact ho

/-- Between acts the cell has its zero value: while a class is not loaded it has no objects, and classes
that are loaded later do not change what the names in the code of earlier ones stand for. -/
theorem History.unwritten (h : History Act.NoBody m past) (hfree : m.registry.Unassigned c k) :
    m.store.Unwritten m.registry c k := by
  induction h with
  | boot => exact fun ref hc => nomatch hc
  | @act m past a m' seen h ha hd ih =>
    cases hd with
    | @load unit =>
      have hg := Machine.load_grows h.sound h.scoped unit
      have htyped : m.store.Typed m.registry := (typed_invariant.between h).2
      have hs := ih (hfree.of_grows hg)
      intro ref hc
      rw [Machine.load_store, hg.classOf? htyped] at hc
      exact hs ref hc
    | bind | hold => exact ih hfree
    | collect => exact (ih hfree).congr rfl
    | @allocate u cls d hd =>
      obtain ⟨heap, hobj, heq⟩ := m.allocate_store d
      rw [heq] at hfree ⊢
      exact (ih hfree).add (h.sound.has_of_lookup hd) hobj
    | perform hp =>
      obtain ⟨-, rfl⟩ := Machine.perform_some hp
      exact h.moment_unwritten hfree (ih hfree) ha _

end Runs

/-! ## Main statement -/

/-- If no statement that a loaded class declares, bundled ones included, leads to a slot of a class, then in
every state that a host brings about without bodies of its own this cell has the zero value of its type in
every object of the class: however the object was constructed, whether or not its construction succeeded,
and whatever was done since. -/
theorem unassigned_unwritten {m : Machine} {past : List State} (h : History Act.NoBody m past) {c : Class}
    {k : Nat} (hfree : m.registry.Unassigned c k) :
    m.store.Unwritten m.registry c k ∧
    ∀ op, Act.NoBody (.perform op) → ∀ n, (m.moment op n).store.Unwritten m.registry c k :=
  ⟨h.unwritten hfree, fun _ hop n => h.moment_unwritten hfree (h.unwritten hfree) hop n⟩

/-- A class with two fields, and one below it that hides the first of them. Each constructor assigns one
field, and the lower one fails in the end. -/
def halfAssigned : CompilationUnit :=
  { name := "half"
    classes := [
      { name := "Upper", fields := [⟨"x", .int⟩, ⟨"y", .int⟩]
        constructors := [{ params := [], body := { code := [.putThis "Upper" "y" (.ofInt 1)] } }] },
      { name := "Lower", parent := some "Upper", fields := [⟨"x", .text⟩]
        constructors := [{
          params := []
          body := { code := [.superInit [], .putThis "Lower" "x" (.literal (.text "own")),
            .putThis "Lower" "x" (.ofInt 2)] } }] }] }

/-- The hidden field keeps its zero value, in an object whose construction fails halfway. -/
theorem unassigned_unwritten_half : ∃ m past, History Act.NoBody m past ∧
    ∃ c, m.registry.lookup 1 "Lower" = .ok c ∧ m.registry.Unassigned c 0 ∧
      m.store.classOf? m.registry ⟨0⟩ = some c ∧ m.store.heap.cell? ⟨0⟩ 0 = some (.int 0) ∧
      m.store.heap.cell? ⟨0⟩ 2 = some (.text "own") := by
  let loaded : Machine := (Machine.load (.boot {} {}) halfAssigned).2
  have hboot : History Act.NoBody (.boot {} {}) [] := .boot
  have hloaded : History Act.NoBody loaded _ := hboot.act (a := .load halfAssigned) trivial .load
  have hend : ∃ e, (loaded.moment (.construct 1 "Lower" []) 60).outcome? = some (.error e) :=
    ⟨.typeMismatch "text" "int", by decide +kernel⟩
  obtain ⟨e, hend⟩ := hend
  let m : Machine := { loaded with store := (loaded.moment (.construct 1 "Lower" []) 60).store }
  have h : History Act.NoBody m _ :=
    hloaded.act (a := .perform (.construct 1 "Lower" [])) trivial
      (.perform (Machine.perform_of_outcome? le_rfl hend))
  have hfacts : ∃ c ∈ m.registry.get? 1 "Lower", ∃ d ∈ m.store.classOf? m.registry ⟨0⟩, d.id = c.id ∧
      m.registry.unassigned c 0 = true ∧ (c.fields[0]?.map (·.type)) = some .int ∧
      m.store.heap.cell? ⟨0⟩ 2 = some (.text "own") := by
    decide +kernel
  obtain ⟨c, hc, d, hd, hid, hfree, htype, hown⟩ := hfacts
  have hlookup : m.registry.lookup 1 "Lower" = .ok c := by
    unfold Registry.lookup
    rw [hc]
  have hhas := h.sound.has_of_lookup hlookup
  obtain rfl : d = c := (h.sound.has_of_class? (Store.classOf?_some hd).choose_spec.2).unique hhas hid
  obtain ⟨cell, hcell, hty⟩ := Option.map_eq_some_iff.1 htype
  have hzero := (unassigned_unwritten h (Registry.unassigned_sound hfree)).1 ⟨0⟩ hd cell hcell
  rw [hty] at hzero
  exact ⟨m, _, h, d, hlookup, Registry.unassigned_sound hfree, hd, hzero, hown⟩

end ObjectMachine
