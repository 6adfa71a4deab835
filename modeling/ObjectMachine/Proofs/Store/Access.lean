/-
Access to fields. A field is found in the layout of the class that the code names, which is an initial
part of the layout of every class below: in an object of such a class it is the same slot, whatever the
classes between declare again. An object has one cell for each field of its class from its allocation
on, also when the host stores into cells itself, so a slot that is found has a cell. Reading answers
that cell, writing changes that cell alone, and an access that is refused changes nothing.
-/
import ObjectMachine.Proofs.Exec.Registered
import ObjectMachine.Proofs.Heap

namespace ObjectMachine

/-! ## Definitions -/

/-- An access from the code of `f` to a field of the class `d` finds a slot of an object of the class
`c`. -/
structure Locates (env : Env) (σ : Store) (f : Frame) (owner field : String) (target : Value)
    (ref : Handle) (c d : Class) (slot : Nat) : Prop where
  owner : env.registry.lookup f.cls.scope owner = .ok d
  target : target = .object ref
  cls : σ.classOf? env.registry ref = some c
  below : c.descendsFrom d = true
  slot : d.fieldIndex? field = some slot

/-- The errors with which an access from the code of `f` to a field is refused: the class is unknown,
there is no object, it is no instance of the class, or the class has no such field. -/
inductive Refuses (env : Env) (σ : Store) (f : Frame) (owner field access : String) (target : Value) :
    Failure → Prop where
  | unknownClass {e} : env.registry.lookup f.cls.scope owner = .error e →
      Refuses env σ f owner field access target e
  | absent {d} : env.registry.lookup f.cls.scope owner = .ok d →
      (∀ ref, target = .object ref → σ.classOf? env.registry ref = none) →
      target = .null ∨ (∃ ref, target = .object ref) →
      Refuses env σ f owner field access target
        (.dispatchOnNull (access ++ " of field " ++ d.name ++ "." ++ field))
  | noObject {d} : env.registry.lookup f.cls.scope owner = .ok d → target ≠ .null →
      target.asObject? = none →
      Refuses env σ f owner field access target (.typeMismatch d.name target.typeName)
  | noInstance {c d ref} : env.registry.lookup f.cls.scope owner = .ok d → target = .object ref →
      σ.classOf? env.registry ref = some c → c.descendsFrom d = false →
      Refuses env σ f owner field access target (.typeMismatch d.name c.name)
  | noField {c d ref} : env.registry.lookup f.cls.scope owner = .ok d → target = .object ref →
      σ.classOf? env.registry ref = some c → c.descendsFrom d = true → d.fieldIndex? field = none →
      Refuses env σ f owner field access target (.noSuchField d.name field)

/-- `σ'` is `σ` with the value `v` in one cell: the other cells, the classes of the objects, the static
cells and whatever else there is are the same. -/
structure Store.Puts (σ : Store) (ref : Handle) (slot : Nat) (v : Value) (σ' : Store) : Prop where
  cells : ∀ other i, σ'.heap.cell? other i =
    if other = ref ∧ i = slot then some v else σ.heap.cell? other i
  classes : ∀ other, (σ'.heap.get? other).map (·.cls) = (σ.heap.get? other).map (·.cls)
  rest : σ' = { σ with heap := { σ.heap with objects := σ'.heap.objects } }

/-- The code of `f` is about to read a field of the object that the answer is. -/
def State.reading (f : Frame) (owner field : String) (a : Option Value) (K : List Cont) (n : Nat)
    (σ : Store) : State :=
  ⟨.answer a, .readField owner field f :: K, n, σ⟩

/-- The code of `f` is about to store the answer into a field of the object `target`. -/
def State.writing (f : Frame) (owner field : String) (target : Value) (a : Option Value)
    (K : List Cont) (n : Nat) (σ : Store) : State :=
  ⟨.answer a, .putValue owner field target f :: K, n, σ⟩

/-- Objects of registered classes, with one cell for each field. -/
def Heap.Shaped (r : Registry) (h : Heap) : Prop :=
  ∀ ref o, h.get? ref = some o → ∃ c, r.class? o.cls = some c ∧ o.cells.length = c.fields.length

/-- The states of a run during which the host stores into cells whenever it likes. -/
inductive StoringRun (m : Machine) (op : Operation) : State → Prop where
  | start : StoringRun m op (op.start m.env m.store)
  | step {s} : StoringRun m op s → StoringRun m op (s.step m.env)
  | store {s ref slot v heap} : StoringRun m op s → s.store.heap.setCell? ref slot v = .ok heap →
      StoringRun m op { s with store := { s.store with heap } }

/-- The machines of a host that stores into cells whenever it likes, whatever their types. -/
inductive StoringHistory : Machine → Prop where
  | boot {options sink clock} : StoringHistory (.boot options sink clock)
  | act {m a m' seen} : StoringHistory m → Does m a m' seen → StoringHistory m'
  | run {m op s r} : StoringHistory m → StoringRun m op s → s.outcome? = some r →
      StoringHistory { m with store := s.store }
  | store {m ref slot v heap} : StoringHistory m → m.store.heap.setCell? ref slot v = .ok heap →
      StoringHistory { m with store := { m.store with heap } }

/-! ## Slots and cells -/

/-- The slot of a name holds a field of that name. -/
theorem Class.fieldIndex?_some {c : Class} {name : String} {slot : Nat}
    (h : c.fieldIndex? name = some slot) : ∃ cell, c.fields[slot]? = some cell ∧ cell.name = name := by
  obtain ⟨i, hi, rfl⟩ := Option.map_eq_some_iff.1 h
  obtain ⟨hlt, hname, -⟩ := List.findIdx?_eq_some_iff_getElem.1 hi
  rw [List.length_reverse] at hlt
  refine ⟨_, List.getElem?_eq_getElem (by omega), ?_⟩
  rw [List.getElem_reverse] at hname
  exact of_decide_eq_true hname

theorem Heap.cell?_setCell (h : Heap) (ref : Handle) (slot : Nat) (v : Value) {old : Value}
    (hold : h.cell? ref slot = some old) (other : Handle) (i : Nat) :
    (h.setCell ref slot v).cell? other i =
      if other = ref ∧ i = slot then some v else h.cell? other i := by
  obtain ⟨o, ho, hcell⟩ := Option.bind_eq_some_iff.1 hold
  have hlt : slot < o.cells.length := (List.getElem?_eq_some_iff.1 hcell).1
  unfold Heap.cell?
  rw [Heap.get?_setCell]
  by_cases href : ref.index = other.index
  · obtain rfl : other = ref := by cases other; cases ref; simp_all
    rw [if_pos rfl, ho]
    simp only [Option.map_some, Option.bind_some, List.getElem?_set, true_and]
    by_cases hi : slot = i
    · rw [if_pos hi, if_pos hi.symm, if_pos (hi ▸ hlt)]
    · rw [if_neg hi, if_neg (Ne.symm hi)]
  · rw [if_neg href, if_neg fun heq => href (by rw [heq.1])]

/-- Storing into a cell that exists. -/
theorem Store.puts_setCell {σ : Store} {ref : Handle} {slot : Nat} {old : Value}
    (hold : σ.heap.cell? ref slot = some old) (v : Value) :
    σ.Puts ref slot v { σ with heap := σ.heap.setCell ref slot v } where
  cells := σ.heap.cell?_setCell ref slot v hold
  classes other := by
    simp only [Heap.get?_setCell]
    split
    · rw [Option.map_map]
      rfl
    · rfl
  rest := rfl

/-! ## One cell for each field -/

section Shapes

variable {r : Registry} {heap heap' : Heap} {c : Class}

/-- A slot of an object's own layout has a cell. -/
theorem Heap.Shaped.cell? {σ : Store} (h : σ.heap.Shaped r) {ref : Handle} {slot : Nat}
    (hc : σ.classOf? r ref = some c) {cell : FieldCell} (hcell : c.fields[slot]? = some cell) :
    ∃ v, σ.heap.cell? ref slot = some v := by
  obtain ⟨o, ho, hclass⟩ := Store.classOf?_some hc
  obtain ⟨d, hd, hlen⟩ := h ref o ho
  rw [hclass] at hd
  cases hd
  have hlt : slot < o.cells.length := hlen ▸ (List.getElem?_eq_some_iff.1 hcell).1
  exact ⟨o.cells[slot], by rw [Heap.cell?, ho, Option.bind_some, List.getElem?_eq_getElem hlt]⟩

theorem Heap.Shaped.congr (h : heap.Shaped r) (hobj : heap'.objects = heap.objects) :
    heap'.Shaped r := by
  unfold Heap.Shaped Heap.get?
  rw [hobj]
  exact h

theorem Heap.Shaped.add (h : heap.Shaped r) (hc : r.Has c) : (heap.add c).Shaped r := by
  intro ref o ho
  rw [Heap.get?_add] at ho
  split at ho
  · cases ho
    exact ⟨c, hc, List.length_map _⟩
  · exact h ref o ho

theorem Heap.Shaped.setCell (h : heap.Shaped r) (ref : Handle) (slot : Nat) (v : Value) :
    (heap.setCell ref slot v).Shaped r := by
  intro other o ho
  rw [Heap.get?_setCell] at ho
  split at ho
  · obtain ⟨o', ho', rfl⟩ := Option.map_eq_some_iff.1 ho
    obtain ⟨c, hc, hlen⟩ := h other o' ho'
    exact ⟨c, hc, (List.length_set ..).trans hlen⟩
  · exact h other o ho

theorem Transition.shaped {env : Env} {s s' : State} (h : Transition env s s') (hf : s.Fits env)
    (hs : s.store.heap.Shaped env.registry) : s'.store.heap.Shaped env.registry := by
  rcases h.objects with hobj | ⟨c, args, heap, hc, hobj, hheap⟩ |
    ⟨_, _, _, _, v, _, ref, slot, _, _, _, _, _, hheap⟩
  · exact hs.congr hobj
  · rw [hheap]
    exact (hs.congr hobj).add (hf.of_control hc)
  · rw [hheap]
    exact hs.setCell ref slot v

theorem shaped_invariant {allowed : Act → Prop} :
    Invariant allowed (fun r σ => σ.Fits r ∧ σ.heap.Shaped r)
      fun env s => s.Fits env ∧ s.store.heap.Shaped env.registry where
  boot := fun _ _ => ⟨nofun, fun ref o ho => by cases ho⟩
  load := fun _ _ hx hσ => ⟨hσ.1.extends hx, fun ref o ho =>
    (hσ.2 ref o ho).imp fun _ hc => ⟨hx.class? hc.1, hc.2⟩⟩
  track := fun hobj hσ => ⟨hσ.1, hσ.2.congr hobj⟩
  allocate := fun hwf _ hc hobj hσ => ⟨hσ.1, (hσ.2.congr hobj).add (hwf.has_of_lookup hc)⟩
  start := fun hwf _ h hσ => ⟨h.fits hwf hσ.1, by rw [h.store]; exact hσ.2⟩
  step := fun hwf h hs => ⟨h.fits hwf hs.1, h.shaped hs.1 hs.2⟩
  stop := fun _ hs => ⟨hs.1.store, hs.2⟩

/-- A store by the host keeps the shape of objects, so runs and histories with such stores have it too. -/
theorem StoringRun.shaped {m : Machine} {op : Operation} {s : State} (h : StoringRun m op s)
    (hwf : m.registry.Sound) (hfits : m.store.Fits m.registry) (hs : m.store.heap.Shaped m.registry) :
    s.Fits m.env ∧ s.store.heap.Shaped m.registry := by
  have inv : Invariant (fun _ => True) _ _ := shaped_invariant
  induction h with
  | start => exact inv.start hwf trivial (start_starts m.env op m.store) ⟨hfits, hs⟩
  | step _ ih => exact inv.step hwf (State.step_transition _ _) ih
  | store _ hset ih =>
    obtain rfl := Heap.setCell?_ok hset
    exact ⟨⟨ih.1.control, ih.1.stack, ih.1.store⟩, ih.2.setCell _ _ _⟩

theorem StoringHistory.shaped {m : Machine} (h : StoringHistory m) :
    m.registry.Sound ∧ m.store.Fits m.registry ∧ m.store.heap.Shaped m.registry := by
  have inv : Invariant (fun _ => True) _ _ := shaped_invariant
  induction h with
  | boot => exact ⟨Library.registry_sound, inv.boot _ _⟩
  | act _ hd ih => exact ⟨hd.sound ih.1, (inv.act ih.1 trivial hd ih.2).1⟩
  | run _ hs _ ih =>
    obtain ⟨hfits, hshaped⟩ := hs.shaped ih.1 ih.2.1 ih.2.2
    exact ⟨ih.1, hfits.store, hshaped⟩
  | store _ hset ih =>
    obtain rfl := Heap.setCell?_ok hset
    exact ⟨ih.1, ih.2.1, ih.2.2.setCell _ _ _⟩

end Shapes

/-! ## Accesses -/

section Accesses

variable {env : Env} {σ : Store} {f : Frame} {owner field access : String} {target : Value}
  {ref : Handle} {c d : Class} {slot : Nat}

theorem Locates.locateField (h : Locates env σ f owner field target ref c d slot) (access : String) :
    locateField (σ.classOf? env.registry) d target field access = .ok (ref, slot) := by
  unfold ObjectMachine.locateField
  simp only [h.target, h.cls, h.below, h.slot, if_true]

/-- The field that is found in the layout of the named class is there in the object. -/
theorem Locates.cells (hwf : env.registry.Sound) (hs : σ.heap.Shaped env.registry)
    (h : Locates env σ f owner field target ref c d slot) :
    ∃ cell v, d.fields[slot]? = some cell ∧ c.fields[slot]? = some cell ∧ cell.name = field ∧
      σ.heap.cell? ref slot = some v := by
  obtain ⟨cell, hcell, hname⟩ := Class.fieldIndex?_some h.slot
  obtain ⟨o, -, hclass⟩ := Store.classOf?_some h.cls
  obtain ⟨rest, hrest⟩ := hwf.lineage_fields (hwf.has_of_class? hclass) (hwf.has_of_lookup h.owner)
    (List.contains_iff_mem.1 h.below)
  have hcell' : c.fields[slot]? = some cell := by
    rw [← hrest, List.getElem?_append_left (List.getElem?_eq_some_iff.1 hcell).1]
    exact hcell
  obtain ⟨v, hv⟩ := hs.cell? h.cls hcell'
  exact ⟨cell, v, hcell, hcell', hname, hv⟩

/-- An access finds a field, or it is refused. -/
theorem locates_or_refuses (env : Env) (σ : Store) (f : Frame) (owner field : String) (target : Value) :
    (∃ ref c d slot, Locates env σ f owner field target ref c d slot) ∨
    ∀ access, ∃ e, Refuses env σ f owner field access target e := by
  cases hd : env.registry.lookup f.cls.scope owner with
  | error e => exact .inr fun _ => ⟨e, .unknownClass hd⟩
  | ok d =>
    cases target with
    | null => exact .inr fun _ => ⟨_, .absent hd nofun (.inl rfl)⟩
    | object ref =>
      cases hc : σ.classOf? env.registry ref with
      | none => exact .inr fun _ => ⟨_, .absent hd (fun _ h => by cases h; exact hc) (.inr ⟨ref, rfl⟩)⟩
      | some c =>
        cases hb : c.descendsFrom d with
        | false => exact .inr fun _ => ⟨_, .noInstance hd rfl hc hb⟩
        | true =>
          cases hs : d.fieldIndex? field with
          | none => exact .inr fun _ => ⟨_, .noField hd rfl hc hb hs⟩
          | some slot => exact .inl ⟨ref, c, d, slot, hd, rfl, hc, hb, hs⟩
    | bool | int | long | text => exact .inr fun _ => ⟨_, .noObject hd (by simp) rfl⟩

/-- A refused access fails where the class or the field is looked up. -/
theorem Refuses.error {e : Failure} (h : Refuses env σ f owner field access target e) :
    env.registry.lookup f.cls.scope owner = .error e ∨
    ∃ d, env.registry.lookup f.cls.scope owner = .ok d ∧
      locateField (σ.classOf? env.registry) d target field access = .error e := by
  unfold ObjectMachine.locateField
  cases h with
  | unknownClass hd => exact .inl hd
  | @absent d hd hgone hnone =>
    refine .inr ⟨d, hd, ?_⟩
    rcases hnone with rfl | ⟨ref, rfl⟩
    · rfl
    · simp only [hgone ref rfl]
  | @noObject d hd hnull hobj =>
    refine .inr ⟨d, hd, ?_⟩
    cases target with
    | null => exact absurd rfl hnull
    | object ref => cases hobj
    | _ => rfl
  | @noInstance c d ref hd htarget hc hb =>
    refine .inr ⟨d, hd, ?_⟩
    simp only [htarget, hc, hb, Bool.false_eq_true, if_false]
  | @noField c d ref hd htarget hc hb hs =>
    refine .inr ⟨d, hd, ?_⟩
    simp only [htarget, hc, hb, hs, if_true]
    rfl

variable {a : Option Value} {K : List Cont} {n : Nat}

theorem Refuses.read {e : Failure} (h : Refuses env σ f owner field "read" (a.getD .null) e) :
    (State.reading f owner field a K n σ).step env = ⟨.raise e, K, n, σ⟩ := by
  show State.readField env ⟨.answer a, K, n, σ⟩ owner field f (a.getD .null) = _
  unfold State.readField State.lookup
  rcases h.error with he | ⟨d, hd, he⟩
  · rw [he]
    rfl
  · rw [hd]
    simp only [State.proceed, he]
    rfl

theorem Refuses.write {e : Failure} (h : Refuses env σ f owner field "write" target e) :
    (State.writing f owner field target a K n σ).step env = ⟨.raise e, K, n, σ⟩ := by
  show State.writeField env ⟨.answer a, K, n, σ⟩ owner field f target (a.getD .null) = _
  unfold State.writeField State.lookup
  rcases h.error with he | ⟨d, hd, he⟩
  · rw [he]
    rfl
  · rw [hd]
    simp only [State.proceed, he]
    rfl

theorem Locates.read {v : Value} (h : Locates env σ f owner field (a.getD .null) ref c d slot)
    (hv : σ.heap.cell? ref slot = some v) :
    (State.reading f owner field a K n σ).step env = ⟨.answer (some v), K, n, σ⟩ := by
  show State.readField env ⟨.answer a, K, n, σ⟩ owner field f (a.getD .null) = _
  unfold State.readField State.lookup
  rw [h.owner]
  simp only [State.proceed, h.locateField "read", hv]
  rfl

theorem Locates.write {old : Value} {cell : FieldCell}
    (h : Locates env σ f owner field target ref c d slot) (hcell : d.fields[slot]? = some cell)
    (hold : σ.heap.cell? ref slot = some old) :
    (State.writing f owner field target a K n σ).step env =
      if (a.getD .null).conformsTo cell.type then
        ⟨.exec f, K, n, { σ with heap := σ.heap.setCell ref slot (a.getD .null) }⟩
      else ⟨.raise (.typeMismatch cell.type.name (a.getD .null).typeName), K, n, σ⟩ := by
  show State.writeField env ⟨.answer a, K, n, σ⟩ owner field f target (a.getD .null) = _
  unfold State.writeField State.lookup
  rw [h.owner]
  simp only [State.proceed, h.locateField "write", hcell, hold]
  rfl

end Accesses

/-! ## Main statement -/

/-- The layout of a class begins with the layout of every class above it. In every state that a host can
bring about, an access to a field that finds a slot finds it with the same name, type and declaring class
in the object's own layout, and its cell is there: reading answers the cell, writing a value of the
field's type changes the cell and nothing else, and writing another value is an error. Every other
access is refused with an error; an error changes nothing. -/
theorem field_access {m : Machine} (hm : StoringHistory m) {op : Operation} {s : State}
    (hs : StoringRun m op s) :
    (∀ changes c d, (Registry.grow changes).Has c → (Registry.grow changes).Has d →
      c.descendsFrom d = true → d.fields <+: c.fields) ∧
    (∀ f owner field target ref c d slot,
      Locates m.env s.store f owner field target ref c d slot →
      ∃ cell v, d.fields[slot]? = some cell ∧ c.fields[slot]? = some cell ∧ cell.name = field ∧
        s.store.heap.cell? ref slot = some v ∧
        (∀ a K n, a.getD .null = target →
          (State.reading f owner field a K n s.store).step m.env =
            ⟨.answer (some v), K, n, s.store⟩) ∧
        ∀ a K n,
          ((a.getD .null).conformsTo cell.type = true → ∃ σ, s.store.Puts ref slot (a.getD .null) σ ∧
            (State.writing f owner field target a K n s.store).step m.env =
              ⟨.exec f, K, n, σ⟩) ∧
          ((a.getD .null).conformsTo cell.type = false →
            (State.writing f owner field target a K n s.store).step m.env =
              ⟨.raise (.typeMismatch cell.type.name (a.getD .null).typeName), K, n, s.store⟩)) ∧
    ∀ f owner field target,
      (∀ ref c d slot, ¬ Locates m.env s.store f owner field target ref c d slot) →
      (∃ e, Refuses m.env s.store f owner field "read" target e ∧ ∀ a K n, a.getD .null = target →
        (State.reading f owner field a K n s.store).step m.env =
          ⟨.raise e, K, n, s.store⟩) ∧
      ∃ e, Refuses m.env s.store f owner field "write" target e ∧ ∀ a K n,
        (State.writing f owner field target a K n s.store).step m.env =
          ⟨.raise e, K, n, s.store⟩ := by
  obtain ⟨hwf, hfits, hshaped⟩ := hm.shaped
  have hshape := (hs.shaped hwf hfits hshaped).2
  refine ⟨fun changes c d hc hd hb => ?_, fun f owner field target ref c d slot h => ?_,
    fun f owner field target hno => ?_⟩
  · exact (Registry.grow_sound changes).lineage_fields hc hd (List.contains_iff_mem.1 hb)
  · obtain ⟨cell, v, hcell, hcell', hname, hv⟩ := h.cells hwf hshape
    refine ⟨cell, v, hcell, hcell', hname, hv, fun a K n ha => ?_, fun a K n => ⟨fun hconf => ?_,
      fun hconf => ?_⟩⟩
    · subst ha
      exact h.read hv
    · exact ⟨_, Store.puts_setCell hv _, (h.write hcell hv).trans (if_pos hconf)⟩
    · exact (h.write hcell hv).trans (if_neg (by simp [hconf]))
  · have hrefused : ∀ access, ∃ e, Refuses m.env s.store f owner field access target e := by
      rcases locates_or_refuses m.env s.store f owner field target with ⟨ref, c, d, slot, h⟩ | h
      · exact absurd h (hno ref c d slot)
      · exact h
    obtain ⟨e, he⟩ := hrefused "read"
    obtain ⟨e', he'⟩ := hrefused "write"
    refine ⟨⟨e, he, fun a K n ha => ?_⟩, ⟨e', he', fun a K n => he'.write⟩⟩
    subst ha
    exact he.read

/-- A class with a field, and one below it that hides the field behind one of another type. -/
def hidingUnit : CompilationUnit :=
  { name := "accounts"
    classes := [
      { name := "Account", fields := [{ name := "balance", type := .int }] },
      { name := "Savings", parent := some "Account"
        fields := [{ name := "balance", type := .text }, { name := "rate", type := .int }] }] }

/-- A savings account; the host itself has stored a text where the balance of an account is. -/
def hidingMachine : Machine :=
  let m := (Machine.load (.boot {} {}) hidingUnit).2
  let σ := (m.moment (.construct 1 "Savings" []) 20).store
  { m with store := { σ with heap := σ.heap.setCell ⟨0⟩ 0 (.text "lost") } }

theorem hidingMachine_history : StoringHistory hidingMachine := by
  have h : StoringHistory (Machine.load (.boot {} {}) hidingUnit).2 := .act .boot .load
  have hend : ((Machine.load (.boot {} {}) hidingUnit).2.moment
      (.construct 1 "Savings" []) 20).outcome? = some (.ok (some (.object ⟨0⟩))) := by
    decide +kernel
  have hset (heap : Heap) (hlt : 0 < (heap.cells ⟨0⟩).length) :
      heap.setCell? ⟨0⟩ 0 (.text "lost") = .ok (heap.setCell ⟨0⟩ 0 (.text "lost")) := if_pos hlt
  exact .store (h.act (.perform (Machine.perform_of_outcome? le_rfl hend)))
    (hset _ (by decide +kernel))

/-- The field of the named class is read, as the host left it, and written. -/
theorem field_access_hidden : ∃ f, ∃ σ : Store, hidingMachine.store.Puts ⟨0⟩ 0 (.int 7) σ ∧
    (State.reading f "Account" "balance" (some (.object ⟨0⟩)) [] 0 hidingMachine.store).step
      hidingMachine.env = ⟨.answer (some (.text "lost")), [], 0, hidingMachine.store⟩ ∧
    (State.writing f "Account" "balance" (.object ⟨0⟩) (some (.int 7)) [] 0 hidingMachine.store).step
      hidingMachine.env = ⟨.exec f, [], 0, σ⟩ := by
  have hfacts : ∃ d ∈ hidingMachine.registry.get? 1 "Account",
      ∃ c ∈ hidingMachine.store.classOf? hidingMachine.registry ⟨0⟩,
        c.scope = 1 ∧ c.descendsFrom d = true ∧ d.fieldIndex? "balance" = some 0 ∧
        d.fields[0]?.map (·.type) = some .int ∧
        hidingMachine.store.heap.cell? ⟨0⟩ 0 = some (.text "lost") := by
    decide +kernel
  obtain ⟨d, hd, c, hc, hscope, hbelow, hslot, htype, hcell⟩ := hfacts
  have hlookup : hidingMachine.registry.lookup c.scope "Account" = .ok d := by
    unfold Registry.lookup
    rw [hscope, hd]
  have hrun : StoringRun hidingMachine (.prepare 1 "Savings") _ := .start
  have hstore : (Operation.start (.prepare 1 "Savings") hidingMachine.env hidingMachine.store).store =
      hidingMachine.store := hidingMachine.start_store (.prepare 1 "Savings")
  have hmain := (field_access hidingMachine_history hrun).2.1
  rw [hstore] at hmain
  obtain ⟨cell, v, hfield, -, -, hv, hread, hwrite⟩ := hmain (.initializer c) "Account" "balance"
    (.object ⟨0⟩) ⟨0⟩ c d 0 ⟨hlookup, rfl, hc, hbelow, hslot⟩
  have htype : cell.type = .int := by simpa [hfield] using htype
  rw [hcell] at hv
  cases hv
  obtain ⟨σ, hputs, hstep⟩ := (hwrite (some (.int 7)) [] 0).1 (by rw [htype]; rfl)
  exact ⟨.initializer c, σ, hputs, hread _ [] 0 rfl, hstep⟩

end ObjectMachine
