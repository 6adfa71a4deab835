/-
Readers and the depth of what they read. A reader `Reads` a value as something when it does so exactly if
it may open as many arrays and objects as are nested in the value; a list and a record of things that are
read like this are read like this again. In the other direction, the value that has been read may have
been written in many ways, and the lemmas say only what each combinator was given.
-/
import ObjectMachine.Json.Reader
import ObjectMachine.Proofs.Json.RoundTrip
import ObjectMachine.UnitFormat.Encode

namespace ObjectMachine.Json

/-! ## Depth -/

mutual

/-- How deep arrays and objects are nested in the value. -/
def depth : Json → Nat
  | .arr items => depthItems items + 1
  | .obj members => depthMembers members + 1
  | _ => 0

def depthItems : List Json → Nat
  | [] => 0
  | j :: rest => max j.depth (depthItems rest)

def depthMembers : List (Option String × Json) → Nat
  | [] => 0
  | (_, j) :: rest => max j.depth (depthMembers rest)

end

@[simp] theorem depth_null : Json.null.depth = 0 := rfl

@[simp] theorem depth_bool (b : Bool) : (Json.bool b).depth = 0 := rfl

@[simp] theorem depth_int (n : Int) : (Json.int n).depth = 0 := rfl

@[simp] theorem depth_string (s : String) : (Json.string s).depth = 0 := rfl

@[simp] theorem depth_arr (items : List Json) : (Json.arr items).depth = depthItems items + 1 := rfl

@[simp] theorem depth_object (members : List (String × Json)) :
    (Json.object members).depth = (members.map fun m => m.2.depth).foldr max 0 + 1 := by
  have h : depthMembers (members.map fun m => (some m.1, m.2)) =
      (members.map fun m => m.2.depth).foldr max 0 := by
    induction members with
    | nil => rfl
    | cons m members ih => simp only [List.map_cons, depthMembers, ih, List.foldr_cons]
  rw [← h]
  rfl

@[simp] theorem depth_tagged (name : String) (content : Json) :
    (tagged name content).depth = content.depth + 1 := by
  simp [tagged]

theorem depthItems_le {items : List Json} {n : Nat} :
    depthItems items ≤ n ↔ ∀ j ∈ items, j.depth ≤ n := by
  induction items with
  | nil => simp [depthItems]
  | cons j items ih => simp [depthItems, ih]

theorem depth_object_le {members : List (String × Json)} {n : Nat} :
    (Json.object members).depth ≤ n + 1 ↔ ∀ m ∈ members, m.2.depth ≤ n := by
  rw [depth_object, Nat.add_le_add_iff_right]
  induction members with
  | nil => simp
  | cons m members ih => simp [ih]

/-! ## Values with whole numbers -/

@[simp] theorem whole_null : Json.null.Whole := trivial

@[simp] theorem whole_bool (b : Bool) : (Json.bool b).Whole := trivial

@[simp] theorem whole_int (n : Int) : (Json.int n).Whole := trivial

@[simp] theorem whole_string (s : String) : (Json.string s).Whole := trivial

@[simp] theorem whole_arr {items : List Json} : (Json.arr items).Whole ↔ ∀ j ∈ items, j.Whole := by
  show WholeItems items ↔ _
  induction items with
  | nil => simp [WholeItems]
  | cons j items ih => simp [WholeItems, ih]

@[simp] theorem whole_object {members : List (String × Json)} :
    (Json.object members).Whole ↔ ∀ m ∈ members, m.2.Whole := by
  show WholeMembers (members.map fun m => (some m.1, m.2)) ↔ _
  induction members with
  | nil => simp [WholeMembers]
  | cons m members ih => simp [WholeMembers, ih]

@[simp] theorem whole_tagged {name : String} {content : Json} :
    (tagged name content).Whole ↔ content.Whole := by
  simp [tagged]

namespace Reader

/-! ## Reading what is nested as deep as allowed -/

/-- The reader reads `j` as `a` if it may open as many arrays and objects as are nested in `j`, and
otherwise not at all. -/
def Reads {α : Type} (read : Nat → Json → Option α) (j : Json) (a : α) : Prop :=
  ∀ n, read n j = if j.depth ≤ n then some a else none

section Reads

variable {α β : Type} {names : List String} {n : Nat}

@[simp] theorem bind_ite {p : Prop} [Decidable p] (a : α) (f : α → Option β) :
    (if p then some a else none).bind f = if p then f a else none := by
  split <;> rfl

@[simp] theorem text_string (s : String) : text (.string s) = some s := rfl

@[simp] theorem optional_null (read : Json → Option α) : Reader.optional read .null = some none := rfl

@[simp] theorem optional_string (read : Json → Option α) (s : String) :
    Reader.optional read (.string s) = (read (.string s)).map some := rfl

@[simp] theorem alternative_string (s : String) : alternative n (.string s) = some ⟨s, none, n⟩ := rfl

@[simp] theorem alternative_tagged_zero (name : String) (content : Json) :
    alternative 0 (tagged name content) = none := rfl

@[simp] theorem alternative_tagged (name : String) (content : Json) :
    alternative (n + 1) (tagged name content) = some ⟨name, some content, n⟩ := rfl

@[simp] theorem plain_none (name : String) (a : α) : Alternative.plain ⟨name, none, n⟩ a = some a := rfl

@[simp] theorem single_none (name : String) (read : Nat → Json → Option α) :
    Alternative.single ⟨name, none, n⟩ read = none := rfl

@[simp] theorem single_some (name : String) (content : Json) (read : Nat → Json → Option α) :
    Alternative.single ⟨name, some content, n⟩ read = read n content := rfl

@[simp] theorem record_zero (read : Nat → Fields → Option α) (j : Json) : record names read 0 j = none := rfl

@[simp] theorem record_succ (read : Nat → Fields → Option α) (j : Json) :
    record names read (n + 1) j = (fields names j).bind (read n) := rfl

theorem mapM_some (members : List (String × Json)) :
    (members.map fun m => (some m.1, m.2)).mapM (fun m : Option String × Json => m.1.map fun key => (key, m.2)) =
      some members := by
  induction members with
  | nil => rfl
  | cons m members ih => simp [ih]

@[simp] theorem fields_object (members : List (String × Json)) :
    fields names (.object members) =
      if ((members.filter fun m => names.contains m.1).map (·.1)).Nodup then
        some (members.filter fun m => names.contains m.1)
      else none := by
  simp only [fields, Json.object, mapM_some]

theorem lookup_cons (key name : String) (j : Json) (fs : Fields) :
    List.lookup name ((key, j) :: fs) = if name = key then some j else fs.lookup name := by
  by_cases h : name = key
  · simp [h]
  · have hbeq : (name == key) = false := beq_false_of_ne h
    simp [List.lookup_cons, hbeq, h]

@[simp] theorem required_cons (key : String) (j : Json) (fs : Fields) (name : String)
    (read : Json → Option α) :
    Fields.required ((key, j) :: fs) name read = if name = key then read j else fs.required name read := by
  unfold Fields.required
  rw [lookup_cons]
  split <;> rfl

@[simp] theorem withDefault_nil (name : String) (default : α) (read : Json → Option α) :
    Fields.withDefault [] name default read = some default := rfl

@[simp] theorem withDefault_cons (key : String) (j : Json) (fs : Fields) (name : String) (default : α)
    (read : Json → Option α) :
    Fields.withDefault ((key, j) :: fs) name default read =
      if name = key then read j else fs.withDefault name default read := by
  unfold Fields.withDefault
  by_cases h : name = key
  · simp only [lookup_cons, if_pos h]
  · simp only [lookup_cons, if_neg h]

/-- A list is read item by item. -/
theorem list_map {read : Nat → Json → Option α} {write : α → Json} {xs : List α}
    (h : ∀ x ∈ xs, Reads read (write x) x) (n : Nat) :
    list read n (.arr (xs.map write)) = if depthItems (xs.map write) + 1 ≤ n then some xs else none := by
  have hitems : ∀ n, (xs.map write).mapM (read n) =
      if depthItems (xs.map write) ≤ n then some xs else none := by
    intro n
    induction xs with
    | nil => rfl
    | cons x xs ih =>
      obtain ⟨hx, hxs⟩ := List.forall_mem_cons.1 h
      simp [hx n, ih hxs, depthItems, ← ite_and]
  cases n with
  | zero => rfl
  | succ n => simpa [Reader.list] using hitems n

end Reads

/-! ## What a value was read from -/

section Inversion

variable {α : Type} {names : List String} {n : Nat} {j : Json} {fs : Fields} {name : String}

theorem required_eq_some {read : Json → Option α} {a : α} (h : fs.required name read = some a) :
    ∃ j, read j = some a := by
  obtain ⟨j, -, hj⟩ := Option.bind_eq_some_iff.1 h
  exact ⟨j, hj⟩

theorem withDefault_eq_some {read : Json → Option α} {default a : α}
    (h : fs.withDefault name default read = some a) : a = default ∨ ∃ j, read j = some a := by
  unfold Fields.withDefault at h
  split at h
  · exact .inl (Option.some.inj h).symm
  · exact .inr ⟨_, h⟩

theorem optional_eq_some {read : Json → Option α} {a? : Option α} (h : Reader.optional read j = some a?) :
    ∀ a ∈ a?, read j = some a := by
  rintro a rfl
  unfold Reader.optional at h
  split at h
  · cases h
  · simpa using h

theorem mapM_eq_some {β : Type} {f : β → Option α} {ys : List β} :
    ∀ {xs : List α}, ys.mapM f = some xs → ∀ x ∈ xs, ∃ y, f y = some x := by
  induction ys with
  | nil =>
    intro xs h
    cases h
    simp
  | cons y ys ih =>
    intro xs h
    simp only [List.mapM_cons, Option.bind_eq_bind, Option.bind_eq_some_iff, Option.pure_def] at h
    obtain ⟨x, hx, rest, hrest, heq⟩ := h
    cases heq
    exact List.forall_mem_cons.2 ⟨⟨y, hx⟩, ih hrest⟩

/-- A list opens its array, and its items whatever they open inside it. -/
theorem list_eq_some {read : Nat → Json → Option α} {xs : List α} (h : list read n j = some xs) :
    ∃ m, n = m + 1 ∧ ∀ x ∈ xs, ∃ j, read m j = some x := by
  unfold list at h
  split at h
  · split at h
    · cases h
    · rename_i items m
      exact ⟨m, rfl, mapM_eq_some h⟩
  · cases h

/-- A record opens an array or object around its fields. -/
theorem record_eq_some {read : Nat → Fields → Option α} {a : α} (h : record names read n j = some a) :
    ∃ m fs, n = m + 1 ∧ read m fs = some a := by
  cases n with
  | zero => cases h
  | succ m =>
    obtain ⟨fs, -, hfs⟩ := Option.bind_eq_some_iff.1 h
    exact ⟨m, fs, rfl, hfs⟩

/-- An alternative opens an object around its content. -/
theorem single_eq_some {alt : Alternative} {read : Nat → Json → Option α} {a : α}
    (hj : alternative n j = some alt) (h : alt.single read = some a) :
    ∃ m content, n = m + 1 ∧ read m content = some a := by
  unfold alternative at hj
  split at hj
  · obtain ⟨s, -, rfl⟩ := Option.map_eq_some_iff.1 hj
    cases h
  · split at hj
    · cases hj
      exact ⟨_, _, rfl, h⟩
    · cases hj
  · cases hj

theorem recordAlternative_eq_some {alt : Alternative} {read : Nat → Fields → Option α} {a : α}
    (hj : alternative n j = some alt) (h : alt.record names read = some a) :
    ∃ m fs, n = m + 2 ∧ read m fs = some a := by
  obtain ⟨m, content, rfl, hm⟩ := single_eq_some hj h
  obtain ⟨k, fs, rfl, hfs⟩ := record_eq_some hm
  exact ⟨k, fs, rfl, hfs⟩

theorem plain_eq_some {alt : Alternative} {a b : α} (h : alt.plain a = some b) : b = a := by
  unfold Alternative.plain at h
  split at h
  · exact (Option.some.inj h).symm
  · exact (Option.some.inj h).symm
  · cases h

end Inversion

end Reader

end ObjectMachine.Json
