/-
Spellings: the values that a reader of structured data takes for one and the same thing. An alternative
without content may have null as its content; a record may be an object, with its members in any order
and with others besides them, or an array of its fields that ends where only defaults follow. A spelling is
told how many arrays and objects the value may open, as the readers are. The members of an object that are
none of the record may be anything, and nest as deep as they like.
-/
import ObjectMachine.Proofs.Json.Nesting

namespace ObjectMachine.Json

/-! ## Definitions -/

/-- The values that spell something, by the number of arrays and objects they may open. -/
abbrev Spelling := Nat → Json → Prop

/-- The reader takes everything that the spelling allows for `a`. -/
def Spelling.ReadAs {α : Type} (s : Spelling) (read : Nat → Json → Option α) (a : α) : Prop :=
  ∀ n j, s n j → read n j = some a

/-- The value is one of the spellings wherever it does not nest too deep. -/
def Spelling.Allows (s : Spelling) (j : Json) : Prop := ∀ n, j.depth ≤ n → s n j

namespace Spelling

/-- One value and no other. -/
def exactly (j : Json) : Spelling := fun _ k => k = j

/-- An alternative without content. -/
inductive Plain (name : String) : Spelling
  | alone {n : Nat} : Plain name n (.string name)
  | withNull {n : Nat} : Plain name (n + 1) (.tagged name .null)

/-- An alternative with content. -/
inductive Tagged (name : String) (content : Spelling) : Spelling
  | mk {n : Nat} {j : Json} (h : content n j) : Tagged name content (n + 1) (.tagged name j)

inductive Listed (items : List Spelling) : Spelling
  | mk {n : Nat} {js : List Json} (h : List.Forall₂ (fun s j => s n j) items js) :
    Listed items (n + 1) (.arr js)

/-- Something that may be absent, and is null then. -/
inductive Optional : Option Spelling → Spelling
  | absent {n : Nat} : Optional none n .null
  | present {n : Nat} {s : Spelling} {j : Json} (h : s n j) : Optional (some s) n j

/-- A field of a record: its name, its value, and whether it may be left out. -/
structure Slot where
  name : String
  value : Spelling
  omissible : Prop

/-- A field that has to be there. -/
def Slot.required (name : String) (value : Spelling) : Slot := ⟨name, value, False⟩

/-- A field with a text. -/
def Slot.text (name s : String) : Slot := .required name (exactly (.string s))

/-- The values that are written for a field: one that spells it, or none if it may be left out. -/
def Slot.Fills (slot : Slot) (n : Nat) : List Json → Prop
  | [] => slot.omissible
  | [j] => slot.value n j
  | _ => False

/-- The fields of a record in order, where those at the end may be left out. -/
inductive InOrder (n : Nat) : List Slot → List Json → Prop
  | done : InOrder n [] []
  | omitted {slot : Slot} {slots : List Slot} (h : slot.omissible) (hrest : InOrder n slots []) :
    InOrder n (slot :: slots) []
  | filled {slot : Slot} {slots : List Slot} {j : Json} {js : List Json} (h : slot.value n j)
    (hrest : InOrder n slots js) : InOrder n (slot :: slots) (j :: js)

inductive Record (slots : List Slot) : Spelling
  | object {n : Nat} {members : List (String × Json)}
    (h : ∀ slot ∈ slots, slot.Fills n ((members.filter (·.1 = slot.name)).map (·.2))) :
    Record slots (n + 1) (.object members)
  | array {n : Nat} {items : List Json} (h : InOrder n slots items) : Record slots (n + 1) (.arr items)

/-! ## Alternatives and lists -/

section Alternatives

open Reader

variable {α : Type} {name : String} {n : Nat} {j : Json}

/-- An alternative without content is recognized by its name. -/
theorem Plain.alternative (h : Plain name n j) (value : α) :
    ∃ a, Reader.alternative n j = some a ∧ a.name = name ∧ a.plain value = some value := by
  cases h with
  | alone => exact ⟨_, rfl, rfl, rfl⟩
  | withNull => exact ⟨_, rfl, rfl, rfl⟩

theorem exactly_readAs {read : Json → Option α} {a : α} (h : read j = some a) :
    (exactly j).ReadAs (fun _ => read) a := by
  rintro n _ rfl
  exact h

theorem Listed.readAs {read : Nat → Json → Option α} {spell : α → Spelling} {xs : List α}
    (h : ∀ x ∈ xs, (spell x).ReadAs read x) : ReadAs (Listed (xs.map spell)) (Reader.list read) xs := by
  rintro _ _ ⟨hjs⟩
  rename_i n js
  rw [List.forall₂_map_left_iff] at hjs
  show js.mapM (read n) = some xs
  induction hjs with
  | nil => rfl
  | @cons x j xs js hx hxs ih =>
    obtain ⟨hread, hreads⟩ := List.forall_mem_cons.1 h
    simp [hread n j hx, ih hreads]

/-- Something that may be absent is never spelled by null when it is there. -/
theorem Optional.readAs {read : Nat → Json → Option α} {spell : α → Spelling} {a? : Option α}
    (h : ∀ a ∈ a?, (spell a).ReadAs read a) (hnull : ∀ a ∈ a?, ∀ n, ¬ spell a n .null) :
    ReadAs (Optional (a?.map spell)) (fun n => Reader.optional (read n)) a? := by
  intro n j hj
  cases a? with
  | none =>
    cases hj
    rfl
  | some a =>
    cases hj with
    | present hj =>
      have hread : read n j = some a := h a rfl n j hj
      show Reader.optional (read n) j = _
      unfold Reader.optional
      split
      · exact absurd hj (hnull a rfl n)
      · rw [hread]
        rfl

end Alternatives

/-! ## Records -/

section Records

open Reader

variable {α : Type} {n : Nat} {slots : List Slot} {j : Json}

theorem InOrder.length_le {items : List Json} (h : InOrder n slots items) : items.length ≤ slots.length := by
  induction h with
  | done => rfl
  | omitted => simp
  | filled _ _ ih => simpa using ih

theorem InOrder.lookup {items : List Json} (h : InOrder n slots items) (hnames : (slots.map (·.name)).Nodup) :
    ∀ slot ∈ slots, slot.Fills n (((slots.map (·.name)).zip items).lookup slot.name).toList := by
  induction h with
  | done => simp
  | omitted h _ ih =>
    obtain ⟨-, hnames⟩ := List.nodup_cons.1 hnames
    exact List.forall_mem_cons.2 ⟨h, fun slot hslot => by simpa using ih hnames slot hslot⟩
  | @filled s slots j js h _ ih =>
    obtain ⟨hs, hnames⟩ := List.nodup_cons.1 hnames
    refine List.forall_mem_cons.2 ⟨?_, fun slot hslot => ?_⟩
    · simpa [lookup_cons, Slot.Fills] using h
    · have hne : slot.name ≠ s.name := fun heq => hs (List.mem_map.2 ⟨slot, hslot, heq⟩)
      simpa [lookup_cons, hne] using ih hnames slot hslot

theorem lookup_eq_head? (members : List (String × Json)) (name : String) :
    members.lookup name = ((members.filter (·.1 = name)).map (·.2)).head? := by
  induction members with
  | nil => rfl
  | cons m members ih =>
    rw [lookup_cons, ih]
    by_cases h : m.1 = name
    · simp [h]
    · rw [if_neg (Ne.symm h), List.filter_cons_of_neg (by simpa using h)]

theorem Slot.Fills.head? {slot : Slot} {js : List Json} (h : slot.Fills n js) :
    slot.Fills n js.head?.toList := by
  match js with
  | [] => exact h
  | [j] => exact h

theorem Slot.Fills.length_le {slot : Slot} {js : List Json} (h : slot.Fills n js) : js.length ≤ 1 := by
  match js with
  | [] => simp
  | [j] => simp

/-- The members that belong to a record. -/
def known (slots : List Slot) (members : List (String × Json)) : List (String × Json) :=
  members.filter fun m => (slots.map (·.name)).contains m.1

theorem filter_known {slot : Slot} (hslot : slot ∈ slots) (members : List (String × Json)) :
    (known slots members).filter (·.1 = slot.name) = members.filter (·.1 = slot.name) := by
  have hcontains : (slots.map (·.name)).contains slot.name = true := by simpa using ⟨slot, hslot, rfl⟩
  unfold known
  rw [List.filter_filter]
  refine List.filter_congr fun m _ => ?_
  by_cases hm : m.1 = slot.name
  · simp only [hm, hcontains, decide_true, Bool.and_self]
  · simp [hm]

/-- No field of a record is written twice. -/
theorem nodup_known {members : List (String × Json)}
    (h : ∀ slot ∈ slots, slot.Fills n ((members.filter (·.1 = slot.name)).map (·.2))) :
    ((known slots members).map (·.1)).Nodup := by
  refine List.nodup_iff_count_le_one.2 fun name => ?_
  by_cases hname : name ∈ slots.map (·.name)
  · obtain ⟨slot, hslot, rfl⟩ := List.mem_map.1 hname
    have hcount : List.count slot.name ((known slots members).map (·.1)) =
        ((known slots members).filter (·.1 = slot.name)).length := by
      rw [List.count, List.countP_map, List.countP_eq_length_filter]
      rfl
    rw [hcount, filter_known hslot]
    simpa using (h slot hslot).length_le
  · have hnot : name ∉ (known slots members).map (·.1) := by
      intro hmem
      obtain ⟨m, hm, rfl⟩ := List.mem_map.1 hmem
      exact hname (by simpa using (List.mem_filter.1 hm).2)
    rw [List.count_eq_zero_of_not_mem hnot]
    exact Nat.zero_le 1

theorem Record.opens (h : Record slots n j) : ∃ m, n = m + 1 := by
  cases h <;> exact ⟨_, rfl⟩

/-- A record under a name opens two arrays or objects. -/
theorem Tagged.opens {name : String} (h : Tagged name (Record slots) n j) :
    ∃ m content, n = m + 2 ∧ j = .tagged name content ∧ Record slots (m + 1) content := by
  cases h with
  | mk h =>
    obtain ⟨m, rfl⟩ := h.opens
    exact ⟨m, _, rfl, rfl, h⟩

/-- What is written for the fields of a record is found under their names. -/
theorem Record.fields (h : Record slots (n + 1) j) (hnames : (slots.map (·.name)).Nodup) :
    ∃ fs, Reader.fields (slots.map (·.name)) j = some fs ∧
      ∀ slot ∈ slots, slot.Fills n (fs.lookup slot.name).toList := by
  cases h with
  | @object _ members h =>
    refine ⟨known slots members, ?_, fun slot hslot => ?_⟩
    · rw [fields_object]
      exact if_pos (nodup_known h)
    · rw [lookup_eq_head?, filter_known hslot]
      exact (h slot hslot).head?
  | @array _ items h =>
    refine ⟨_, ?_, h.lookup hnames⟩
    simp [Reader.fields, h.length_le]

/-- What is found under the names of the fields fills them, field by field. -/
def Found (n : Nat) (fs : Fields) : List Slot → Prop
  | [] => True
  | slot :: slots => slot.Fills n (fs.lookup slot.name).toList ∧ Found n fs slots

theorem found_iff {fs : Fields} :
    Found n fs slots ↔ ∀ slot ∈ slots, slot.Fills n (fs.lookup slot.name).toList := by
  induction slots with
  | nil => simp [Found]
  | cons slot slots ih => simp [Found, ih]

/-- A record is read as what its fields give, wherever they were found. -/
theorem Record.read {names : List String} {read : Nat → Fields → Option α} {a : α}
    (h : Record slots (n + 1) j) (hslots : slots.map (·.name) = names) (hnames : names.Nodup)
    (hread : ∀ fs, Found n fs slots → read n fs = some a) :
    Reader.record names read (n + 1) j = some a := by
  subst hslots
  obtain ⟨fs, hfs, hfills⟩ := h.fields hnames
  rw [record_succ, hfs]
  exact hread fs (found_iff.2 hfills)

theorem Record.readAs {names : List String} {read : Nat → Fields → Option α} {a : α}
    (hslots : slots.map (·.name) = names) (hnames : names.Nodup)
    (hread : ∀ n fs, Found n fs slots → read n fs = some a) :
    ReadAs (Record slots) (Reader.record names read) a := by
  intro n j hj
  obtain ⟨n, rfl⟩ := hj.opens
  exact hj.read hslots hnames (hread n)

theorem Slot.Fills.required {name : String} {value : Spelling} {fs : Fields} {read : Json → Option α} {a : α}
    (h : (Slot.required name value).Fills n (fs.lookup name).toList)
    (hread : ∀ j, value n j → read j = some a) : fs.required name read = some a := by
  unfold Fields.required
  cases hlookup : fs.lookup name with
  | none => rw [hlookup] at h; exact h.elim
  | some j => rw [hlookup] at h; exact hread j h

theorem Slot.Fills.withDefault {name : String} {value : Spelling} {fs : Fields} {read : Json → Option α}
    {a default : α} (h : Slot.Fills ⟨name, value, a = default⟩ n (fs.lookup name).toList)
    (hread : ∀ j, value n j → read j = some a) : fs.withDefault name default read = some a := by
  unfold Fields.withDefault
  cases hlookup : fs.lookup name with
  | none => rw [hlookup] at h; exact congrArg some h.symm
  | some j => rw [hlookup] at h; exact hread j h

end Records

/-! ## Values that do not nest too deep -/

section Allows

variable {α : Type} {name : String} {slots : List Slot}

theorem exactly_allows (j : Json) : (exactly j).Allows j := fun _ _ => rfl

theorem Plain.allows (name : String) : Allows (Plain name) (.string name) := fun _ _ => .alone

theorem Tagged.allows {content : Spelling} {j : Json} (h : content.Allows j) :
    Allows (Tagged name content) (.tagged name j) := by
  intro n hn
  cases n with
  | zero => simp at hn
  | succ n => exact .mk (h n (by simpa using hn))

theorem Listed.allows {spell : α → Spelling} {write : α → Json} {xs : List α}
    (h : ∀ x ∈ xs, (spell x).Allows (write x)) : Allows (Listed (xs.map spell)) (.arr (xs.map write)) := by
  intro n hn
  cases n with
  | zero => simp at hn
  | succ n =>
    have hdepth : ∀ j ∈ xs.map write, j.depth ≤ n := depthItems_le.1 (by simpa using hn)
    refine .mk ?_
    rw [List.forall₂_map_left_iff, List.forall₂_map_right_iff, List.forall₂_same]
    exact fun x hx => h x hx n (hdepth _ (List.mem_map_of_mem hx))

theorem Optional.allows_some {s : Spelling} {j : Json} (h : s.Allows j) : Allows (Optional (some s)) j :=
  fun n hn => .present (h n hn)

/-- Members that write the fields of a record in order, but for some that may be left out. -/
inductive Writes : List Slot → List (String × Json) → Prop
  | done : Writes [] []
  | omitted {slot : Slot} {slots : List Slot} {members : List (String × Json)} (h : slot.omissible)
    (hrest : Writes slots members) : Writes (slot :: slots) members
  | written {slot : Slot} {slots : List Slot} {members : List (String × Json)} {j : Json}
    (h : slot.value.Allows j) (hrest : Writes slots members) :
    Writes (slot :: slots) ((slot.name, j) :: members)

/-- A field that is a text is written as it is. -/
theorem Writes.text {members : List (String × Json)} (s : String) (hrest : Writes slots members) :
    Writes (Slot.text name s :: slots) ((name, .string s) :: members) :=
  .written (exactly_allows _) hrest

/-- A field that is left out when it is absent. -/
theorem Writes.present {members : List (String × Json)} {spell : α → Spelling} {write : α → Json}
    (a? : Option α) (h : ∀ a, (spell a).Allows (write a)) (hrest : Writes slots members) :
    Writes (⟨name, Optional (a?.map spell), a? = none⟩ :: slots) (Json.present name a? write ++ members) := by
  cases a? with
  | none => exact .omitted rfl hrest
  | some a => exact .written (Optional.allows_some (h a)) hrest

theorem Writes.filter_eq_nil {members : List (String × Json)} (h : Writes slots members)
    (hname : name ∉ slots.map (·.name)) : members.filter (·.1 = name) = [] := by
  induction h with
  | done => rfl
  | omitted _ _ ih => exact ih fun hmem => hname (List.mem_cons_of_mem _ hmem)
  | @written slot _ _ _ _ _ ih =>
    have hne : slot.name ≠ name := fun heq => hname (heq ▸ List.mem_cons_self)
    rw [List.filter_cons_of_neg (by simpa using hne)]
    exact ih fun hmem => hname (List.mem_cons_of_mem _ hmem)

theorem Writes.fills {members : List (String × Json)} {n : Nat} (h : Writes slots members)
    (hnames : (slots.map (·.name)).Nodup) (hdepth : ∀ m ∈ members, m.2.depth ≤ n) :
    ∀ slot ∈ slots, slot.Fills n ((members.filter (·.1 = slot.name)).map (·.2)) := by
  induction h with
  | done => simp
  | omitted h hrest ih =>
    obtain ⟨hslot, hnames⟩ := List.nodup_cons.1 hnames
    refine List.forall_mem_cons.2 ⟨?_, ih hnames hdepth⟩
    rw [hrest.filter_eq_nil hslot]
    exact h
  | @written slot _ _ _ h hrest ih =>
    obtain ⟨hslot, hnames⟩ := List.nodup_cons.1 hnames
    obtain ⟨hj, hdepth⟩ := List.forall_mem_cons.1 hdepth
    refine List.forall_mem_cons.2 ⟨?_, fun other hother => ?_⟩
    · rw [List.filter_cons_of_pos (by simp), hrest.filter_eq_nil hslot]
      exact h n hj
    · have hne : slot.name ≠ other.name := fun heq => hslot (List.mem_map.2 ⟨other, hother, heq.symm⟩)
      rw [List.filter_cons_of_neg (by simpa using hne)]
      exact ih hnames hdepth other hother

theorem Record.allows {members : List (String × Json)} (h : Writes slots members)
    (hnames : (slots.map (·.name)).Nodup := by simp [Slot.text, Slot.required]) :
    Allows (Record slots) (.object members) := by
  intro n hn
  cases n with
  | zero => simp at hn
  | succ n => exact .object (h.fills hnames (depth_object_le.1 hn))

end Allows

end Spelling

end ObjectMachine.Json
