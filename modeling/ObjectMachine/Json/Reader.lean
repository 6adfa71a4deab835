/-
Reading structured values out of JSON. A record may be written as an object or as an array of its
fields in order; an alternative without content as its name alone. Only so many arrays and objects
may be nested around what is read: each reader is told how many more it may open. Members that are
not read do not count.
-/
import ObjectMachine.Json

namespace ObjectMachine.Json.Reader

/-- The number of nested arrays and objects a document may open. -/
def nestingLimit : Nat := 127

/-- Reads a whole number between two bounds. -/
def integer (lo hi : Int) : Json → Option Int
  | .int n => if lo ≤ n ∧ n ≤ hi then some n else none
  | _ => none

def text : Json → Option String
  | .str text => text
  | _ => none

def boolean : Json → Option Bool
  | .bool b => some b
  | _ => none

/-- Reads null as an absent value. -/
def optional {α : Type} (read : Json → Option α) : Json → Option (Option α)
  | .null => some none
  | j => (read j).map some

/-- Reads an array; `read` is told how many more levels its items may open. -/
def list {α : Type} (read : Nat → Json → Option α) (nesting : Nat) : Json → Option (List α)
  | .arr items =>
    match nesting with
    | 0 => none
    | n + 1 => items.mapM (read n)
  | _ => none

/-! ## Records -/

/-- The fields of a record that are present. -/
abbrev Fields := List (String × Json)

/-- The fields of a record with known names in order. As an object it may have further members,
but none of the known ones twice; as an array it may end early. -/
def fields (names : List String) : Json → Option Fields
  | .arr items => if items.length ≤ names.length then some (names.zip items) else none
  | .obj members =>
    match members.mapM fun m => m.1.map fun key => (key, m.2) with
    | none => none
    | some named =>
      let known := named.filter fun m => names.contains m.1
      if (known.map (·.1)).Nodup then some known else none
  | _ => none

/-- Reads a record; `read` is told how many more levels the fields may open. -/
def record {α : Type} (names : List String) (read : Nat → Fields → Option α) (nesting : Nat)
    (j : Json) : Option α :=
  match nesting with
  | 0 => none
  | n + 1 => (fields names j).bind (read n)

namespace Fields

/-- A field that has to be present. -/
def required {α : Type} (fs : Fields) (name : String) (read : Json → Option α) : Option α :=
  (fs.lookup name).bind read

/-- A field that stands for a default value when it is absent. -/
def withDefault {α : Type} (fs : Fields) (name : String) (default : α)
    (read : Json → Option α) : Option α :=
  match fs.lookup name with
  | none => some default
  | some j => read j

end Fields

/-! ## Alternatives -/

/-- One of several alternatives: its name, its content if it is written with one, and the levels
the content may open. -/
structure Alternative where
  name : String
  content : Option Json
  nesting : Nat

/-- Reads an alternative: its name alone, or an object whose single member is named for it. -/
def alternative (nesting : Nat) : Json → Option Alternative
  | .str text => text.map fun name => ⟨name, none, nesting⟩
  | .obj [(key, content)] =>
    match key, nesting with
    | some name, n + 1 => some ⟨name, some content, n⟩
    | _, _ => none
  | _ => none

namespace Alternative

/-- An alternative that has no content; it may be written with null for it. -/
def plain {α : Type} (a : Alternative) (value : α) : Option α :=
  match a.content with
  | none | some .null => some value
  | _ => none

/-- The content of an alternative that has one. -/
def single {α : Type} (a : Alternative) (read : Nat → Json → Option α) : Option α :=
  a.content.bind (read a.nesting)

/-- The content of an alternative, as a record. -/
def record {α : Type} (a : Alternative) (names : List String) (read : Nat → Fields → Option α) :
    Option α :=
  a.single (Reader.record names read)

end Alternative

end ObjectMachine.Json.Reader
