/-
Tables of settings, and what may be added to them. A table comes about by its own header, by a
longer header or a dotted key that passes through it, and this decides what may follow: a header
opens a table that only longer headers have mentioned, dotted keys extend only tables that dotted
keys have made, and nothing is ever set twice.
-/

namespace ObjectMachine.Settings

/-- A value. Of one that no option takes, only the fact is kept that it is well formed. -/
inductive Value where
  | integer (n : Int)
  | boolean (b : Bool)
  | other
  deriving DecidableEq, Repr

/-- How a table came about. -/
inductive Origin where
  /-- By a header of its own. -/
  | header
  /-- On the way to the table of a longer header. -/
  | implied
  /-- On the way of a dotted key. -/
  | dotted
  deriving DecidableEq, Repr

/-- What a key stands for. -/
inductive Entry where
  | value (v : Value)
  | table (origin : Origin) (members : List (String × Entry))
  /-- A row of tables, of which only the last one can still change. -/
  | rows (last : List (String × Entry))

/-- A table. -/
structure Table where
  origin : Origin
  members : List (String × Entry)

namespace Table

/-- The table that a document begins with. -/
def empty : Table := ⟨.header, []⟩

def get? (t : Table) (key : String) : Option Entry := t.members.lookup key

/-- Sets what a key stands for. -/
def put (t : Table) (key : String) (e : Entry) : Table :=
  { t with members := (key, e) :: t.members.filter (·.1 ≠ key) }

/-- Changes the table at the end of a path. Tables that are missing on the way are made and are of
origin `via`; a dotted key does not pass through the table of a header. -/
def at? (via : Origin) (change : Table → Option Table) : List String → Table → Option Table
  | [], t => change t
  | key :: path, t =>
    match t.get? key with
    | none =>
      (at? via change path ⟨via, []⟩).map fun sub => t.put key (.table sub.origin sub.members)
    | some (.value _) => none
    | some (.table origin members) =>
      if via = .dotted ∧ origin = .header then none
      else
        (at? via change path ⟨origin, members⟩).map fun sub =>
          t.put key (.table sub.origin sub.members)
    | some (.rows last) =>
      (at? via change path ⟨.header, last⟩).map fun sub => t.put key (.rows sub.members)

/-- Adds a key that is not there yet. -/
def add? (t : Table) (key : String) (v : Value) : Option Table :=
  match t.get? key with
  | none => some (t.put key (.value v))
  | some _ => none

/-- Sets a dotted key. The tables on its way belong to dotted keys alone. -/
def define? (t : Table) (path : List String) (v : Value) : Option Table :=
  match path.getLast? with
  | none => none
  | some key =>
    let way := path.dropLast
    t.at? .dotted (fun owner =>
      if owner.origin = .dotted ↔ way ≠ [] then owner.add? key v else none) way

/-- Opens the table of a header. -/
def enter? (t : Table) (path : List String) : Option Table :=
  match path.getLast? with
  | none => none
  | some key =>
    t.at? .implied (fun owner =>
      match owner.get? key with
      | none => some (owner.put key (.table .header []))
      | some (.table .implied members) => some (owner.put key (.table .header members))
      | some _ => none) path.dropLast

/-- Begins a further table in the row of a header. -/
def append? (t : Table) (path : List String) : Option Table :=
  match path.getLast? with
  | none => none
  | some key =>
    t.at? .implied (fun owner =>
      match owner.get? key with
      | none | some (.rows _) => some (owner.put key (.rows []))
      | some _ => none) path.dropLast

end Table

end ObjectMachine.Settings
