/-
Settings documents: lines that set a key, that open a table by its name in brackets, or that hold
nothing but a comment. Values may spread over several lines inside brackets and in blocks of text.
-/
import ObjectMachine.Settings.Scalar

namespace ObjectMachine.Settings

/-! ## Values -/

/-- The items of an array up to its closing bracket; a comma may follow the last one. Each item
takes a character at least, so as many steps as there are characters suffice. -/
def items? (read : List Char → Option (Value × List Char)) : Nat → List Char → Option (List Char)
  | 0, _ => none
  | fuel + 1, cs =>
    match skipLines false cs with
    | ']' :: rest => some rest
    | cs =>
      match read cs with
      | none => none
      | some (_, rest) =>
        match skipLines false rest with
        | ',' :: rest => items? read fuel rest
        | ']' :: rest => some rest
        | _ => none

/-- A key with the value after its equals sign. -/
def setting? (read : List Char → Option (Value × List Char)) (cs : List Char) :
    Option ((List String × Value) × List Char) :=
  match key? cs with
  | some (path, '=' :: rest) => (read (skipBlanks rest)).map fun (v, rest) => ((path, v), rest)
  | _ => none

/-- The settings of a table in braces up to the closing brace, all on one line. -/
def members? (read : List Char → Option (Value × List Char)) :
    Nat → Table → List Char → Option (List Char)
  | 0, _, _ => none
  | fuel + 1, t, cs =>
    match setting? read cs with
    | none => none
    | some ((path, v), rest) =>
      match t.define? path v with
      | none => none
      | some t =>
        match skipBlanks rest with
        | ',' :: rest => members? read fuel t rest
        | '}' :: rest => some rest
        | _ => none

/-- A value inside which so many values may be nested. -/
def value? : Nat → List Char → Option (Value × List Char)
  | 0, cs =>
    match cs with
    | '"' :: _ | '\'' :: _ => (quotedText? cs).map fun (_, rest) => (.other, rest)
    | '[' :: _ | '{' :: _ => none
    | cs => scalar? cs
  | nesting + 1, cs =>
    match cs with
    | '"' :: _ | '\'' :: _ => (quotedText? cs).map fun (_, rest) => (.other, rest)
    | '[' :: cs => (items? (value? nesting) (cs.length + 1) cs).map fun rest => (.other, rest)
    | '{' :: cs =>
      match skipBlanks cs with
      | '}' :: rest => some (.other, rest)
      | cs =>
        (members? (value? nesting) (cs.length + 1) .empty cs).map fun rest => (.other, rest)
    | cs => scalar? cs

/-! ## Lines -/

/-- The tables read so far, and the path of the one that the next settings belong to. -/
structure Draft where
  root : Table
  path : List String

namespace Draft

/-- Before the first line. -/
def start : Draft := ⟨.empty, []⟩

/-- Adds a setting to the current table. -/
def define? (d : Draft) (path : List String) (v : Value) : Option Draft :=
  (d.root.at? .implied (·.define? path v) d.path).map fun root => { d with root }

/-- Goes on with the table of a header. -/
def enter? (d : Draft) (path : List String) : Option Draft :=
  (d.root.enter? path).map fun root => ⟨root, path⟩

/-- Goes on with a new table in the row of a header. -/
def append? (d : Draft) (path : List String) : Option Draft :=
  (d.root.append? path).map fun root => ⟨root, path⟩

end Draft

/-- One line, which blanks may begin: the draft after it, and what is left. -/
def line? (d : Draft) (cs : List Char) : Option (Draft × List Char) := do
  match cs with
  | '[' :: '[' :: cs =>
    match ← key? cs with
    | (path, ']' :: ']' :: rest) => return (← d.append? path, ← restOfLine? rest)
    | _ => none
  | '[' :: cs =>
    match ← key? cs with
    | (path, ']' :: rest) => return (← d.enter? path, ← restOfLine? rest)
    | _ => none
  | cs =>
    match restOfLine? cs with
    | some rest => return (d, rest)
    | none =>
      let ((path, v), rest) ← setting? (value? depthLimit) cs
      return (← d.define? path v, ← restOfLine? rest)

/-- The lines of a document. Each takes a character at least, so as many steps as there are
characters suffice. -/
def lines? : Nat → Draft → List Char → Option Table
  | 0, _, _ => none
  | fuel + 1, d, cs =>
    match skipBlanks cs with
    | [] => some d.root
    | cs =>
      match line? d cs with
      | some (d, rest) => lines? fuel d rest
      | none => none

/-- A carriage return before a line feed belongs to the line end. -/
def withLineFeeds : List Char → List Char
  | '\r' :: '\n' :: cs => '\n' :: withLineFeeds cs
  | c :: cs => c :: withLineFeeds cs
  | [] => []

/-- A mark of the byte order may stand before the first line. -/
def withoutMark : List Char → List Char
  | '\ufeff' :: cs => cs
  | cs => cs

/-- The settings in a document. -/
def parse? (document : String) : Option Table :=
  let cs := withLineFeeds (withoutMark document.toList)
  lines? (cs.length + 1) .start cs

end ObjectMachine.Settings
