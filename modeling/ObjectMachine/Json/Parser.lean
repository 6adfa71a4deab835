/-
Reading JSON texts. Tokens are shifted onto a stack of open arrays and objects; a token that
completes a value puts it into the innermost of them. Nesting is limited by memory alone. The
reader is strict: one value with nothing after it but blanks, no trailing commas, no comments.
-/
import ObjectMachine.Json.Token

namespace ObjectMachine.Json

/-- An array or object that is still open. Its parts are kept last one first. -/
inductive Open where
  | array (items : List Json)
  /-- An object, with the key that the next value belongs to. -/
  | object (members : List (Option String × Json)) (key : Option String)

/-- What may come next. -/
inductive Want where
  | value
  /-- A value, or the end of an empty array. -/
  | firstItem
  /-- A comma, or the end of the array. -/
  | afterItem
  | key
  /-- A key, or the end of an empty object. -/
  | firstKey
  | colon
  /-- A comma, or the end of the object. -/
  | afterMember
  /-- Nothing: the value is complete. -/
  | done (j : Json)

/-- How far a text has been read. -/
structure Progress where
  want : Want
  stack : List Open

namespace Progress

/-- Before the first token. -/
def start : Progress := ⟨.value, []⟩

/-- Puts a complete value into the innermost open array or object. -/
def complete (j : Json) : List Open → Progress
  | [] => ⟨.done j, []⟩
  | .array items :: stack => ⟨.afterItem, .array (j :: items) :: stack⟩
  | .object members key :: stack => ⟨.afterMember, .object ((key, j) :: members) none :: stack⟩

/-- Takes a token where a value may begin. -/
def beginValue (stack : List Open) : Token → Option Progress
  | .scalar j => some (complete j stack)
  | .string text => some (complete (.str text) stack)
  | .beginArray => some ⟨.firstItem, .array [] :: stack⟩
  | .beginObject => some ⟨.firstKey, .object [] none :: stack⟩
  | _ => none

/-- Takes a key. -/
def beginMember : List Open → Token → Option Progress
  | .object members _ :: stack, .string key => some ⟨.colon, .object members key :: stack⟩
  | _, _ => none

/-- Takes one token. -/
def shift (p : Progress) (t : Token) : Option Progress :=
  match p.want, p.stack, t with
  | .firstItem, .array _ :: stack, .endArray => some (complete (.arr []) stack)
  | .value, stack, t | .firstItem, stack, t => beginValue stack t
  | .afterItem, .array items :: stack, .endArray => some (complete (.arr items.reverse) stack)
  | .afterItem, stack, .comma => some ⟨.value, stack⟩
  | .firstKey, .object _ _ :: stack, .endObject => some (complete (.obj []) stack)
  | .key, stack, t | .firstKey, stack, t => beginMember stack t
  | .colon, stack, .colon => some ⟨.value, stack⟩
  | .afterMember, .object members _ :: stack, .endObject =>
    some (complete (.obj members.reverse) stack)
  | .afterMember, stack, .comma => some ⟨.key, stack⟩
  | _, _, _ => none

/-- Takes tokens one after the other. -/
def shiftAll (p : Progress) : List Token → Option Progress
  | [] => some p
  | t :: ts =>
    match p.shift t with
    | some p => p.shiftAll ts
    | none => none

end Progress

/-- Reads characters to the end of the text. -/
def read (m : Mode) (p : Progress) : List Char → Option Progress
  | [] =>
    match m.finish? with
    | some tokens => p.shiftAll tokens
    | none => none
  | c :: cs =>
    match m.next? c with
    | none => none
    | some (m, tokens) =>
      match p.shiftAll tokens with
      | none => none
      | some p => read m p cs

/-- The value that a text is, if it is a JSON text. -/
def parse? (text : List Char) : Option Json :=
  match read .between .start text with
  | some ⟨.done j, _⟩ => some j
  | _ => none

end ObjectMachine.Json
