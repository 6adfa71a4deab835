/-
Writing JSON texts, on one line or indented by two spaces a level. Strings escape the quote, the
backslash and the control characters, and nothing else.
-/
import ObjectMachine.Json

namespace ObjectMachine.Json

/-- The escape of a control character without a letter of its own. -/
def escapeControl (c : Char) : List Char :=
  ['\\', 'u', '0', '0', Nat.digitChar (c.toNat / 16), Nat.digitChar (c.toNat % 16)]

/-- A character inside a string. -/
def escapeChar (c : Char) : List Char :=
  if c = '"' then ['\\', '"']
  else if c = '\\' then ['\\', '\\']
  else if c = '\x08' then ['\\', 'b']
  else if c = '\x0c' then ['\\', 'f']
  else if c = '\n' then ['\\', 'n']
  else if c = '\r' then ['\\', 'r']
  else if c = '\t' then ['\\', 't']
  else if c.toNat < 0x20 then escapeControl c
  else [c]

/-- A string with its quotes; one that spells no text is written as a surrogate that stands
alone. -/
def printString : Option String → List Char
  | some s => '"' :: s.toList.flatMap escapeChar ++ ['"']
  | none => "\"\\ud800\"".toList

/-- A value without parts. -/
def printScalar : Json → List Char
  | .null => "null".toList
  | .bool true => "true".toList
  | .bool false => "false".toList
  | .int n => (toString n).toList
  | .float literal => literal
  | .str text => printString text
  | .arr _ => "[]".toList
  | .obj _ => "\x7b\x7d".toList

/-- A new line at a level of indentation. -/
def newline (level : Nat) : List Char := '\n' :: List.replicate (2 * level) ' '

mutual

/-- A value on one line, without blanks. -/
def compact : Json → List Char
  | .arr items => '[' :: compactItems items ++ [']']
  | .obj members => '\x7b' :: compactMembers members ++ ['\x7d']
  | scalar => printScalar scalar

def compactItems : List Json → List Char
  | [] => []
  | [j] => compact j
  | j :: rest => compact j ++ ',' :: compactItems rest

def compactMembers : List (Option String × Json) → List Char
  | [] => []
  | [(key, j)] => printString key ++ ':' :: compact j
  | (key, j) :: rest => printString key ++ ':' :: compact j ++ ',' :: compactMembers rest

end

mutual

/-- A value over several lines, whose first line continues a line at a level of indentation. Empty
arrays and objects stay on one line. -/
def pretty (level : Nat) : Json → List Char
  | .arr (item :: items) => '[' :: prettyItems (level + 1) (item :: items) ++ newline level ++ [']']
  | .obj (member :: members) =>
    '\x7b' :: prettyMembers (level + 1) (member :: members) ++ newline level ++ ['\x7d']
  | scalar => printScalar scalar

def prettyItems (level : Nat) : List Json → List Char
  | [] => []
  | [j] => newline level ++ pretty level j
  | j :: rest => newline level ++ pretty level j ++ ',' :: prettyItems level rest

def prettyMembers (level : Nat) : List (Option String × Json) → List Char
  | [] => []
  | [(key, j)] => newline level ++ printString key ++ ':' :: ' ' :: pretty level j
  | (key, j) :: rest =>
    newline level ++ printString key ++ ':' :: ' ' :: pretty level j ++ ',' ::
      prettyMembers level rest

end

end ObjectMachine.Json
