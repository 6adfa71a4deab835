/-
The words of a settings document: blanks, comments, quoted texts and keys. Each reader takes the
characters that are left, and answers what it has read with what is left then. Line ends are single
line feeds here.
-/

namespace ObjectMachine.Settings

def isBlank (c : Char) : Bool := c = ' ' || c = '\t'

/-- A character that may stand in a comment or between quotes: the tab, and all that are no
controls. -/
def isText (c : Char) : Bool := c = '\t' || (0x20 ≤ c.toNat && c.toNat ≠ 0x7F)

def skipBlanks (cs : List Char) : List Char := cs.dropWhile isBlank

/-- What is left after the end of a line, which blanks and a comment may come before. -/
def restOfLine? (cs : List Char) : Option (List Char) :=
  let afterComment := match skipBlanks cs with
    | '#' :: comment => comment.dropWhile isText
    | cs => cs
  match afterComment with
  | [] => some []
  | '\n' :: rest => some rest
  | _ => none

/-- Skips blanks, line ends and comments; `inComment` says that a comment has begun. -/
def skipLines (inComment : Bool) : List Char → List Char
  | [] => []
  | c :: cs =>
    if c = '\n' then skipLines false cs
    else if inComment then if isText c then skipLines true cs else c :: cs
    else if isBlank c then skipLines false cs
    else if c = '#' then skipLines true cs
    else c :: cs

/-! ## Digits -/

/-- The value of a character as a digit of a base. -/
def digit? (base : Nat) (c : Char) : Option Nat :=
  let value :=
    if '0' ≤ c ∧ c ≤ '9' then c.toNat - '0'.toNat
    else if 'a' ≤ c ∧ c ≤ 'f' then c.toNat - 'a'.toNat + 10
    else if 'A' ≤ c ∧ c ≤ 'F' then c.toNat - 'A'.toNat + 10
    else base
  if value < base then some value else none

/-! ## Quoted texts -/

/-- How a text is quoted: by which character, and whether by three of them, with line ends allowed
in between. -/
structure Quoting where
  quote : Char
  block : Bool

namespace Quoting

/-- Backslashes begin escapes between double quotes only. -/
def escapes (q : Quoting) : Bool := q.quote = '"'

/-- The inside of a quoted text, by what came last. -/
inductive Mode where
  | plain
  /-- A backslash. -/
  | escape
  /-- An escape by code point: the digits still missing, and the value so far. -/
  | code (missing value : Nat)
  /-- A backslash and blanks, which a line end has to follow. -/
  | joining
  /-- A line end hidden by a backslash; blanks and line ends are left out. -/
  | joined
  /-- A number of quotes in a block. -/
  | quotes (n : Nat)
  /-- The closing quote. -/
  | closed

/-- The character that an escape of one letter stands for. -/
def escaped? : Char → Option Char
  | 'b' => some '\x08'
  | 't' => some '\t'
  | 'n' => some '\n'
  | 'f' => some '\x0c'
  | 'r' => some '\r'
  | '"' => some '"'
  | '\\' => some '\\'
  | _ => none

/-- Takes a character that follows nothing special. -/
def takePlain? (q : Quoting) (c : Char) : Option (Mode × List Char) :=
  if c = q.quote then some (if q.block then .quotes 1 else .closed, [])
  else if c = '\\' ∧ q.escapes then some (.escape, [])
  else if isText c ∨ c = '\n' ∧ q.block then some (.plain, [c])
  else none

/-- Takes the character after a backslash. -/
def takeEscaped? (q : Quoting) (c : Char) : Option (Mode × List Char) :=
  if c = 'u' then some (.code 4 0, [])
  else if c = 'U' then some (.code 8 0, [])
  else if q.block ∧ c = '\n' then some (.joined, [])
  else if q.block ∧ isBlank c then some (.joining, [])
  else (escaped? c).map fun d => (.plain, [d])

/-- Takes a digit of a code point; with the last one the character is complete. -/
def takeDigit? (missing value : Nat) (c : Char) : Option (Mode × List Char) :=
  (digit? 16 c).bind fun d =>
    let value := value * 16 + d
    if 1 < missing then some (.code (missing - 1) value, [])
    else if h : value.isValidChar then some (.plain, [Char.ofNatAux value h])
    else none

/-- Takes one character: the next mode, and the characters the text gains. -/
def take? (q : Quoting) (m : Mode) (c : Char) : Option (Mode × List Char) :=
  match m with
  | .plain => q.takePlain? c
  | .escape => q.takeEscaped? c
  | .code missing value => takeDigit? missing value c
  | .joining =>
    if c = '\n' then some (.joined, []) else if isBlank c then some (.joining, []) else none
  | .joined => if c = '\n' ∨ isBlank c then some (.joined, []) else q.takePlain? c
  | .quotes n =>
    if c = q.quote then some (.quotes (n + 1), [])
    else (q.takePlain? c).map fun (m, gained) => (m, List.replicate n q.quote ++ gained)
  | .closed => none

/-- The text is complete before `cs`; the answer is what it still gains. The last three of up to
five quotes in a row close a block. -/
def complete? (q : Quoting) (m : Mode) (cs : List Char) : Option (List Char) :=
  match m with
  | .closed => some []
  | .quotes n =>
    if n = 5 ∨ 3 ≤ n ∧ cs.head? ≠ some q.quote then some (List.replicate (n - 3) q.quote) else none
  | _ => none

/-- The rest of a text of which `gained` is read, the last character first. -/
def rest? (q : Quoting) (m : Mode) (gained : List Char) (cs : List Char) :
    Option (String × List Char) :=
  match q.complete? m cs with
  | some last => some (String.ofList (gained.reverse ++ last), cs)
  | none =>
    match cs with
    | [] => none
    | c :: cs =>
      match q.take? m c with
      | some (m, more) => q.rest? m (more.reverse ++ gained) cs
      | none => none

/-- The text after its opening quotes. -/
def text? (q : Quoting) (cs : List Char) : Option (String × List Char) := q.rest? .plain [] cs

end Quoting

/-- A text in quotes. A line end right after the opening of a block is left out. -/
def quotedText? : List Char → Option (String × List Char)
  | '"' :: '"' :: '"' :: '\n' :: cs => Quoting.text? ⟨'"', true⟩ cs
  | '"' :: '"' :: '"' :: cs => Quoting.text? ⟨'"', true⟩ cs
  | '\'' :: '\'' :: '\'' :: '\n' :: cs => Quoting.text? ⟨'\'', true⟩ cs
  | '\'' :: '\'' :: '\'' :: cs => Quoting.text? ⟨'\'', true⟩ cs
  | '"' :: cs => Quoting.text? ⟨'"', false⟩ cs
  | '\'' :: cs => Quoting.text? ⟨'\'', false⟩ cs
  | _ => none

/-! ## Keys -/

def isKeyChar (c : Char) : Bool := c.isAlphanum || c = '_' || c = '-'

/-- One part of a key: bare, or a text in quotes on one line. -/
def keyPart? (cs : List Char) : Option (String × List Char) :=
  match cs with
  | '"' :: cs => Quoting.text? ⟨'"', false⟩ cs
  | '\'' :: cs => Quoting.text? ⟨'\'', false⟩ cs
  | cs =>
    let part := cs.takeWhile isKeyChar
    if part.isEmpty then none else some (String.ofList part, cs.drop part.length)

/-- A key of at most so many parts with dots between them; blanks may stand around each part. -/
def keyOf? : Nat → List Char → Option (List String × List Char)
  | 0, _ => none
  | parts + 1, cs =>
    match keyPart? (skipBlanks cs) with
    | none => none
    | some (part, rest) =>
      match skipBlanks rest with
      | '.' :: rest => (keyOf? parts rest).map fun (path, rest) => (part :: path, rest)
      | rest => some ([part], rest)

/-- The most parts that a key has, and the most values around a value. -/
def depthLimit : Nat := 79

/-- A key. -/
def key? (cs : List Char) : Option (List String × List Char) := keyOf? depthLimit cs

end ObjectMachine.Settings
