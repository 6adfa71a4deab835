/-
The tokens of a JSON text. The scanner reads one character at a time: a mode says what it is in the
middle of, and each character completes at most two tokens, since the character that ends a number
may be a token itself.
-/
import ObjectMachine.Json

namespace ObjectMachine.Json

/-- A token. -/
inductive Token where
  | beginArray
  | endArray
  | beginObject
  | endObject
  | colon
  | comma
  /-- A string, as a value or as a key. -/
  | string (text : Option String)
  /-- A literal name or a number. -/
  | scalar (j : Json)
  deriving Inhabited

/-! ## Strings -/

/-- The text that code points spell, where two escaped surrogates may stand for one character;
nothing if a surrogate stands alone. -/
def decodePoints : List Nat → Option (List Char)
  | [] => some []
  | high :: rest =>
    if 0xD800 ≤ high ∧ high < 0xDC00 then
      match rest with
      | low :: rest =>
        if 0xDC00 ≤ low ∧ low < 0xE000 then
          (decodePoints rest).map
            (Char.ofNat (0x10000 + (high - 0xD800) * 0x400 + (low - 0xDC00)) :: ·)
        else none
      | [] => none
    else if 0xDC00 ≤ high ∧ high < 0xE000 then none
    else (decodePoints rest).map (Char.ofNat high :: ·)

/-- The value of a hexadecimal digit. -/
def hexValue? (c : Char) : Option Nat :=
  if '0' ≤ c ∧ c ≤ '9' then some (c.toNat - '0'.toNat)
  else if 'a' ≤ c ∧ c ≤ 'f' then some (c.toNat - 'a'.toNat + 10)
  else if 'A' ≤ c ∧ c ≤ 'F' then some (c.toNat - 'A'.toNat + 10)
  else none

/-- The character that an escape of one letter stands for. -/
def escaped? : Char → Option Char
  | '"' => some '"'
  | '\\' => some '\\'
  | '/' => some '/'
  | 'b' => some '\x08'
  | 'f' => some '\x0c'
  | 'n' => some '\n'
  | 'r' => some '\r'
  | 't' => some '\t'
  | _ => none

/-! ## Numbers -/

/-- How much of a number has been read. -/
inductive NumberPhase where
  | sign
  /-- A whole part that is a single zero. -/
  | zero
  | whole
  | point
  | fraction
  | exponent
  | exponentSign
  | exponentDigits
  deriving DecidableEq, Repr

namespace NumberPhase

def isDigit (c : Char) : Bool := '0' ≤ c && c ≤ '9'

/-- The phase after one more character, if the character belongs to the number. -/
def next? (p : NumberPhase) (c : Char) : Option NumberPhase :=
  match p with
  | sign => if c = '0' then some zero else if isDigit c then some whole else none
  | zero => afterWhole c
  | whole => if isDigit c then some whole else afterWhole c
  | point => if isDigit c then some fraction else none
  | fraction => if isDigit c then some fraction else beforeExponent c
  | exponent =>
    if c = '+' ∨ c = '-' then some exponentSign
    else if isDigit c then some exponentDigits else none
  | exponentSign | exponentDigits => if isDigit c then some exponentDigits else none
where
  beforeExponent (c : Char) : Option NumberPhase :=
    if c = 'e' ∨ c = 'E' then some exponent else none
  afterWhole (c : Char) : Option NumberPhase :=
    if c = '.' then some point else beforeExponent c

/-- The phase a number begins in. -/
def first? (c : Char) : Option NumberPhase := if c = '-' then some sign else sign.next? c

/-- A number may end here. -/
def canEnd : NumberPhase → Bool
  | zero | whole | fraction | exponentDigits => true
  | _ => false

end NumberPhase

/-- The value of a number's characters: whole unless it has a fraction or an exponent, or is a
negative zero. -/
def ofNumber (p : NumberPhase) (literal : List Char) : Json :=
  let value (digits : List Char) : Nat :=
    digits.foldl (fun n c => n * 10 + (c.toNat - '0'.toNat)) 0
  if p = .zero ∨ p = .whole then
    match literal with
    | '-' :: digits => if value digits = 0 then .float literal else .int (-(value digits : Int))
    | digits => .int (value digits)
  else .float literal

/-! ## The scanner -/

/-- What the scanner is in the middle of. -/
inductive Mode where
  | between
  /-- A literal name: the letters still to come, and what it stands for. -/
  | name (rest : List Char) (value : Json)
  /-- A string: its code points so far, the last one first. -/
  | text (points : List Nat)
  /-- A string, right after a backslash. -/
  | escape (points : List Nat)
  /-- A string, in the four digits of an escaped code unit. -/
  | unit (points : List Nat) (left value : Nat)
  /-- A number: its characters so far, the last one first. -/
  | number (phase : NumberPhase) (literal : List Char)

/-- Blanks between tokens. -/
def isBlank (c : Char) : Bool := c = ' ' || c = '\n' || c = '\t' || c = '\r'

/-- The first character of a token, or a blank. -/
def begin? (c : Char) : Option (Mode × List Token) :=
  if isBlank c then some (.between, [])
  else
    match c with
    | '[' => some (.between, [.beginArray])
    | ']' => some (.between, [.endArray])
    | '\x7b' => some (.between, [.beginObject])
    | '\x7d' => some (.between, [.endObject])
    | ':' => some (.between, [.colon])
    | ',' => some (.between, [.comma])
    | '"' => some (.text [], [])
    | 't' => some (.name ['r', 'u', 'e'] (.bool true), [])
    | 'f' => some (.name ['a', 'l', 's', 'e'] (.bool false), [])
    | 'n' => some (.name ['u', 'l', 'l'] .null, [])
    | c => (NumberPhase.first? c).map fun p => (.number p [c], [])

/-- One character: the mode after it and the tokens it completes. -/
def Mode.next? (m : Mode) (c : Char) : Option (Mode × List Token) :=
  match m with
  | .between => begin? c
  | .name [] _ => none
  | .name [last] value => if c = last then some (.between, [.scalar value]) else none
  | .name (letter :: rest) value => if c = letter then some (.name rest value, []) else none
  | .text points =>
    if c = '"' then some (.between, [.string ((decodePoints points.reverse).map String.ofList)])
    else if c = '\\' then some (.escape points, [])
    else if c.toNat < 0x20 then none
    else some (.text (c.toNat :: points), [])
  | .escape points =>
    if c = 'u' then some (.unit points 4 0, [])
    else (escaped? c).map fun e => (.text (e.toNat :: points), [])
  | .unit points left value =>
    (hexValue? c).map fun d =>
      if left ≤ 1 then (.text ((value * 16 + d) :: points), [])
      else (.unit points (left - 1) (value * 16 + d), [])
  | .number phase literal =>
    match phase.next? c with
    | some phase => some (.number phase (c :: literal), [])
    | none =>
      if phase.canEnd then
        (begin? c).map fun (m, tokens) => (m, .scalar (ofNumber phase literal.reverse) :: tokens)
      else none

/-- The end of the text: the token that is completed by it. -/
def Mode.finish? : Mode → Option (List Token)
  | .between => some []
  | .number phase literal =>
    if phase.canEnd then some [.scalar (ofNumber phase literal.reverse)] else none
  | _ => none

end ObjectMachine.Json
