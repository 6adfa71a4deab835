/-
Decimal numerals of 64-bit integers: an optional sign, then one or more ASCII digits whose value
lies in range. A rejected text is reported with the text itself and one of three reasons.
-/

namespace ObjectMachine

/-- Why a text is not a numeral. -/
inductive NumeralFault where
  /-- No digits at all: an empty text or a lone sign. -/
  | empty
  /-- Some character is not a decimal digit. -/
  | invalidDigit
  /-- Well-formed digits whose value is out of range. -/
  | overflow
  deriving DecidableEq, Repr

def NumeralFault.describe : NumeralFault → String
  | .empty => "no digits"
  | .invalidDigit => "invalid digit"
  | .overflow => "out of range"

/-- A rejected text together with the reason. -/
structure NumeralError where
  input : String
  kind : NumeralFault
  deriving DecidableEq, Repr

def NumeralError.message (e : NumeralError) : String :=
  "Number format error: " ++ e.kind.describe ++ " for input string \"" ++ e.input ++ "\""

/-- An ASCII decimal digit. -/
def isDecimalDigit (c : Char) : Bool := '0' ≤ c && c ≤ '9'

/-- The value of a row of decimal digits, most significant first. -/
def decimalValue (digits : List Char) : Nat :=
  digits.foldl (fun n c => n * 10 + (c.toNat - '0'.toNat)) 0

/-- Splits a single leading sign off; `true` for a minus. -/
def splitSign : List Char → Bool × List Char
  | '-' :: rest => (true, rest)
  | '+' :: rest => (false, rest)
  | cs => (false, cs)

/-- The signed value that a sign and a row of digits spell. -/
def signedValue (negative : Bool) (digits : List Char) : Int :=
  if negative then -(decimalValue digits : Int) else decimalValue digits

/-- Reads a 64-bit decimal numeral. -/
def parseLong (input : String) : Except NumeralError Int64 :=
  let (negative, digits) := splitSign input.toList
  if digits.isEmpty then .error ⟨input, .empty⟩
  else if !digits.all isDecimalDigit then .error ⟨input, .invalidDigit⟩
  else
    let n := signedValue negative digits
    if Int64.minValue.toInt ≤ n ∧ n ≤ Int64.maxValue.toInt then .ok (Int64.ofInt n)
    else .error ⟨input, .overflow⟩

end ObjectMachine
