/-
Numbers, truth values and moments in a settings document. A number may have single underscores
between its digits. A whole number fits 64 bits; a decimal fraction has no size that rounds to
infinity, unless it is negative or is written as infinity itself. A moment is a date of the
calendar, a time of day, or both.
-/
import ObjectMachine.Settings.Table
import ObjectMachine.Settings.Text

namespace ObjectMachine.Settings

/-! ## Rows of digits -/

/-- A number read from a row of digits: its value, and how many digits it has. -/
structure Digits where
  value : Nat
  count : Nat

/-- Adds a digit at the end. -/
def Digits.push (base : Nat) (n : Digits) (d : Nat) : Digits := ⟨n.value * base + d, n.count + 1⟩

/-- Continues a row of digits. -/
def moreDigits (base : Nat) (n : Digits) : List Char → Digits × List Char
  | '_' :: c :: cs =>
    match digit? base c with
    | some d => moreDigits base (n.push base d) cs
    | none => (n, '_' :: c :: cs)
  | c :: cs =>
    match digit? base c with
    | some d => moreDigits base (n.push base d) cs
    | none => (n, c :: cs)
  | [] => (n, [])

/-- A row of digits. -/
def digits? (base : Nat) : List Char → Option (Digits × List Char)
  | c :: cs => (digit? base c).map fun d => moreDigits base ⟨d, 1⟩ cs
  | [] => none

/-- A row of decimal digits without leading zeros. -/
def decimal? : List Char → Option (Digits × List Char)
  | '0' :: cs => some (⟨0, 1⟩, cs)
  | cs => digits? 10 cs

/-- A sign, if there is one. -/
def sign? : List Char → Option Char × List Char
  | '+' :: cs => (some '+', cs)
  | '-' :: cs => (some '-', cs)
  | cs => (none, cs)

/-! ## Numbers -/

/-- A whole number that fits 64 bits. -/
def whole? (n : Int) : Option Value :=
  if Int64.minValue.toInt ≤ n ∧ n ≤ Int64.maxValue.toInt then some (.integer n) else none

/-- A whole number: decimal with an optional sign, or in another base without one. -/
def integer? (cs : List Char) : Option (Value × List Char) :=
  let inBase (base : Nat) (cs : List Char) : Option (Value × List Char) :=
    (digits? base cs).bind fun (n, rest) => (whole? n.value).map fun v => (v, rest)
  match cs with
  | '0' :: 'x' :: cs => inBase 16 cs
  | '0' :: 'o' :: cs => inBase 8 cs
  | '0' :: 'b' :: cs => inBase 2 cs
  | cs =>
    let (sign, cs) := sign? cs
    (decimal? cs).bind fun (n, rest) =>
      (whole? (if sign = some '-' then -(n.value : Int) else n.value)).map fun v => (v, rest)

/-- The least number that rounds to infinity in 64 bits: halfway between the largest finite number
and the power of two after it. -/
def infinityBound : Nat := Nat.pow 2 1024 - Nat.pow 2 970

/-- The number `digits · 10 ^ scale` is too large for a finite number of 64 bits. Far from the
bound, the position of the first digit decides. -/
def isInfinite (digits : Digits) (scale : Int) : Bool :=
  let size := (toString digits.value).length + scale
  if digits.value = 0 ∨ size < 300 then false
  else if 320 < size then true
  else
    match scale with
    | .ofNat n => infinityBound ≤ digits.value * Nat.pow 10 n
    | .negSucc n => infinityBound * Nat.pow 10 (n + 1) ≤ digits.value

/-- The digits after a decimal point. -/
def fraction? (whole : Digits) : List Char → Option (Digits × List Char)
  | '.' :: c :: cs => (digit? 10 c).map fun d => moreDigits 10 (whole.push 10 d) cs
  | _ => none

/-- A power of ten. -/
def exponent? : List Char → Option (Int × List Char)
  | c :: cs =>
    if c = 'e' ∨ c = 'E' then
      let (sign, cs) := sign? cs
      (digits? 10 cs).map fun (n, rest) =>
        (if sign = some '-' then -(n.value : Int) else n.value, rest)
    else none
  | [] => none

/-- A decimal fraction: digits with a point, a power of ten, or both. -/
def fractional? (cs : List Char) : Option (Value × List Char) :=
  let (sign, cs) := sign? cs
  (decimal? cs).bind fun (whole, rest) =>
    let (digits, afterPoint) := (fraction? whole rest).getD (whole, rest)
    let (power, afterPower) := (exponent? afterPoint).getD (0, afterPoint)
    if afterPower.length = rest.length then none
    else
      let scale := power - ((digits.count - whole.count : Nat) : Int)
      if sign ≠ some '-' ∧ isInfinite digits scale then none else some (.other, afterPower)

/-- The words for infinity and for no number. -/
def nonFinite? (cs : List Char) : Option (Value × List Char) :=
  match (sign? cs).2 with
  | 'i' :: 'n' :: 'f' :: rest | 'n' :: 'a' :: 'n' :: rest => some (.other, rest)
  | _ => none

/-- The two truth values. -/
def truth? : List Char → Option (Value × List Char)
  | 't' :: 'r' :: 'u' :: 'e' :: rest => some (.boolean true, rest)
  | 'f' :: 'a' :: 'l' :: 's' :: 'e' :: rest => some (.boolean false, rest)
  | _ => none

/-! ## Moments -/

/-- A number of exactly so many decimal digits. -/
def fixed? (count : Nat) (cs : List Char) : Option (Nat × List Char) :=
  let row := cs.take count
  if row.length = count then
    (row.mapM (digit? 10)).map fun ds => (ds.foldl (fun n d => n * 10 + d) 0, cs.drop count)
  else none

/-- A number of two digits between bounds, after a given character. -/
def fieldAfter? (mark : Char) (lo hi : Nat) : List Char → Option (Nat × List Char)
  | c :: cs =>
    if c = mark then (fixed? 2 cs).filter fun (n, _) => lo ≤ n ∧ n ≤ hi else none
  | [] => none

def isLeapYear (year : Nat) : Bool := year % 4 = 0 && (year % 100 ≠ 0 || year % 400 = 0)

/-- The number of days in a month. -/
def daysIn (year month : Nat) : Nat :=
  if month = 2 then if isLeapYear year then 29 else 28
  else if month ∈ [4, 6, 9, 11] then 30
  else 31

/-- A date of the calendar; what is left after it. -/
def date? (cs : List Char) : Option (List Char) := do
  let (year, cs) ← fixed? 4 cs
  let (month, cs) ← fieldAfter? '-' 1 12 cs
  let (_, cs) ← fieldAfter? '-' 1 (daysIn year month) cs
  return cs

/-- A fraction of a second, if there is one. -/
def secondFraction : List Char → List Char
  | '.' :: c :: cs => if c.isDigit then cs.dropWhile Char.isDigit else '.' :: c :: cs
  | cs => cs

/-- A time of day; what is left after it. -/
def time? (cs : List Char) : Option (List Char) := do
  let (hour, cs) ← fixed? 2 cs
  if 23 < hour then none
  let (_, cs) ← fieldAfter? ':' 0 59 cs
  let (_, cs) ← fieldAfter? ':' 0 60 cs
  return secondFraction cs

/-- The distance from the standard time, if it is given. -/
def offset (cs : List Char) : List Char :=
  match cs with
  | 'Z' :: rest | 'z' :: rest => rest
  | c :: rest =>
    if c = '+' ∨ c = '-' then
      match (fixed? 2 rest).bind fun (hour, rest) =>
          if 23 < hour then none else fieldAfter? ':' 0 59 rest with
      | some (_, rest) => rest
      | none => cs
    else cs
  | [] => []

/-- The time of day on a date, if it is given. -/
def timeOnDate (cs : List Char) : List Char :=
  match cs with
  | c :: rest =>
    if c = 'T' ∨ c = 't' ∨ c = ' ' then
      match time? rest with
      | some rest => offset rest
      | none => cs
    else cs
  | [] => []

/-- A moment. -/
def moment? (cs : List Char) : Option (Value × List Char) :=
  (((date? cs).map timeOnDate).or (time? cs)).map fun rest => (.other, rest)

/-- A number, a truth value or a moment; the longer readings come first. -/
def scalar? (cs : List Char) : Option (Value × List Char) :=
  (((((moment? cs).or (fractional? cs)).or (nonFinite? cs)).or (integer? cs)).or (truth? cs))

end ObjectMachine.Settings
