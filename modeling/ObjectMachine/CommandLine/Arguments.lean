/-
Reading the arguments of a command line. Options are written `--name value`, `--name=value`, `-n
value`, `-nvalue` or `-n=value`; letters of options without a value may share one dash, and `--`
ends the options. An argument is checked when the next known one begins or the words end, so an
unknown word is reported before a wrong value right in front of it.
-/
import ObjectMachine.Options
import ObjectMachine.Numeral

namespace ObjectMachine.CommandLine

/-- Why the arguments of a command line cannot be used. An argument is named as messages show
it. -/
inductive UsageError where
  /-- There is no argument at all. -/
  | nothing
  | unknownSubcommand (word : String)
  | noSubcommand
  | unexpectedArgument (word : String)
  | repeated (argument : String)
  | missingValue (argument : String)
  | unexpectedValue (value argument : String)
  | invalidValue (value argument reason : String)
  | missingArguments (arguments : List String)
  deriving DecidableEq, Repr

/-- Why reading stops before the last word. -/
inductive Stop where
  | version
  | help
  | error (e : UsageError)
  deriving DecidableEq, Repr

/-! ## Kinds of arguments -/

/-- Reads a call depth: decimal digits with an optional plus sign, up to 64 bits. Of a number that
is too large, the characters after its first digits do not matter. -/
def readCallDepth (word : String) : Except String Nat :=
  let ofDigits (cs : List Char) : Except String Nat :=
    let n := decimalValue (cs.takeWhile isDecimalDigit)
    if Options.largestCallDepth < n then .error "number too large to fit in target type"
    else if cs.isEmpty || !cs.all isDecimalDigit then .error "invalid digit found in string"
    else .ok n
  match word.toList with
  | [] => .error "cannot parse integer from empty string"
  | '+' :: cs => ofDigits cs
  | cs => ofDigits cs

/-- What is accepted as a value. -/
inductive ValueKind where
  | text
  /-- A text that is not empty. -/
  | path
  | callDepth
  deriving DecidableEq, Repr

/-- Why a word is no value of an argument. -/
def ValueKind.error? (k : ValueKind) (argument word : String) : Option UsageError :=
  match k with
  | .text => none
  | .path => if word.isEmpty then some (.missingValue argument) else none
  | .callDepth =>
    match readCallDepth word with
    | .ok _ => none
    | .error reason => some (.invalidValue word argument reason)

/-- What an argument does. -/
inductive Role where
  | value (k : ValueKind)
  | flag
  | version
  | help
  deriving DecidableEq, Repr

/-- An option, or an operand that is known by its place among the other words. -/
structure Argument where
  name : String
  letter : Option Char := none
  role : Role
  /-- The argument as messages show it. -/
  shown : String
  deriving DecidableEq, Repr

namespace Argument

/-- An option with a value. -/
def option (name : String) (letter : Option Char) (k : ValueKind) : Argument :=
  let placeholder := String.ofList (name.toList.map fun c => if c = '-' then '_' else c.toUpper)
  { name, letter, role := .value k, shown := "--" ++ name ++ " <" ++ placeholder ++ ">" }

/-- An option without a value. -/
def flag (name : String) (letter : Option Char) (role : Role := .flag) : Argument :=
  { name, letter, role, shown := "--" ++ name }

/-- An operand. -/
def operand (name shown : String) (k : ValueKind) : Argument := { name, role := .value k, shown }

end Argument

/-! ## Reading words -/

/-- What is read of the words so far. -/
structure Arguments where
  /-- The values of the arguments that are checked, by name. -/
  given : List (String × String) := []
  /-- The argument that is not checked yet, with its value if it has one. -/
  pending : Option (Argument × Option String) := none
  /-- The operands still to come. -/
  operands : List Argument := []
  /-- Only operands follow. -/
  onlyOperands : Bool := false

namespace Arguments

def get? (a : Arguments) (name : String) : Option String := a.given.lookup name

def has (a : Arguments) (name : String) : Bool := (a.get? name).isSome

def fail {α : Type} (e : UsageError) : Except Stop α := .error (.error e)

/-- Accepts the value of an argument. -/
def accept (a : Arguments) (arg : Argument) (word : String) : Except Stop Arguments :=
  if a.has arg.name then fail (.repeated arg.shown)
  else
    let fault := match arg.role with
      | .value k => k.error? arg.shown word
      | _ => none
    match fault with
    | some e => fail e
    | none => .ok { a with given := a.given ++ [(arg.name, word)] }

/-- Checks the argument that is not checked yet. -/
def settle (a : Arguments) : Except Stop Arguments :=
  match a.pending with
  | none => .ok a
  | some (arg, none) => fail (.missingValue arg.shown)
  | some (arg, some word) => { a with pending := none }.accept arg word

/-- Begins an argument; its value comes with it, or is the next word. -/
def start (a : Arguments) (arg : Argument) (word : Option String) : Except Stop Arguments := do
  return { ← a.settle with pending := some (arg, word) }

/-- Takes an option with the value attached to it, if there is one. -/
def takeOption (a : Arguments) (arg : Argument) (attached : Option String) :
    Except Stop Arguments := do
  match arg.role, attached with
  | .value _, none => a.start arg none
  | .value _, some word => (← a.settle).accept arg word
  | .flag, none => (← a.settle).accept arg ""
  | .version, none => let _ ← a.settle; .error .version
  | .help, none => let _ ← a.settle; .error .help
  | _, some word => fail (.unexpectedValue word arg.shown)

/-- Takes an option by name, as it is written after two dashes. -/
def takeNamed (a : Arguments) (known : List Argument) (word : List Char) :
    Except Stop Arguments :=
  let name := String.ofList (word.takeWhile (· ≠ '='))
  let attached := match word.dropWhile (· ≠ '=') with
    | [] => none
    | _ :: value => some (String.ofList value)
  match known.find? (·.name = name) with
  | none => fail (.unexpectedArgument ("--" ++ name))
  | some arg => a.takeOption arg attached

/-- Takes options by letter, as they are written after one dash. What follows the letter of an
option with a value is its value. -/
def takeLetters (a : Arguments) (known : List Argument) : List Char → Except Stop Arguments
  | [] => .ok a
  | c :: cs =>
    match known.find? (·.letter = some c) with
    | none => fail (.unexpectedArgument ("-" ++ c.toString))
    | some arg =>
      match arg.role, cs with
      | .value _, [] => a.takeOption arg none
      | .value _, '=' :: value | .value _, value => a.takeOption arg (some (String.ofList value))
      | _, cs => do (← a.takeOption arg none).takeLetters known cs

/-- Takes a word that belongs to the options; nothing if it is an operand or a subcommand. -/
def takeWord? (a : Arguments) (known : List Argument) (word : String) :
    Except Stop (Option Arguments) :=
  if a.onlyOperands then .ok none
  else
    match word.toList, a.pending with
    | ['-', '-'], _ => .ok (some { a with onlyOperands := true })
    | '-' :: '-' :: name, _ => (a.takeNamed known name).map some
    | '-' :: c :: cs, _ => (a.takeLetters known (c :: cs)).map some
    | _, some (arg, none) => .ok (some { a with pending := some (arg, some word) })
    | _, _ => .ok none

/-- Takes an operand. -/
def takeOperand (a : Arguments) (word : String) : Except Stop Arguments :=
  match a.operands with
  | [] => fail (.unexpectedArgument word)
  | arg :: operands => { a with operands }.start arg (some word)

/-- Takes the words of a command to the last one. -/
def takeAll (a : Arguments) (known : List Argument) : List String → Except Stop Arguments
  | [] => a.settle
  | word :: words => do
    match ← a.takeWord? known word with
    | some a => a.takeAll known words
    | none => (← a.takeOperand word).takeAll known words

end Arguments

end ObjectMachine.CommandLine
