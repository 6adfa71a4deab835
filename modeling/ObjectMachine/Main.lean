/-
The program: reads the files a command names, executes it, prints the outcome and exits.
-/
import ObjectMachine.CommandLine

open ObjectMachine CommandLine

/-- More steps than any run takes. -/
def stepLimit : Nat := 1000000000000000

/-- The words for why a file cannot be read. -/
def reasonOf : IO.Error → String
  | .noFileOrDirectory .. => "No such file or directory (os error 2)"
  | .permissionDenied .. => "Permission denied (os error 13)"
  | .inappropriateType _ code _ =>
    if code = 21 then "Is a directory (os error 21)" else "Not a directory (os error 20)"
  | e => toString e

/-- Reads a file. -/
def readFile (name : String) : IO (Except String String) := do
  match ← (IO.FS.readFile name).toBaseIO with
  | .ok text => return .ok text
  | .error e => return .error (reasonOf e)

/-- The files of given names. -/
def readFiles (names : List String) : IO (List (String × Except String String)) :=
  names.mapM fun name => do return (name, ← readFile name)

/-- The outcome of a command line. -/
def outcomeOf (args : List String) : IO Outcome := do
  match parse args with
  | .error e => return e.outcome
  | .ok command =>
    let files ← readFiles command.files
    let read (name : String) : Except String String :=
      (files.lookup name).getD (.error "unread file")
    match command.execute stepLimit read with
    | some outcome => return outcome
    | none => return ⟨1, "", "Error: the run took too many steps\n"⟩

def main (args : List String) : IO UInt32 := do
  let outcome ← outcomeOf args
  IO.print outcome.stdout
  IO.eprint outcome.stderr
  return outcome.exit
