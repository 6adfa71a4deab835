/-
The commands, and how the arguments of a command line name one. Before the subcommand stand the
options that hold for all of them; each subcommand has options and operands of its own.
-/
import ObjectMachine.CommandLine.Arguments

namespace ObjectMachine.CommandLine

/-- What the command line asks for. -/
inductive Command where
  | run (file : String) (main config : Option String) (maxCallDepth : Option Nat)
  | demo (name : Option String) (list verify : Bool)
  | dump (name : String)
  | version
  | help
  deriving DecidableEq, Repr

/-! ## Arguments of each command -/

def logLevel : Argument := .option "log-level" none .text

def help : Argument := .flag "help" (some 'h') .help

/-- The options before the subcommand. -/
def leadingOptions : List Argument := [logLevel, help, .flag "version" (some 'V') .version]

def fileOperand : Argument := .operand "file" "<FILE>" .path

def sampleOperand (required : Bool) : Argument :=
  .operand "name" (if required then "<NAME>" else "[NAME]") .text

/-- A subcommand. -/
inductive Subcommand where
  | run
  | demo
  | dump
  deriving DecidableEq, Repr

namespace Subcommand

/-- The subcommand of a name. -/
def ofName? : String → Option Subcommand
  | "run" => some .run
  | "demo" => some .demo
  | "dump" => some .dump
  | _ => none

def options : Subcommand → List Argument
  | .run =>
    [logLevel, help, .option "main" (some 'm') .text, .option "config" (some 'c') .path,
      .option "max-call-depth" none .callDepth]
  | .demo => [logLevel, help, .flag "list" (some 'l'), .flag "verify" none]
  | .dump => [logLevel, help]

def operands : Subcommand → List Argument
  | .run => [fileOperand]
  | .demo => [sampleOperand false]
  | .dump => [sampleOperand true]

/-- The command that checked arguments ask for. -/
def command (s : Subcommand) (a : Arguments) : Except Stop Command :=
  match s, a.get? "file", a.get? "name" with
  | .run, some file, _ =>
    let maxCallDepth := (a.get? "max-call-depth").bind fun word => (readCallDepth word).toOption
    .ok (.run file (a.get? "main") (a.get? "config") maxCallDepth)
  | .run, none, _ => Arguments.fail (.missingArguments [fileOperand.shown])
  | .demo, _, name => .ok (.demo name (a.has "list") (a.has "verify"))
  | .dump, _, some name => .ok (.dump name)
  | .dump, _, none => Arguments.fail (.missingArguments [(sampleOperand true).shown])

/-- Reads the words after the subcommand. -/
def read (s : Subcommand) (words : List String) : Except Stop Command := do
  s.command (← { operands := s.operands : Arguments }.takeAll s.options words)

end Subcommand

/-! ## The whole line -/

/-- The word for asking for help in place of a subcommand. -/
def helpWord : String := "help"

/-- What is asked for after `help`: the names of a subcommand may follow. -/
def readHelp : List String → Except Stop Command
  | [] => .ok .help
  | word :: words =>
    if word = helpWord ∧ words = [] then .ok .help
    else
      match Subcommand.ofName? word, words with
      | some _, [] => .ok .help
      | some _, further :: _ => Arguments.fail (.unknownSubcommand further)
      | none, _ => Arguments.fail (.unknownSubcommand word)

/-- Reads a line from the options before the subcommand on. -/
def readFrom (a : Arguments) : List String → Except Stop Command
  | [] => do
    let a ← a.settle
    Arguments.fail (if a.given.isEmpty then .nothing else .noSubcommand)
  | word :: words => do
    match ← a.takeWord? leadingOptions word with
    | some a => readFrom a words
    | none =>
      match Subcommand.ofName? word with
      | some s =>
        if a.onlyOperands then Arguments.fail (.unexpectedArgument word)
        else
          let _ ← a.settle
          s.read words
      | none =>
        if word ≠ helpWord then Arguments.fail (.unknownSubcommand word)
        else if a.onlyOperands then Arguments.fail (.unexpectedArgument word)
        else readHelp words

/-- The command that the arguments ask for. -/
def parse (args : List String) : Except UsageError Command :=
  match readFrom {} args with
  | .ok command => .ok command
  | .error .version => .ok .version
  | .error .help => .ok .help
  | .error (.error e) => .error e

/-- The files that a command reads. -/
def Command.files : Command → List String
  | .run file _ config _ => config.toList ++ [file]
  | _ => []

end ObjectMachine.CommandLine
