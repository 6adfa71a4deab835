/-
The command line: running a unit file, and listing, running, checking and printing the bundled
samples. A command is executed on the contents of the files it names, and ends with an exit code
and the texts for the two output streams. A failure is a chain of messages, the outermost first,
each explained by the one after it.
-/
import ObjectMachine.CommandLine.Command
import ObjectMachine.Machine
import ObjectMachine.Options.Settings
import ObjectMachine.Sample
import ObjectMachine.UnitFormat.Decode

namespace ObjectMachine.CommandLine

/-- Reads a file by name: its contents, or the words for why it cannot be read. -/
abbrev Files := String → Except String String

/-! ## Outcomes -/

/-- How a command ends. -/
structure Outcome where
  exit : UInt32
  stdout : String
  stderr : String
  deriving DecidableEq, Repr

/-- Lines as the text of a stream. -/
def textOf (lines : List String) : String := String.join (lines.map (· ++ "\n"))

/-- A message of a chain, indented; `first` stands before its first line and `later` before the
others. -/
def indented (first later message : String) : String :=
  first ++ String.intercalate ("\n" ++ later) (message.splitOn "\n")

/-- The number of a cause, right-aligned. -/
def causeNumber (i : Nat) : String :=
  let digits := toString i
  "".pushn ' ' (5 - digits.length) ++ digits ++ ": "

/-- The report of a failure: the message, then the causes, numbered if there are several. -/
def report : List String → String
  | [] => ""
  | [message] => "Error: " ++ message ++ "\n"
  | [message, cause] =>
    "Error: " ++ message ++ "\n\nCaused by:\n" ++ indented "    " "    " cause ++ "\n"
  | message :: causes =>
    "Error: " ++ message ++ "\n\nCaused by:\n"
      ++ textOf (causes.zipIdx.map fun (cause, i) => indented (causeNumber i) "       " cause)

/-- An error as a chain of messages. -/
def chainOf (e : Failure) : List String := (e :: e.causes).map Failure.message

/-- The outcome of a command that has written lines and then failed or succeeded. -/
def Outcome.of (sink : Sink) (result : Except (List String) (List String)) : Outcome :=
  let stdout := textOf (sink.linesOf .out)
  let stderr := textOf (sink.linesOf .err)
  match result with
  | .ok notes => ⟨0, stdout, stderr ++ textOf notes⟩
  | .error chain => ⟨1, stdout, stderr ++ report chain⟩

def fail (chain : List String) : Outcome := .of {} (.error chain)

/-! ## Commands -/

/-- The text of a unit file that describes no unit. -/
def malformedUnit : String := "malformed description"

/-- The options of a run: those of the settings file, with the call depth overridden. -/
def options (files : Files) (config : Option String) (maxCallDepth : Option Nat) :
    Except (List String) Options :=
  let configured : Except (List String) Options :=
    match config with
    | none => .ok {}
    | some path =>
      match files path with
      | .error reason => .error ["failed to read config " ++ path, reason]
      | .ok text =>
        match Options.ofSettings? text with
        | none => .error ["invalid config " ++ path, "malformed settings"]
        | some o => .ok o
  configured.map fun o => { o with maxCallDepth := maxCallDepth.getD o.maxCallDepth }

/-- The unit in a file. -/
def unitIn (files : Files) (file : String) : Except (List String) CompilationUnit :=
  match files file with
  | .error reason => .error ["failed to load " ++ file, "I/O error: " ++ reason, reason]
  | .ok text =>
    match CompilationUnit.parse? text with
    | none =>
      .error ["failed to load " ++ file, "Invalid compilation unit: " ++ malformedUnit,
        malformedUnit]
    | some unit => .ok unit

/-- Runs a unit and reports what it printed and how it ended; `explain` finds the words for an
error and `confirm` those for success, given the sink. -/
def runUnit (fuel : Nat) (options : Options) (unit : CompilationUnit)
    (explain : Failure → List String) (confirm : Sink → Except (List String) (List String)) :
    Option Outcome :=
  ((Machine.boot options {}).runUnit fuel unit).map fun (result, m) =>
    match result with
    | .ok _ => .of m.store.sink (confirm m.store.sink)
    | .error e => .of m.store.sink (.error (explain e))

def unknownSample (name : String) : Outcome := fail ["unknown sample '" ++ name ++ "'"]

/-- Compares what a sample printed with what it should. -/
def verify (sample : Sample) (sink : Sink) : Except (List String) (List String) :=
  let actual := sink.linesOf .out
  if actual = sample.expected then
    .ok [sample.name ++ ": ok (" ++ toString actual.length ++ " lines)"]
  else
    .error ["sample '" ++ sample.name ++ "' printed " ++ Text.quotedList actual ++ ", expected "
      ++ Text.quotedList sample.expected]

/-- A word padded on the right to a width. -/
def padRight (width : Nat) (word : String) : String := word.pushn ' ' (width - word.length)

def sampleList : List String :=
  Sample.all.map fun s => padRight 24 s.name ++ " " ++ s.summary

/-- What is said about the program when help is asked for, or nothing at all. -/
def helpText : String := "Run Kopi compilation units\n\nUsage: kopi [OPTIONS] <COMMAND>\n"

/-- Executes a command on the files it names. -/
def Command.execute (fuel : Nat) (files : Files) : Command → Option Outcome
  | .version => some ⟨0, "kopi 0.1.0\n", ""⟩
  | .help => some ⟨0, helpText, ""⟩
  | .dump name =>
    match Sample.find? name with
    | none => some (unknownSample name)
    | some sample => some ⟨0, sample.unit.print ++ "\n", ""⟩
  | .demo _ true _ => some ⟨0, textOf sampleList, ""⟩
  | .demo none false _ => some (fail ["no sample named; use --list to see them"])
  | .demo (some name) false verified =>
    match Sample.find? name with
    | none => some (unknownSample name)
    | some sample =>
      if verified then
        runUnit fuel {} sample.unit
          (fun e => ("sample '" ++ sample.name ++ "' failed") :: chainOf e) (verify sample)
      else runUnit fuel {} sample.unit chainOf fun _ => .ok []
  | .run file main config maxCallDepth =>
    match options files config maxCallDepth with
    | .error chain => some (fail chain)
    | .ok options =>
      match unitIn files file with
      | .error chain => some (fail chain)
      | .ok unit =>
        runUnit fuel options { unit with entry := main.or unit.entry } chainOf fun _ => .ok []

/-! ## Unusable arguments -/

/-- The one-line text of a usage error; what is missing stands on lines of its own. -/
def UsageError.message : UsageError → String
  | .nothing => "no arguments"
  | .unknownSubcommand word => "unrecognized subcommand '" ++ word ++ "'"
  | .noSubcommand =>
    "'kopi' requires a subcommand but one was not provided\n  [subcommands: run, demo, dump, help]"
  | .unexpectedArgument word => "unexpected argument '" ++ word ++ "' found"
  | .repeated argument =>
    "the argument '" ++ argument ++ "' cannot be used multiple times"
  | .missingValue argument =>
    "a value is required for '" ++ argument ++ "' but none was supplied"
  | .unexpectedValue value argument =>
    "unexpected value '" ++ value ++ "' for '" ++ argument ++ "' found; no more were expected"
  | .invalidValue value argument reason =>
    "invalid value '" ++ value ++ "' for '" ++ argument ++ "': " ++ reason
  | .missingArguments arguments =>
    "the following required arguments were not provided:"
      ++ String.join (arguments.map ("\n  " ++ ·))

/-- The outcome of arguments that cannot be used. -/
def UsageError.outcome : UsageError → Outcome
  | .nothing => ⟨2, "", helpText⟩
  | e => ⟨2, "", "error: " ++ e.message ++ "\n\nFor more information, try '--help'.\n"⟩

end ObjectMachine.CommandLine
