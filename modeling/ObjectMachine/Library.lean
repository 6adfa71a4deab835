/-
The bundled library, visible from every scope: stream objects that print lines, the standard
streams with the hint to collect and the clock, and the boxed 64-bit integer with its numeral
reader. Its host functions are bound before its classes are registered.
-/
import ObjectMachine.Registry.Batch

namespace ObjectMachine.Library

/-! ## Host functions -/

/-- A host function ends with a diagnostic. -/
def fail (diagnostic : String) : HostProgram := .reply (.fault (.failed diagnostic))

/-- Prints a value as a line on the stream that the receiver's `fd` field names. -/
def println : HostFunction := fun view args =>
  .withArg (ArgType.reference.arg args 0) fun ref =>
    let fd := ((view.field ref "fd").bind Value.asInt?).getD (-1)
    match Stream.ofFd? fd with
    | none => fail ("invalid stream handle " ++ toString fd.toInt)
    | some stream =>
      .withArg (ArgType.any.arg args 1) fun v =>
        .write stream v fun outcome =>
          match outcome with
          | .ok () => .reply .void
          | .error refusal => fail ("write to " ++ stream.name ++ " failed: " ++ refusal)

/-- Hints that now is a good time to collect. -/
def gc : HostFunction := fun _ _ => .collect fun _ => .reply .void

/-- Reads the clock. -/
def readClock : HostFunction := fun _ _ => .clock fun now => .reply (.value (.long now))

/-- Reads a numeral; null has no digits. -/
def readLong : HostFunction := fun _ args =>
  .withArg (ArgType.text.optional.arg args 0) fun text? =>
    match text? with
    | none => .reply (.fault (.numberFormat ⟨"null", .empty⟩))
    | some text =>
      match parseLong text with
      | .ok n => .reply (.value (.long n))
      | .error e => .reply (.fault (.numberFormat e))

/-- The types a stream object prints. -/
def printedTypes : List Ty := [.int, .long, .boolean, .text, .reference]

/-- The bindings of the bundled classes. -/
def natives : Bindings :=
  let printing : Bindings := printedTypes.foldl
    (fun (t : Bindings) ty => t.bind ⟨"PrintStream", "println", [ty]⟩ println) {}
  ((printing.bind ⟨"System", "gc", []⟩ gc).bind
    ⟨"System", "currentTimeMillis", []⟩ readClock).bind
    ⟨"Long", "parseLong", [.text]⟩ readLong

/-! ## Classes -/

/-- A stream object; its field holds the numeric handle of the stream. -/
def printStream : ClassDecl :=
  { name := "PrintStream"
    fields := [⟨"fd", .int⟩]
    constructors :=
      [{ params := [.int], body := { code := [.putThis "PrintStream" "fd" (.slot 1)] } }]
    methods := printedTypes.map fun ty => .native "println" [ty] .void false }

/-- The stream object of a stream. -/
def streamObject (stream : Stream) : Expr := .create "PrintStream" [.ofInt stream.fd]

/-- The standard streams, the hint to collect and the clock. -/
def system : ClassDecl :=
  { name := "System"
    statics := [⟨"out", .reference, some (streamObject .out)⟩,
      ⟨"err", .reference, some (streamObject .err)⟩]
    methods := [.native "gc" [] .void true, .native "currentTimeMillis" [] .long true] }

/-- The boxed 64-bit integer. -/
def long : ClassDecl :=
  { name := "Long"
    fields := [⟨"value", .long⟩]
    statics := [⟨"SIZE", .int, some (.ofInt 64)⟩,
      ⟨"BYTES", .int, some (.ofInt 8)⟩,
      ⟨"MIN_VALUE", .long, some (.ofLong Int64.minValue)⟩,
      ⟨"MAX_VALUE", .long, some (.ofLong Int64.maxValue)⟩]
    constructors := [{ params := [], body := { code := [.putThis "Long" "value" (.ofLong 0)] } },
      { params := [.long], body := { code := [.putThis "Long" "value" (.slot 1)] } }]
    methods := [.native "parseLong" [.text] .long true,
      .static "valueOf" [.text] .reference
        { code := [.giveBack (some
          (.create "Long" [.invokeStatic "Long" "parseLong" [.slot 0]]))] },
      .onInstance "longValue" [] .long
        { code := [.giveBack (some (.thisField "Long" "value"))] }] }

/-- Every bundled class. -/
def classes : List ClassDecl := [printStream, system, long]

/-- The registry that holds the bundled classes and nothing else. -/
def registry : Registry := (Registry.empty.registerUnit systemUnit classes natives).2

end ObjectMachine.Library
