/-
The bundled sample programs: each a unit with the lines that its `main` prints on standard output.
Two of them are one program over classes of different names; the names `A` and `B` also occur in a
third, which is no conflict since every unit is a scope of its own.
-/
import ObjectMachine.Decl

namespace ObjectMachine

/-- A sample program. -/
structure Sample where
  name : String
  summary : String
  unit : CompilationUnit
  /-- The lines on standard output. -/
  expected : List String

namespace Sample

/-- A `main` with room for three local slots. -/
def program (code : List Stmt) : MethodDecl := .static "main" [] .void { maxLocals := 3, code }

/-! ## Constructors and static calls -/

/-- A static method that prints its argument and gives a constant back. -/
def tracedConstant (result : Int32) : MethodDecl :=
  .static "x" [.int] .int { code := [.println (.slot 0), .giveBack (some (.ofInt result))] }

/-- A class whose constructor takes a number of integers and prints a tag. -/
def announcer (name : String) (arity : Nat) (tag result : Int32) : ClassDecl :=
  { name
    constructors :=
      [{ params := List.replicate arity .int, body := { code := [.println (.ofInt tag)] } }]
    methods := [tracedConstant result] }

def overloads : Sample :=
  let callX (cls : String) (n : Int32) : Stmt := .println (.invokeStatic cls "x" [.ofInt n])
  { name := "constructor"
    summary := "static calls with return values and constructor selection by arity"
    unit :=
      { name := "Constructor"
        entry := some "Constructor"
        classes := [announcer "A" 2 1 3, announcer "B" 1 3 5, announcer "C" 3 5 1000,
          { name := "Constructor"
            methods := [.static "print" [.int] .void { code := [.println (.slot 0)] },
              program [callX "A" 5, callX "B" 88,
                .store 0 (.create "A" [.ofInt 12, .ofInt 1]),
                callX "C" 1205,
                .store 1 (.create "C" [.ofInt 555, .ofInt 111, .ofInt 222]),
                .store 2 (.create "B" [.ofInt 8]),
                .store 2 (.create "B" [.ofInt 9]),
                .expr (.invokeStatic "Constructor" "print" [.ofInt 9999])]] }] }
    expected := ["5", "3", "88", "5", "1", "1205", "1000", "5", "3", "3", "9999"] }

/-! ## Virtual calls -/

/-- A class with one field that a constructor sets and an instance method prints a result from. -/
def calculator (name : String) (params : List Ty) (initial : Expr)
    (combine : Expr → Expr → Expr) : ClassDecl :=
  { name
    fields := [⟨"x", .int⟩]
    constructors := [{ params, body := { code := [.putThis name "x" initial] } }]
    methods := [.onInstance "print" [.int] .void
      { code := [.println (combine (.thisField name "x") (.slot 1))] }] }

/-- Adds to a sum and product of its constructor's arguments. -/
def sums (name : String) : ClassDecl :=
  calculator name [.int, .int, .int] (.add (.slot 1) (.mul (.slot 2) (.slot 3))) .add

/-- Subtracts from its constructor's argument. -/
def differences (name : String) : ClassDecl := calculator name [.int] (.slot 1) .sub

/-- A class with five fields, which its `main` sets and prints between calls on the two
calculators. -/
def calculations (name sums differences : String) : ClassDecl :=
  let fields := ["a", "b", "c", "d", "e"]
  let values : List Int32 := [3, 4, 5, 6, 7]
  let printOn (slot : UInt16) (n : Int32) : Stmt :=
    .expr (.invokeVirtual (.slot slot) "print" [.ofInt n])
  { name
    fields := fields.map fun f => ⟨f, .int⟩
    methods := [.onInstance "print" [.int] .void { code := [.println (.ofInt 123123)] },
      program
        ([.store 0 (.create name []),
          .store 1 (.create sums [.ofInt 5555, .ofInt 88, .ofInt 12]),
          .store 2 (.create differences [.ofInt 3])]
        ++ (fields.zip values).map (fun (f, v) => .putField (.slot 0) name f (.ofInt v))
        ++ [printOn 1 11, printOn 2 22]
        ++ fields.reverse.map (fun f => .println (.getField (.slot 0) name f))
        ++ [printOn 1 4555, printOn 2 888])] }

def calculationLines : List String := ["6622", "-19", "7", "6", "5", "4", "3", "11166", "-885"]

def virtualCalls : Sample :=
  { name := "invoke-virtual"
    summary := "virtual dispatch on the runtime class, field writes through references"
    unit :=
      { name := "InvokeVirtual"
        entry := some "InvokeVirtual"
        classes := [calculations "InvokeVirtual" "A2" "B2", sums "A2", differences "B2"] }
    expected := calculationLines }

def sharedNames : Sample :=
  { name := "new-and-invoke-virtual"
    summary := "allocation plus virtual dispatch; class names shared with another unit"
    unit :=
      { name := "NewAndInvokeVirtual"
        entry := some "NewAndInvokeVirtual"
        classes := [calculations "NewAndInvokeVirtual" "A" "B", sums "A", differences "B"] }
    expected := calculationLines }

/-! ## Numerals, the clock and the hint to collect -/

def numerals : Sample :=
  let parse (text : String) : Expr := .invokeStatic "Long" "parseLong" [.ofText text]
  let now : Expr := .invokeStatic "System" "currentTimeMillis" []
  { name := "long-parse"
    summary := "the parse, clock and gc natives of the system library"
    unit :=
      { name := "LongParse"
        entry := some "LongParse"
        classes := [{
          name := "LongParse"
          methods := [program [
            .println (parse "123"),
            .println (parse "-5"),
            .println (parse "-9223372036854775808"),
            .println (.getStatic "Long" "MAX_VALUE"),
            .println (.getStatic "Long" "SIZE"),
            .store 0 (.invokeStatic "Long" "valueOf" [.ofText "77"]),
            .println (.add (.invokeVirtual (.slot 0) "longValue" []) (.ofLong 1)),
            .store 1 now,
            .store 2 (.ofInt 0),
            .loop (.binary .lt (.slot 2) (.ofInt 1000)) [.store 2 (.add (.slot 2) (.ofInt 1))],
            .expr (.invokeStatic "System" "gc" []),
            .println (.binary .ge now (.slot 1))]] }] }
    expected := ["123", "-5", "-9223372036854775808", "9223372036854775807", "64", "78", "true"] }

/-- Every sample. -/
def all : List Sample := [overloads, virtualCalls, sharedNames, numerals]

def find? (name : String) : Option Sample := all.find? (·.name = name)

end Sample

end ObjectMachine
