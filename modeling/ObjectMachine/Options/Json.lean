/-
Options as JSON: a record of two fields, either of which may be left out.
-/
import ObjectMachine.Options
import ObjectMachine.UnitFormat.Decode

namespace ObjectMachine.Options

open Json.Reader

/-- Reads a call depth. -/
def readCallDepth (j : Json) : Option Nat := (integer 0 largestCallDepth j).map Int.toNat

def read : Nat → Json → Option Options :=
  record ["max_call_depth", "collect_on_gc_hint"] fun _ fs => do
    let default : Options := {}
    return ⟨← fs.withDefault "max_call_depth" default.maxCallDepth readCallDepth,
      ← fs.withDefault "collect_on_gc_hint" default.collectOnHint boolean⟩

/-- The options that a JSON document describes. -/
def parse? (document : String) : Option Options := readDocument read document

def toJson (o : Options) : Json :=
  .object [("max_call_depth", .int o.maxCallDepth), ("collect_on_gc_hint", .bool o.collectOnHint)]

end ObjectMachine.Options
