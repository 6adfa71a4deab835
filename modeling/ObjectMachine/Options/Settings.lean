/-
Options as a settings document. Keys that mean nothing here are ignored.
-/
import ObjectMachine.Options
import ObjectMachine.Settings.Document

namespace ObjectMachine.Options

open Settings (Table)

/-- The call depth that a document sets. -/
def callDepthIn (t : Table) : Option Nat :=
  match t.get? "max_call_depth" with
  | none => some ({} : Options).maxCallDepth
  | some (.value (.integer n)) => if 0 ≤ n then some n.toNat else none
  | some _ => none

/-- The choice to collect that a document sets. -/
def collectOnHintIn (t : Table) : Option Bool :=
  match t.get? "collect_on_gc_hint" with
  | none => some ({} : Options).collectOnHint
  | some (.value (.boolean b)) => some b
  | some _ => none

/-- The options that a settings document describes. -/
def ofSettings? (document : String) : Option Options := do
  let t ← Settings.parse? document
  return { maxCallDepth := ← callDepthIn t, collectOnHint := ← collectOnHintIn t }

end ObjectMachine.Options
