/-
The settings of a machine.
-/

namespace ObjectMachine

/-- Settings that hold for the life of a machine. -/
structure Options where
  /-- How many method, constructor and native bodies may be active at once. -/
  maxCallDepth : Nat := 1024
  /-- Whether the hint to collect, given by managed code, sweeps. -/
  collectOnHint : Bool := true
  deriving DecidableEq, Repr

/-- The largest call depth that can be asked for. -/
def Options.largestCallDepth : Nat := 18446744073709551615

end ObjectMachine
