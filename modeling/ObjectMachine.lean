import ObjectMachine.Main
import ObjectMachine.Options.Json
import ObjectMachine.Proofs.Registry.Methods
import ObjectMachine.Proofs.Registry.AllOrNothing
import ObjectMachine.Proofs.Registry.AnyOrder
import ObjectMachine.Proofs.Registry.Again
import ObjectMachine.Proofs.Selection
import ObjectMachine.Proofs.Statics
import ObjectMachine.Proofs.Init.Progress
import ObjectMachine.Proofs.Init.Nesting
import ObjectMachine.Proofs.Init.Once
import ObjectMachine.Proofs.Init.BeforeUse
import ObjectMachine.Proofs.Init.Reentry
import ObjectMachine.Proofs.Store.Typing
import ObjectMachine.Proofs.Store.Access
import ObjectMachine.Proofs.Library.Printing
import ObjectMachine.Proofs.Exec.Loading
import ObjectMachine.Proofs.Exec.DepthLimit
import ObjectMachine.Proofs.Exec.LoopFree
import ObjectMachine.Proofs.Exec.Isolation
import ObjectMachine.Proofs.Exec.SuperCalls
import ObjectMachine.Proofs.Exec.Constructors
import ObjectMachine.Proofs.Exec.WiderFrames
import ObjectMachine.Proofs.Init.Failures
import ObjectMachine.Proofs.Exec.Tracking
import ObjectMachine.Proofs.Json.Grammar
import ObjectMachine.Proofs.Json.Nesting
import ObjectMachine.Proofs.UnitFormat.RoundTrip
import ObjectMachine.Proofs.UnitFormat.Spellings
import ObjectMachine.Proofs.Json.Spelling
import ObjectMachine.Proofs.Library.Startup
import ObjectMachine.Proofs.Library.Usable
import ObjectMachine.Proofs.Exec.CallDepth
import ObjectMachine.Proofs.Registry.Cycles
import ObjectMachine.Proofs.Registry.WiderBodies
import ObjectMachine.Proofs.Store.Unassigned
import ObjectMachine.Proofs.Library.FailingSink
import ObjectMachine.Proofs.Numeral
import ObjectMachine.Proofs.Heap.Held
import ObjectMachine.Proofs.Heap.Referenced
import ObjectMachine.Proofs.Heap.Sweeping
import ObjectMachine.Proofs.Library.BoxedLong
import ObjectMachine.Proofs.UnitFormat.Respelled
import ObjectMachine.Proofs.Registry.Tables
import ObjectMachine.Proofs.Operator
