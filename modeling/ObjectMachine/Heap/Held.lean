/-
Which tracked objects are still held. An object is let go once nothing refers to it any more:
neither a root, which is a handle held outside the heap, nor a cell of an object that is itself
still held. References are counted, and letting an object go takes the references in its cells
away; objects that refer to each other in a circle keep each other's counts up and stay.
-/
import ObjectMachine.Heap.Basic
import Std.Data.HashMap

namespace ObjectMachine

/-- How often each entry is referred to. What has no number is not an entry, or was let go. -/
abbrev RefCounts := Std.HashMap Handle Nat

namespace RefCounts

/-- Every entry, with no reference counted yet. -/
def start (entries : List Handle) : RefCounts :=
  entries.foldl (fun counts ref => counts.insert ref 0) ∅

/-- Counts references to entries. -/
def count (counts : RefCounts) (references : List Handle) : RefCounts :=
  references.foldl (fun counts ref => counts.modify ref (· + 1)) counts

/-- Takes references away one by one. An entry that loses its last one is let go, and then the
references it held are taken away too. As many steps as there are references suffice. -/
def release (referencesOf : Handle → List Handle) :
    Nat → List Handle → RefCounts → RefCounts
  | 0, _, counts => counts
  | _ + 1, [], counts => counts
  | fuel + 1, ref :: todo, counts =>
    match counts[ref]? with
    | none => release referencesOf fuel todo counts
    | some (n + 2) => release referencesOf fuel todo (counts.insert ref (n + 1))
    | some _ => release referencesOf fuel (referencesOf ref ++ todo) (counts.erase ref)

end RefCounts

/-- The entries that are held when only roots and entries can hold: those without any reference
are let go at once, and then whatever they alone referred to. -/
def Heap.held (h : Heap) (roots entries : List Handle) : List Handle :=
  let references := entries.flatMap h.references
  let counts := ((RefCounts.start entries).count roots).count references
  let loose := entries.filter fun ref => counts[ref]? = some 0
  let counts := loose.foldl (·.erase ·) counts
  let counts := counts.release h.references references.length (loose.flatMap h.references)
  entries.filter counts.contains

end ObjectMachine
