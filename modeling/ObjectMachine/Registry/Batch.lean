/-
Registering the classes of one unit together. They may be listed in any order: the ancestors of a
class that are still waiting in the batch go first. A batch goes in as a whole or not at all.
-/
import ObjectMachine.Registry

namespace ObjectMachine.Registry

/-- The first waiting source of a name. -/
def waiting? (pending : List ClassDecl) (name : String) : Option ClassDecl :=
  pending.find? (·.name = name)

/-- Drops repetitions from a batch; two different sources of one name are an error. -/
def distinct (r : Registry) (u : UnitId) :
    List ClassDecl → List ClassDecl → Except Failure (List ClassDecl)
  | [], kept => .ok kept.reverse
  | s :: rest, kept =>
    match waiting? kept s.name with
    | none => distinct r u rest (s :: kept)
    | some seen =>
      if seen = s then distinct r u rest kept
      else .error (.classRedefinition s.name (r.unitText u))

/-- The waiting sources from a name upwards, the topmost first in the answer; `chain` are those
already passed, the topmost first. A name met twice on the way up closes a cycle. Each step up
passes another waiting source, so as many steps as there are waiting sources suffice. -/
def climb (pending : List ClassDecl) :
    Nat → List ClassDecl → String → Except Failure (List ClassDecl)
  | fuel, chain, name =>
    if chain.any (·.name = name) then .error (.inheritanceCycle name)
    else
      match waiting? pending name with
      | none => .ok chain
      | some source =>
        match source.parent, fuel with
        | none, _ => .ok (source :: chain)
        | some _, 0 => .ok (source :: chain)
        | some parent, fuel + 1 => climb pending fuel (source :: chain) parent

/-- Registers sources in the order given; after an error those before it are in. -/
def registerAll (u : UnitId) (natives : Bindings) :
    List ClassDecl → Registry → Except Failure (List Class) × Registry
  | [], r => (.ok [], r)
  | s :: rest, r =>
    match r.register u s natives with
    | .error e => (.error e, r)
    | .ok (c, r) =>
      match registerAll u natives rest r with
      | (.error e, r) => (.error e, r)
      | (.ok cs, r) => (.ok (c :: cs), r)

/-- Goes through the names of a batch; for each, registers the sources that wait on its way up. -/
def registerNames (u : UnitId) (natives : Bindings) :
    List String → List ClassDecl → Registry → Except Failure (List Class) × Registry
  | [], _, r => (.ok [], r)
  | name :: names, pending, r =>
    match climb pending pending.length [] name with
    | .error e => (.error e, r)
    | .ok chain =>
      match registerAll u natives chain r with
      | (.error e, r) => (.error e, r)
      | (.ok cs, r) =>
        let pending := pending.filter fun s => !chain.any (·.name = s.name)
        match registerNames u natives names pending r with
        | (.error e, r) => (.error e, r)
        | (.ok ds, r) => (.ok (cs ++ ds), r)

/-- Registers the classes of a batch; they come back in the order of registration. -/
def registerBatch (r : Registry) (u : UnitId) (sources : List ClassDecl) (natives : Bindings) :
    Except Failure (List Class) × Registry :=
  match r.distinct u sources [] with
  | .error e => (.error e, r)
  | .ok batch => registerNames u natives (batch.map (·.name)) batch r

/-- Registers the classes of a unit; after an error those that went in are taken away again. -/
def registerUnit (r : Registry) (u : UnitId) (sources : List ClassDecl) (natives : Bindings) :
    Except Failure (List Class) × Registry :=
  match r.registerBatch u sources natives with
  | (.ok cs, r') => (.ok cs, r')
  | (.error e, r') => (.error e, r'.truncate r.size)

end ObjectMachine.Registry
