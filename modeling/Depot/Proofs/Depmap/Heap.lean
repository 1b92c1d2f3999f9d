import Depot.Failure
import Depot.Proofs.Depmap.Table
/-!
# Dependency maps in memory

In memory a dependency map is an object that is changed in place. Its sets are kept apart from it in
cells, to which it refers by number (`Depmap.Object`), one cell for the targets of each source. So
nothing in the types keeps two maps from sharing a set, and an operation that fails halfway leaves
what it has changed by then. `Depmap.Heap` is a memory with any number of maps, and the operations
are programs over it (`Depmap.Operation.perform`), step by step as they happen: merging changes
three collections before it comes to the floors, which may be refused.

What a map in memory amounts to is a table, and so a map (`Heap.table`, `Heap.map`). The memories
that come about are those after operations on maps that are there (`Heap.Reachable`).
-/

namespace Depot.Depmap

/-- A dependency map in memory. -/
structure Object where
  /-- Each source with the number of the cell of its targets. -/
  entries : List (Coordinate × Nat)
  /-- The number of the cell of what is required at run time. -/
  runtime : Nat
  build : Nat
  runtimeFloor : Option Decimal
  buildFloor : Option Decimal
  frozen : Bool
  deriving Inhabited

namespace Object

/-- The cells to which a map refers. -/
def cells (o : Object) : List Nat := o.runtime :: o.build :: o.entries.map (·.2)

/-- Raises one of the floors to a number, where that is greater. -/
def raiseFloor (o : Object) (buildTime : Bool) (d : Decimal) : Object :=
  if buildTime then { o with buildFloor := Decimal.maxOption o.buildFloor d }
  else { o with runtimeFloor := Decimal.maxOption o.runtimeFloor d }

/-- The cell of what is required, at build time or at run time. -/
def required (o : Object) (buildTime : Bool) : Nat := if buildTime then o.build else o.runtime

/-- Gives what is required another cell. -/
def setRequired (o : Object) (buildTime : Bool) (n : Nat) : Object :=
  if buildTime then { o with build := n } else { o with runtime := n }

/-- The floor of a kind. -/
def floor (o : Object) (buildTime : Bool) : Option Decimal :=
  if buildTime then o.buildFloor else o.runtimeFloor

/-- Adds an entry for a source. -/
def addEntry (o : Object) (source : Coordinate) (n : Nat) : Object :=
  { o with entries := o.entries ++ [(source, n)] }

/-- Has the coordinate, without version and extension, an entry? -/
def maps (o : Object) (c : Coordinate) : Bool :=
  o.entries.any fun e => e.1 == c.withoutVersionAndExtension

end Object

/-- A memory with dependency maps. -/
structure Heap where
  /-- The sets, by the numbers of their cells. -/
  cells : List (List Coordinate) := []
  objects : List Object := []

namespace Heap

/-- The set in a cell. -/
def cell (h : Heap) (n : Nat) : List Coordinate := h.cells.getD n []

/-- The map with a number. -/
def object (h : Heap) (i : Nat) : Object := h.objects.getD i default

/-- The memory with another set in a cell. -/
def setCell (h : Heap) (n : Nat) (cs : List Coordinate) : Heap :=
  { h with cells := h.cells.set n cs }

/-- The memory with one more cell. -/
def addCell (h : Heap) (cs : List Coordinate) : Heap := { h with cells := h.cells ++ [cs] }

/-- The memory with another object in place of a map. -/
def setObject (h : Heap) (i : Nat) (o : Object) : Heap := { h with objects := h.objects.set i o }

/-- The sources of entries with the sets in the cells of their targets. -/
def targets (h : Heap) (entries : List (Coordinate × Nat)) : Entries :=
  entries.map fun e => (e.1, h.cell e.2)

/-- The table to which an object amounts. -/
def tableOf (h : Heap) (o : Object) : Table where
  entries := h.targets o.entries
  runtime := h.cell o.runtime
  build := h.cell o.build
  runtimeFloor := o.runtimeFloor
  buildFloor := o.buildFloor
  frozen := o.frozen

/-- The table to which a map in memory amounts. -/
def table (h : Heap) (i : Nat) : Table := h.tableOf (h.object i)

/-- The map to which a map in memory amounts. -/
def map (h : Heap) (i : Nat) : Depmap := (h.table i).toDepmap

/-! ### Operations -/

/-- Goes on if a map is not published. -/
def check (i : Nat) : Working Heap Unit := do
  if ((← get).object i).frozen then throw (.edit .frozen)

/-- Sets up a set, and gives the number of its cell. -/
def allocate (cs : List Coordinate) : Working Heap Nat :=
  modifyGet fun h => (h.cells.length, h.addCell cs)

/-- Changes a map. -/
def change (i : Nat) (f : Object → Object) : Working Heap Unit :=
  modify fun h => h.setObject i (f (h.object i))

/-- Adds to the set in a cell. -/
def addTo (n : Nat) (cs : List Coordinate) : Working Heap Unit :=
  modify fun h => h.setCell n (cs ∪ h.cell n)

/-- The cell of the targets of a source, which is set up where there is none. -/
def targetsCell (i : Nat) (source : Coordinate) : Working Heap Nat := do
  match ((← get).object i).entries.find? fun e => e.1 == source with
  | some e => return e.2
  | none =>
    let n ← allocate []
    change i fun o => o.addEntry source n
    return n

/-- Adds to the targets of a source. -/
def extend (i : Nat) (source : Coordinate) (targets : List Coordinate) : Working Heap Unit := do
  let n ← targetsCell i source
  addTo n targets

def addMapping (i : Nat) (source target : Coordinate) : Working Heap Unit := do
  check i
  extend i source.withoutVersionAndExtension [target.withoutVersionAndExtension]

/-- Adds what is required, without its version. -/
def addRequired (i : Nat) (buildTime : Bool) (c : Coordinate) : Working Heap Unit := do
  check i
  addTo (((← get).object i).required buildTime) [c.withoutVersion]

def addFloor (i : Nat) (buildTime : Bool) (version : String) : Working Heap Unit := do
  check i
  match VersionFloor.parse version with
  | .ok d => change i fun o => o.raiseFloor buildTime d
  | .error refusal => throw (.edit (.floor refusal))

/-- Adds the floor of another map, if it has one, by its text. -/
def mergeFloor (i j : Nat) (buildTime : Bool) : Working Heap Unit := do
  match ((← get).object j).floor buildTime with
  | none => return ()
  | some d => addFloor i buildTime d.toText

/-- Adds the entries of another map, one after the other. -/
def mergeEntries (i : Nat) (entries : List (Coordinate × Nat)) : Working Heap Unit :=
  entries.forM fun e => do extend i e.1 ((← get).cell e.2)

/-- Adds what another map requires. -/
def mergeRequired (i j : Nat) (buildTime : Bool) : Working Heap Unit := do
  let h ← get
  addTo ((h.object i).required buildTime) (h.cell ((h.object j).required buildTime))

def merge (i j : Nat) : Working Heap Unit := do
  check i
  mergeEntries i ((← get).object j).entries
  mergeRequired i j false
  mergeRequired i j true
  mergeFloor i j false
  mergeFloor i j true

/-- The set in a cell without what a map maps. -/
def unmapped (h : Heap) (i n : Nat) : List Coordinate :=
  (h.cell n).filter fun c => !(h.object i).maps c

/-- Sets up anew what a map requires, without what it maps. -/
def renewRequired (i : Nat) (buildTime : Bool) : Working Heap Unit := do
  let h ← get
  let n ← allocate (h.unmapped i ((h.object i).required buildTime))
  change i fun o => o.setRequired buildTime n

def optimize (i : Nat) : Working Heap Unit := do
  check i
  renewRequired i false
  renewRequired i true

def freeze (i : Nat) : Working Heap Unit := change i fun o => { o with frozen := true }

/-- Sets up a map that holds nothing. -/
def create : Working Heap Unit := do
  let runtime ← allocate []
  let build ← allocate []
  modify fun h => { h with objects := h.objects ++ [⟨[], runtime, build, none, none, false⟩] }

end Heap

/-- A step by which a map is changed, if it is not published. -/
inductive Edit where
  | addMapping (source target : Coordinate)
  | addRuntime (c : Coordinate)
  | addBuild (c : Coordinate)
  | addFloor (buildTime : Bool) (version : String)
  /-- Adds what the map with a number holds. -/
  | merge (other : Nat)
  | optimize

namespace Edit

/-- Changes the map with a number. -/
def perform (i : Nat) : Edit → Working Heap Unit
  | addMapping source target => Heap.addMapping i source target
  | addRuntime c => Heap.addRequired i false c
  | addBuild c => Heap.addRequired i true c
  | addFloor buildTime version => Heap.addFloor i buildTime version
  | merge other => Heap.merge i other
  | optimize => Heap.optimize i

/-- The step only refers to maps that are there. -/
def IsOn (h : Heap) : Edit → Prop
  | merge other => other < h.objects.length
  | _ => True

/-- The same step on a table, where other maps are those of a memory. -/
def onTable (h : Heap) (t : Table) : Edit → Except EditError Table
  | addMapping source target => t.addMapping source target
  | addRuntime c => t.addRuntime c
  | addBuild c => t.addBuild c
  | addFloor buildTime version => t.addFloor buildTime version
  | merge other => t.merge (h.table other)
  | optimize => t.optimize

/-- The same step on a map, where other maps are those of a memory. -/
def onMap (h : Heap) (m : Depmap) : Edit → Except EditError Depmap
  | addMapping source target => m.addMapping source target
  | addRuntime c => m.addRuntime c
  | addBuild c => m.addBuild c
  | addFloor buildTime version => m.addFloor buildTime version
  | merge other => m.merge (h.map other)
  | optimize => m.optimize

end Edit

/-- An operation on a memory. -/
inductive Operation where
  | create
  | edit (i : Nat) (e : Edit)
  | freeze (i : Nat)

namespace Operation

def perform : Operation → Working Heap Unit
  | create => Heap.create
  | edit i e => e.perform i
  | freeze i => Heap.freeze i

/-- The operation only refers to maps that are there. -/
def IsOn (h : Heap) : Operation → Prop
  | create => True
  | edit i e => i < h.objects.length ∧ e.IsOn h
  | freeze i => i < h.objects.length

/-- The memory after an operation, be it that it worked or not. -/
def after (op : Operation) (h : Heap) : Heap := (op.perform.outcome h).2

end Operation

namespace Heap

/-- Operations lead from one memory to another. -/
inductive Leads : Heap → Heap → Prop where
  | refl (h : Heap) : Leads h h
  | step {h h' : Heap} (hleads : Leads h h') (op : Operation) (hop : op.IsOn h') :
      Leads h (op.after h')

/-- The memory comes about by operations, from one without maps. -/
def Reachable (h : Heap) : Prop := Leads {} h

end Heap

end Depot.Depmap
