import BlockAngular.Block
import BlockAngular.Fault
import BlockAngular.Value.Order

/-! # Partitions

Annotated keys are grouped into one slice for the master and one for each
subproblem. A slice holds index tuples by component name, in the order in which
the names and indices came; ids that are equal are one id, in the spelling that
came first.
-/

namespace BlockAngular

/-- Index tuples by component name. -/
abbrev Slice := List (String × List (List Value))

namespace Slice

/-- Whether a set of index tuples holds an equal one. -/
def holdsIndex (indices : List (List Value)) (index : List Value) : Bool :=
  indices.any fun other => Value.sameItems other index

/-- Put an index tuple into a set. -/
def addIndex (indices : List (List Value)) (index : List Value) : List (List Value) :=
  if holdsIndex indices index then indices else indices ++ [index]

/-- Put a key into a slice. -/
def insert (slice : Slice) (key : Key) : Slice :=
  match slice with
  | [] => [(key.name, [key.index])]
  | (name, indices) :: rest =>
    if name == key.name then (name, addIndex indices key.index) :: rest
    else (name, indices) :: insert rest key

/-- The slice of some rows by name; index tuples must be able to be keys, and the last
    rows of a name count. -/
def ofRows? (rows : List (String × List (List Value))) : Except Fault Slice :=
  if rows.all fun (_, indices) => indices.all Value.allHashable then
    .ok (rows.foldl (fun slice (name, indices) => put name (indices.foldl addIndex []) slice) [])
  else .error .wrongKind
where
  /-- Put the index tuples of a name: it keeps its place. -/
  put (name : String) (indices : List (List Value)) : Slice → Slice
    | [] => [(name, indices)]
    | (other, old) :: rest =>
      if other == name then (other, indices) :: rest else (other, old) :: put name indices rest

/-- The index tuples of each name in their sorted order. -/
def sorted (slice : Slice) : List (String × List (List Value)) :=
  slice.map fun (name, indices) => (name, Value.sortIndices indices)

end Slice

/-- Keys with their blocks, in the order of their first entries. -/
abbrev KeyTable := List (Key × Block)

namespace KeyTable

variable {α : Type}

/-- Put an entry: an equal key keeps its place and spelling. -/
def insert (table : List (Key × α)) (key : Key) (a : α) : List (Key × α) :=
  match table with
  | [] => [(key, a)]
  | (k, b) :: rest =>
    if k.same key then (k, a) :: rest else (k, b) :: insert rest key a

/-- The table that a list of entries fills; indices must be able to be keys. -/
def fill (entries : List (Key × α)) : Except Fault (List (Key × α)) :=
  if entries.all fun (key, _) => Value.allHashable key.index then
    .ok (entries.foldl (fun table (key, a) => insert table key a) [])
  else .error .wrongKind

/-- The ids of a table. -/
def ids (table : KeyTable) : List Value :=
  table.filterMap fun (_, block) =>
    match block with
    | .master => none
    | .subproblem id => some id

/-- The table of entries that all name a block; ids must be able to be keys. -/
def complete (entries : List (Key × Option Block)) : Except Fault KeyTable := do
  let table : KeyTable := entries.filterMap fun (key, block) => block.map (key, ·)
  if table.length < entries.length then throw .noAttribute
  if Value.allHashable (KeyTable.ids table) then return table else throw .wrongKind

end KeyTable

/-- The blocks of the declared variables and constraints of a model. -/
structure Assignment where
  vars : KeyTable
  constraints : KeyTable

/-- The assignment that two lists of entries make. Both fill their tables before it is
    asked whether the entries name blocks. -/
def Assignment.ofEntries? (vars constraints : List (Key × Option Block)) :
    Except Fault Assignment := do
  let vars ← KeyTable.fill vars
  let constraints ← KeyTable.fill constraints
  return ⟨← KeyTable.complete vars, ← KeyTable.complete constraints⟩

/-- The keys that go to the master. -/
def masterSlice (table : KeyTable) : Slice :=
  table.foldl (fun slice (key, block) =>
    match block with
    | .master => slice.insert key
    | .subproblem _ => slice) []

/-- Put a key into the slice of an id. -/
def insertById (slices : List (Value × Slice)) (id : Value) (key : Key) : List (Value × Slice) :=
  match slices with
  | [] => [(id, Slice.insert [] key)]
  | (other, slice) :: rest =>
    if other.same id then (other, slice.insert key) :: rest
    else (other, slice) :: insertById rest id key

/-- The keys that go to each subproblem, by id. -/
def subproblemSlices (table : KeyTable) : List (Value × Slice) :=
  table.foldl (fun slices (key, block) =>
    match block with
    | .master => slices
    | .subproblem id => insertById slices id key) []

/-- The slices of the master and of each subproblem. -/
structure Partition where
  masterVariables : Slice
  subproblemVariables : List (Value × Slice)
  masterConstraints : Slice
  subproblemConstraints : List (Value × Slice)

namespace Partition

/-- The slices of an assignment. -/
def ofAssignment (a : Assignment) : Partition where
  masterVariables := masterSlice a.vars
  subproblemVariables := subproblemSlices a.vars
  masterConstraints := masterSlice a.constraints
  subproblemConstraints := subproblemSlices a.constraints

/-- The slices of an assignment whose ids can be keys. -/
def ofAssignment? (a : Assignment) : Except Fault Partition :=
  if Value.allHashable (KeyTable.ids a.vars ++ KeyTable.ids a.constraints) then .ok (ofAssignment a)
  else .error .wrongKind

/-- The ids with a variable or a constraint, sorted; the spelling of the variables
    wins. -/
def subproblemIds (p : Partition) : List Value :=
  let ids := (p.subproblemVariables ++ p.subproblemConstraints).map (·.1)
  Value.sortIds (ids.foldl (fun seen id => Value.insertNew id seen) [])

/-- The variables of a block. -/
def variablesOf (p : Partition) : Block → Slice
  | .master => p.masterVariables
  | .subproblem id => (Value.lookup? id p.subproblemVariables).getD []

/-- The constraints of a block. -/
def constraintsOf (p : Partition) : Block → Slice
  | .master => p.masterConstraints
  | .subproblem id => (Value.lookup? id p.subproblemConstraints).getD []

/-- The variables and the constraints of a block, which has to be one and whose id has to
    be able to be a key. -/
def slicesOf? (p : Partition) : Option Block → Except Fault (Slice × Slice)
  | none => .error .noAttribute
  | some .master => .ok (p.variablesOf .master, p.constraintsOf .master)
  | some (.subproblem id) =>
    if id.hashable then .ok (p.variablesOf (.subproblem id), p.constraintsOf (.subproblem id))
    else .error .wrongKind

end Partition

end BlockAngular
