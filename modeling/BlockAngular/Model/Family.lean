import BlockAngular.Fault
import BlockAngular.Key

/-! # Families

The elements of one component: a single one without an index, or any number with
pairwise different indices, in the order of their declaration. An index may be declared
without an element: the place of the element is kept.
-/

namespace BlockAngular

mutual

/-- The items of a value that stands in an index: a tuple contributes its own. -/
def Value.indexItems : Value → List Value
  | .tuple items => Value.flatIndex items
  | v => [v]

/-- The items of an index, without the nesting of tuples. -/
def Value.flatIndex : List Value → List Value
  | [] => []
  | v :: rest => Value.indexItems v ++ Value.flatIndex rest

end

/-- Elements by index. -/
structure Family (α : Type) where
  indexed : Bool
  elements : List (Value × Option α)

namespace Family

variable {α β : Type}

/-- The family of one element without an index. -/
def scalar (a : α) : Family α :=
  ⟨false, [(.null, some a)]⟩

/-- The family of one element without an index that may be missing. -/
def optional (a : Option α) : Family α :=
  ⟨false, [(.null, a)]⟩

/-- Put an element: an equal index keeps its place and spelling. -/
def insert (f : Family α) (index : Value) (a : α) : Family α :=
  { f with elements := Value.insertEntry index (some a) f.elements }

/-- The length of an index. -/
def arity : Value → Nat
  | .tuple items => items.length
  | _ => 1

/-- An indexed family from rows. All rows have one length, and the last element of
    equal rows counts. -/
def ofRows? (rows : List (List Value × α)) : Except Fault (Family α) :=
  let elements := rows.map fun (row, a) => (Value.ofIndex (Value.flatIndex row), a)
  if !elements.all (fun (index, _) => index.hashable) then .error .wrongKind
  else
    match elements with
    | [] => .ok ⟨true, []⟩
    | (first, _) :: _ =>
      if elements.all fun (index, _) => arity index == arity first then
        .ok (elements.foldl (fun f (index, a) => f.insert index a) ⟨true, []⟩)
      else .error .badValue

/-- The position of an index as it stands. -/
def find? (f : Family α) (index : Value) : Option Nat :=
  f.elements.findIdx? fun (other, _) => other.same index

/-- The position of an index tuple. Without an index there is one position; with
    one, an index that is not there is tried again without nested tuples. -/
def position? (f : Family α) (index : List Value) : Except Fault Nat :=
  if !f.indexed then .ok 0
  else if !Value.allHashable index then .error .wrongKind
  else
    match f.find? (Value.ofIndex index) with
    | some position => .ok position
    | none =>
      match f.find? (Value.ofIndex (Value.flatIndex index)) with
      | some position => .ok position
      | none => .error .noKey

/-- The element at a position. -/
def get? (f : Family α) (position : Nat) : Option α :=
  f.elements[position]?.bind (·.2)

/-- The index at a position; `null` without one. -/
def indexAt (f : Family α) (position : Nat) : Value :=
  (f.elements[position]?.map (·.1)).getD .null

/-- Put an element at a position. -/
def setAt (f : Family α) (position : Nat) (a : α) : Family α :=
  { f with elements := f.elements.modify position fun (index, _) => (index, some a) }

/-- Change the element at a position, if there is one. -/
def update (f : Family α) (position : Nat) (change : α → α) : Family α :=
  { f with elements := f.elements.modify position fun (index, a) => (index, a.map change) }

/-- Change every element. -/
def map (f : Family α) (change : α → β) : Family β :=
  ⟨f.indexed, f.elements.map fun (index, a) => (index, a.map change)⟩

/-- The same indices without their elements. -/
def cleared (f : Family α) : Family β :=
  ⟨f.indexed, f.elements.map fun (index, _) => (index, none)⟩

/-- The elements that are there, each with its index and its position. -/
def present (f : Family α) : List (Value × Nat × α) :=
  f.elements.zipIdx.filterMap fun ((index, a), position) => a.map (index, position, ·)

end Family

end BlockAngular
