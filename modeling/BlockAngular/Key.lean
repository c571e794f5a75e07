import BlockAngular.Value.Text

/-! # Keys

A key names one declared variable or constraint: the name of its component and its
index, a tuple that is empty for a declaration without an index.
-/

namespace BlockAngular

/-- The key of one declared variable or constraint. -/
structure Key where
  name : String
  index : List Value

namespace Key

/-- Whether the key belongs to a declaration without an index. -/
def isScalar (key : Key) : Bool :=
  key.index.isEmpty

/-- The same name and equal indices. -/
def same (a b : Key) : Bool :=
  a.name == b.name && Value.sameItems a.index b.index

/-- The name, and the index in square brackets if there is one. -/
def render (key : Key) : String :=
  if key.isScalar then key.name
  else key.name ++ "[" ++ String.ofList (Value.commaSeparated (Value.texts key.index)) ++ "]"

end Key

/-- An index as components keep it: absent for a declaration without an index, the
    bare item of an index of length one, and a tuple otherwise. -/
def Value.ofIndex : List Value → Value
  | [] => .null
  | [v] => v
  | items => .tuple items

/-- The index tuple of an index as components keep it. -/
def Value.toIndex : Value → List Value
  | .null => []
  | .tuple items => items
  | v => [v]

end BlockAngular
