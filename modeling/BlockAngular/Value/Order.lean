import BlockAngular.Fault
import BlockAngular.Value.Run
import BlockAngular.Value.Text

/-! # The order of values

Indices and ids of mixed kinds are sorted by a fixed order: numbers by their
exact value, then texts by code points, then tuples item by item with a prefix
first, then everything else by the name of its kind and its written form. A NaN has no
place among numbers; where there is one, the place of everything hangs on the order in
which values are compared, and that is the order of sorting by runs.
-/

namespace BlockAngular.Value

/-- The class that decides first. -/
def orderClass : Value → Nat
  | .bool _ | .int _ | .float _ | .nan _ => 0
  | .str _ => 1
  | .tuple _ => 2
  | _ => 3

/-- Texts by their code points. -/
def compareTexts (a b : List Char) : Ordering :=
  List.compareLex (fun c d => compare c.toNat d.toNat) a b

/-- Real numbers by their exact value. -/
def compareReals (a b : Value) : Ordering :=
  match a.real?, b.real? with
  | some x, some y => if x.below y then .lt else if y.below x then .gt else .eq
  | _, _ => .eq

mutual

/-- The three-way comparison of values. -/
def order : Value → Value → Ordering
  | .str a, .str b => compareTexts a.toList b.toList
  | .tuple a, .tuple b => orderItems a b
  | a, b =>
    (compare a.orderClass b.orderClass).then <|
      if a.orderClass = 0 then compareReals a b
      else (compareTexts a.kind.toList b.kind.toList).then (compareTexts a.text b.text)

/-- The three-way comparison of sequences, item by item, a prefix first. -/
def orderItems : List Value → List Value → Ordering
  | [], [] => .eq
  | [], _ :: _ => .lt
  | _ :: _, [] => .gt
  | a :: as, b :: bs => (order a b).then (orderItems as bs)

end

mutual

/-- Whether a value takes one rank with another: as in `order`, but for NaNs, which take
    a rank with themselves only. -/
def sameRank : Value → Value → Bool
  | .tuple a, .tuple b => sameRanks a b
  | a, b => order a b == .eq && (a.orderClass != 0 || same a b)

/-- Whether sequences take the same ranks, item by item. -/
def sameRanks : List Value → List Value → Bool
  | [], [] => true
  | a :: as, b :: bs => sameRank a b && sameRanks as bs
  | _, _ => false

end

mutual

/-- Whether a value stands before another one. A NaN stands before and behind no number,
    so that this is no order among values with NaNs. -/
def before : Value → Value → Bool
  | .tuple a, .tuple b => itemsBefore a b
  | a, b => order a b == .lt

/-- Whether a sequence stands before another one: the first items of different ranks
    decide, and a prefix stands first. -/
def itemsBefore : List Value → List Value → Bool
  | _, [] => false
  | [], _ :: _ => true
  | a :: as, b :: bs => if sameRank a b then itemsBefore as bs else before a b

end

mutual

/-- Whether a value is a NaN or a tuple that holds one. -/
def holdsNaN : Value → Bool
  | .tuple items => anyNaN items
  | v => v.real? == some .nan

/-- Whether one of the items holds a NaN. -/
def anyNaN : List Value → Bool
  | [] => false
  | v :: rest => holdsNaN v || anyNaN rest

end

mutual

/-- Whether the rank of a value can be told: that of a value which is no number, text or
    tuple hangs on its written form. -/
def isRankable : Value → Bool
  | .tuple items => allRankable items
  | v => v.orderClass < 3 || v.isWritable

/-- Whether the ranks of all items can be told. -/
def allRankable : List Value → Bool
  | [] => true
  | v :: rest => isRankable v && allRankable rest

end

/-- Sort ids; equal ones keep their order. -/
def sortIds (ids : List Value) : List Value :=
  if anyNaN ids then Run.sort before ids else ids.mergeSort fun a b => (order a b).isLE

/-- Sort things by sequences of theirs, item by item; equal ones keep their order. -/
def sortByItems {α : Type} (items : α → List Value) (things : List α) : List α :=
  if things.any fun a => anyNaN (items a) then
    Run.sort (fun a b => itemsBefore (items a) (items b)) things
  else things.mergeSort fun a b => (orderItems (items a) (items b)).isLE

/-- Sort index tuples item by item; equal ones keep their order. -/
def sortIndices (indices : List (List Value)) : List (List Value) :=
  sortByItems id indices

/-- The items of a value that is a sequence; a table counts as that of its keys. -/
def toItems? : Value → Option (List Value)
  | .tuple items | .list items => some items
  | .str s => some (s.toList.map fun c => .str (String.singleton c))
  | .bytes data => some (data.map fun b => .int b.toNat)
  | .table entries => some (entries.map (·.1))
  | _ => none

/-- Sort values that are sequences, item by item. -/
def sortSequences (values : List Value) : Except Fault (List Value) := do
  let keyed ← values.mapM fun v =>
    match v.toItems? with
    | none => throw .wrongKind
    | some items => if allRankable items then pure (items, v) else throw .badValue
  return (sortByItems (·.1) keyed).map (·.2)

/-- Sort ids whose ranks can be told. -/
def sortIds? (ids : List Value) : Except Fault (List Value) :=
  if allRankable ids then .ok (sortIds ids) else .error .badValue

end BlockAngular.Value
