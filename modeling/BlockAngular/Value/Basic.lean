import BlockAngular.Number.Binary64

/-! # Values

Indices of variables and constraints, ids of subproblems and the data that rules
may refer to are values without a declared type. Equality compares numbers of
every kind exactly, so `1`, `1.0` and `true` are one index and one id; the
spelling that came first is the one that is kept. A NaN is no other number's equal,
but one that is given as an index or an id is the same as itself: such a NaN bears a
mark, and all others differ from everything. A complex number is the same as itself
even where one of its parts is no number.
-/

namespace BlockAngular

/-- An untyped value. -/
inductive Value where
  /-- The absent value. -/
  | null
  /-- The value written `...`. -/
  | dots
  | bool (b : Bool)
  | int (n : Int)
  | float (x : Float)
  /-- A NaN with an identity of its own. -/
  | nan (mark : Nat)
  /-- A complex number by its real and imaginary part. -/
  | complex (re im : Float)
  | str (text : String)
  | bytes (data : List UInt8)
  /-- A sequence that can be an index or an id if its items can. -/
  | tuple (items : List Value)
  | list (items : List Value)
  /-- A table from keys to values, in the order of insertion. -/
  | table (entries : List (Value × Value))
  /-- An object with named attributes. -/
  | record (fields : List (String × Value))

namespace Value

instance : Inhabited Value := ⟨.null⟩

/-- The exact value of a real number; booleans count as `0` and `1`. -/
def real? : Value → Option Exact
  | .bool b => some (.finite (if b then 1 else 0))
  | .int n => some (.finite n)
  | .float x => some (Binary64.exact x)
  | .nan _ => some .nan
  | _ => none

/-- The exact real and imaginary part of a number of any kind. -/
def number? : Value → Option (Exact × Exact)
  | .complex re im => some (Binary64.exact re, Binary64.exact im)
  | v => v.real?.map (·, .finite 0)

/-- Whether both are numbers with the same exact parts. -/
def sameNumber (a b : Value) : Bool :=
  match a.number?, b.number? with
  | some (re, im), some (re', im') => re.same re' && im.same im'
  | _, _ => false

mutual

/-- Equality of values: numbers by their exact value, marked NaNs by their mark, complex
    numbers by their parts, tables as sets of entries, all else by structure. -/
def same : Value → Value → Bool
  | .null, .null => true
  | .dots, .dots => true
  | .nan a, .nan b => a == b
  | .complex a b, .complex c d =>
    Binary64.exact a == Binary64.exact c && Binary64.exact b == Binary64.exact d
  | .str a, .str b => a == b
  | .bytes a, .bytes b => a == b
  | .tuple a, .tuple b => sameItems a b
  | .list a, .list b => sameItems a b
  | .table a, .table b => a.length == b.length && entriesIn a b
  | .record a, .record b => a.length == b.length && fieldsIn a b
  | a, b => sameNumber a b

/-- Equality of sequences, item by item. -/
def sameItems : List Value → List Value → Bool
  | [], [] => true
  | a :: as, b :: bs => same a b && sameItems as bs
  | _, _ => false

/-- Whether every entry stands in the other table. -/
def entriesIn : List (Value × Value) → List (Value × Value) → Bool
  | [], _ => true
  | (key, value) :: rest, other =>
    other.any (fun entry => same key entry.1 && same value entry.2) && entriesIn rest other

/-- Whether every attribute stands in the other record. -/
def fieldsIn : List (String × Value) → List (String × Value) → Bool
  | [], _ => true
  | (name, value) :: rest, other =>
    other.any (fun field => name == field.1 && same value field.2) && fieldsIn rest other

end

mutual

/-- Whether a value can be an index, an id or a key of a table: lists, tables and
    records cannot, nor can tuples that hold one. -/
def hashable : Value → Bool
  | .list _ | .table _ | .record _ => false
  | .tuple items => allHashable items
  | _ => true

/-- Whether all items can be indices or ids. -/
def allHashable : List Value → Bool
  | [] => true
  | v :: rest => hashable v && allHashable rest

end

mutual

/-- A value whose NaNs all bear marks: those without one get this one. -/
def marked (mark : Nat) : Value → Value
  | .float x => if Binary64.isNaN x then .nan mark else .float x
  | .tuple items => .tuple (allMarked mark items)
  | v => v

/-- Items whose NaNs all bear marks. -/
def allMarked (mark : Nat) : List Value → List Value
  | [] => []
  | v :: rest => marked mark v :: allMarked mark rest

end

/-- Whether a value counts as given: absent ones, zeros and empty sequences do not. -/
def isGiven : Value → Bool
  | .null => false
  | .bool b => b
  | .int n => n != 0
  | .float x => !Binary64.isZero x
  | .complex re im => !(Binary64.isZero re && Binary64.isZero im)
  | .str s => !s.isEmpty
  | .bytes data => !data.isEmpty
  | .tuple items | .list items => !items.isEmpty
  | .table entries => !entries.isEmpty
  | .dots | .nan _ | .record _ => true

/-- The name of the kind of a value. -/
def kind : Value → String
  | .null => "NoneType"
  | .dots => "ellipsis"
  | .bool _ => "bool"
  | .int _ => "int"
  | .float _ | .nan _ => "float"
  | .complex _ _ => "complex"
  | .str _ => "str"
  | .bytes _ => "bytes"
  | .tuple _ => "tuple"
  | .list _ => "list"
  | .table _ => "dict"
  | .record _ => "SimpleNamespace"

/-- Look a key up in entries in order of insertion. -/
def lookup? {α : Type} (key : Value) : List (Value × α) → Option α
  | [] => none
  | (k, a) :: rest => if same k key then some a else lookup? key rest

/-- Put an entry: an equal key keeps its place and its spelling and takes the new
    content. -/
def insertEntry {α : Type} (key : Value) (content : α) : List (Value × α) → List (Value × α)
  | [] => [(key, content)]
  | (k, a) :: rest =>
    if same k key then (k, content) :: rest else (k, a) :: insertEntry key content rest

/-- Whether the list holds an equal value. -/
def memberOf (v : Value) (vs : List Value) : Bool :=
  vs.any fun w => same w v

/-- Add a value at the end unless an equal one is there. -/
def insertNew (v : Value) (vs : List Value) : List Value :=
  if memberOf v vs then vs else vs ++ [v]

end Value

end BlockAngular
