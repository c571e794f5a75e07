import BlockAngular.Error
import BlockAngular.Rule.Parser
import BlockAngular.Rule.Printer
import BlockAngular.Text.Blank

/-! # Patterns

The left-hand side of a rule is a component name, alone or with the names of its
index positions in square brackets. A position named `_` is not captured, and no
other name may be captured twice.
-/

namespace BlockAngular.Rule

/-- The name of a position that is not captured. -/
def wildcard : String := "_"

/-- The left-hand side of a rule. -/
structure Pattern where
  name : String
  indices : List String
  deriving DecidableEq

/-- Read a text as an expression after trimming it. A text that holds a zero
    character is refused of itself, and one that is no expression with the error
    of the caller. -/
def readTrimmed (text : String) (unreadable : String → Error) : Except Error (String × Expr) :=
  let trimmed := Text.trimBlanks text.toList
  let shown := String.ofList trimmed
  if trimmed.any (·.toNat == 0) then .error (.fault .badValue)
  else
    match Expr.ofText? trimmed with
    | some e => .ok (shown, e)
    | none => .error (unreadable shown)

namespace Pattern

/-- Read the positions from left to right; `seen` holds those read so far. -/
def readIndices (shown : String) (seen : List String) : List Expr → Except Error (List String)
  | [] => .ok seen
  | .name id :: rest =>
    if id != wildcard && seen.contains id then
      .error (.malformedPattern (.capturedTwice id shown))
    else readIndices shown (seen ++ [id]) rest
  | e :: _ => do
    let text ← e.written.mapError .fault
    throw (.malformedPattern (.noIndexName text shown))

/-- The positions of a subscript. -/
def positions : Expr → List Expr
  | .tuple items => items
  | e => [e]

/-- The pattern that a text stands for. -/
def ofText (text : String) : Except Error Pattern := do
  let (shown, e) ← readTrimmed text fun shown => .malformedPattern (.unreadable shown)
  match e with
  | .name id => return ⟨id, []⟩
  | .subscript (.name id) index => return ⟨id, ← readIndices shown [] (positions index)⟩
  | _ => throw (.malformedPattern (.noPattern shown))

end Pattern

end BlockAngular.Rule
