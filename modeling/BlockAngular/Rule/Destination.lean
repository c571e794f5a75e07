import BlockAngular.Rule.Evaluate
import BlockAngular.Rule.Pattern

/-! # Assignments

The right-hand side of a rule is `master()` or `subproblem(id)`, the id being an
expression over the captured names and the names that the caller provides. It is
checked when the rule is read, so that evaluating it cannot meet an unknown name
or an expression without a value.
-/

namespace BlockAngular.Rule

/-- Where a rule sends what it matches. -/
inductive Destination where
  | master
  | subproblem (id : Expr)

namespace Destination

/-- The text of the id of a subproblem. -/
def source? : Destination → Option String
  | .master => none
  | .subproblem id => some (String.ofList id.text)

end Destination

/-- Whether rules accept an attribute of this name. -/
def isPrivate (name : String) : Bool :=
  name.toList.head? == some '_'

/-- Refuse an expression of a kind that rules do not accept. -/
def refuse (shown : String) (e : Expr) : Except Error Unit := do
  let text ← e.written.mapError .fault
  throw (.malformedAssignment (.unsupported text shown))

mutual

/-- Accept only names that are known, constants, tuples, subscripts, public attributes
    and arithmetic. `shown` is the whole text for the message. -/
def Expr.check (known : String → Bool) (shown : String) : Expr → Except Error Unit
  | .constant _ _ => .ok ()
  | .name id =>
    if known id then .ok () else .error (.malformedAssignment (.unknownName id shown))
  | .tuple items => checkAll known shown items
  | .subscript base index => do
    base.check known shown
    index.check known shown
  | .attribute base part =>
    if isPrivate part then .error (.malformedAssignment (.privateAttribute part shown))
    else base.check known shown
  | .binary op left right =>
    if op.apply?.isSome then do
      left.check known shown
      right.check known shown
    else refuse shown (.binary op left right)
  | .unary op operand =>
    if op.apply?.isSome then operand.check known shown else refuse shown (.unary op operand)
  | e => refuse shown e

/-- Accept expressions from left to right. -/
def Expr.checkAll (known : String → Bool) (shown : String) : List Expr → Except Error Unit
  | [] => .ok ()
  | e :: rest => do
    e.check known shown
    checkAll known shown rest

end

namespace Destination

/-- The destination that a text stands for, over the captured names and the names
    that the caller provides; the id must have a text of its own. -/
def ofText (text : String) (captures : List String) (provided : Scope) :
    Except Error Destination := do
  let (shown, e) ← readTrimmed text fun shown => .malformedAssignment (.unreadable shown)
  match e with
  | .call (.name function) arguments keywords =>
    if !keywords.isEmpty then throw (.malformedAssignment (.hasKeywords shown))
    else if function == "master" then
      if arguments.isEmpty then return .master else throw (.arity (.master arguments.length))
    else if function == "subproblem" then
      match arguments with
      | [id] =>
        let known (name : String) :=
          (name != wildcard && captures.contains name) || provided.has name
        id.check known shown
        let _ ← id.written.mapError .fault
        return .subproblem id
      | _ => throw (.arity (.subproblem arguments.length))
    else throw (.malformedAssignment (.unknownFunction function))
  | _ => throw (.malformedAssignment (.noCall shown))

end Destination

end BlockAngular.Rule
