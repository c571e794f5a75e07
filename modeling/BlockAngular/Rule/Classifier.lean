import BlockAngular.Classify
import BlockAngular.Rule.Destination

/-! # Rules

A rule sends the declarations that match its pattern to its destination. A set of
rules is an annotation function: the rule with the name and the number of indices
of a key decides, and there is at most one.
-/

namespace BlockAngular

/-- A rule. -/
structure Rule where
  name : String
  indices : List String
  destination : Rule.Destination

namespace Rule

/-- The number of index positions. -/
def arity (rule : Rule) : Nat :=
  rule.indices.length

/-- Split a text at the first arrow. -/
def splitArrow? : List Char → Option (List Char × List Char)
  | [] => none
  | [_] => none
  | c :: d :: rest =>
    if c == '=' && d == '>' then some ([], rest)
    else (splitArrow? (d :: rest)).map fun (left, right) => (c :: left, right)

/-- The rule that a text stands for. -/
def ofText (text : String) (provided : Scope) : Except Error Rule :=
  match splitArrow? text.toList with
  | none => .error (.malformedPattern (.noArrow text))
  | some (left, right) => do
    let pattern ← Pattern.ofText (String.ofList left)
    let destination ← Destination.ofText (String.ofList right) pattern.indices provided
    return ⟨pattern.name, pattern.indices, destination⟩

/-- Whether the rule decides about a key. -/
def matchesKey (rule : Rule) (key : Key) : Bool :=
  rule.name == key.name && rule.arity == key.index.length

/-- The captured names with the items of an index. -/
def captures (rule : Rule) (index : List Value) : Scope :=
  (rule.indices.zip index).filter fun entry => entry.1 != wildcard

/-- The block that the rule gives a key that it matches; captured names hide the
    names that the caller provides. -/
def block (rule : Rule) (provided : Scope) (index : List Value) : Except Error Block :=
  match rule.destination with
  | .master => .ok .master
  | .subproblem id => do return .subproblem (← id.evaluate (rule.captures index ++ provided))

end Rule

/-- A set of rules with the names that their expressions may use. -/
structure Classifier where
  rules : List Rule
  provided : Rule.Scope

namespace Classifier

/-- The rules behind others that are there, of which none may match the same keys. -/
def addAll (done : List Rule) : List Rule → Except Error (List Rule)
  | [] => .ok done
  | rule :: rest =>
    if done.any fun other => other.name == rule.name && other.arity == rule.arity then
      .error (.malformedPattern (.duplicate rule.name rule.arity))
    else addAll (done ++ [rule]) rest

/-- The lines that hold rules: not empty, and not comments. -/
def ruleLines (lines : List String) : List String :=
  (lines.map fun line => Text.trimBlanks line.toList).filterMap fun line =>
    if line.isEmpty || line.head? == some '#' then none else some (String.ofList line)

/-- Read one rule after the other. -/
def readAll (provided : Rule.Scope) : List String → Except Error (List Rule)
  | [] => .ok []
  | line :: rest => do
    let rule ← Rule.ofText line provided
    let rules ← readAll provided rest
    return rule :: rules

/-- The annotation function that lines of rules stand for. -/
def ofLines (lines : List String) (provided : Rule.Scope) : Except Error Classifier := do
  let rules ← readAll provided (ruleLines lines)
  if rules.isEmpty then throw (.empty .rules)
  return ⟨← addAll [] rules, provided⟩

/-- The annotation function that a text of rules, one a line, stands for. -/
def ofText (text : String) (provided : Rule.Scope) : Except Error Classifier :=
  ofLines ((Text.lines text.toList).map String.ofList) provided

/-- The number of rules. -/
def size (classifier : Classifier) : Nat :=
  classifier.rules.length

/-- The block of a key; without a rule for it there is none. -/
def block (classifier : Classifier) (key : Key) : Except Error Block :=
  match classifier.rules.find? (·.matchesKey key) with
  | none => .error (.unassigned (.key key) none)
  | some rule => rule.block classifier.provided key.index

/-- The rules as an annotation function. -/
def classify (classifier : Classifier) : Classify :=
  fun key => (classifier.block key).map .block

end Classifier

end BlockAngular
