import BlockAngular.Value.Basic

/-! # Expressions of rules

The tree of the expression language in which rules are written. Rules accept only
a small part of it; the whole language is here because what a rule does not
accept is still read, and shown in the message that refuses it.
-/

namespace BlockAngular.Rule

/-- Operators between two operands. -/
inductive BinaryOp where
  | add | sub | mul | matMul | div | floorDiv | mod | pow
  | bitOr | bitXor | bitAnd | shiftLeft | shiftRight
  deriving DecidableEq

/-- Operators before one operand. -/
inductive UnaryOp where
  | plus | minus | invert | not
  deriving DecidableEq

/-- The two connectives. -/
inductive BoolOp where
  | and | or
  deriving DecidableEq

/-- Comparison operators. -/
inductive CompareOp where
  | eq | ne | lt | le | gt | ge | is | isNot | isIn | notIn
  deriving DecidableEq

/-- The place of a parameter in a parameter list. -/
inductive ParameterKind where
  /-- Given by position only. -/
  | positional
  /-- Given by position or by name. -/
  | plain
  /-- Takes the remaining positions. -/
  | rest
  /-- Given by name only. -/
  | named
  /-- Takes the remaining names. -/
  | namedRest
  deriving DecidableEq

mutual

/-- An expression. -/
inductive Expr where
  /-- A constant; `marked` when its text carries the mark of Unicode text. -/
  | constant (value : Value) (marked : Bool)
  | name (id : String)
  | tuple (items : List Expr)
  | list (items : List Expr)
  | set (items : List Expr)
  /-- Entries without a key are unpacked. -/
  | dict (entries : List (Option Expr × Expr))
  | binary (op : BinaryOp) (left right : Expr)
  | unary (op : UnaryOp) (operand : Expr)
  | boolean (op : BoolOp) (operands : List Expr)
  | compare (first : Expr) (rest : List (CompareOp × Expr))
  | conditional (test body otherwise : Expr)
  | lambda (parameters : List Parameter) (body : Expr)
  /-- Keywords without a name are unpacked. -/
  | call (function : Expr) (arguments : List Expr) (keywords : List (Option String × Expr))
  | attribute (base : Expr) (name : String)
  | subscript (base index : Expr)
  | slice (lower upper step : Option Expr)
  | starred (operand : Expr)
  /-- A name bound inside an expression. -/
  | binding (name : String) (value : Expr)
  | await (operand : Expr)
  | yield (operand : Option Expr)
  | yieldFrom (operand : Expr)
  | generator (element : Expr) (clauses : List Clause)
  | listOf (element : Expr) (clauses : List Clause)
  | setOf (element : Expr) (clauses : List Clause)
  | dictOf (key value : Expr) (clauses : List Clause)
  /-- Text with fields to fill in. -/
  | template (pieces : List Piece)

/-- A clause of a comprehension: targets, what they run over, and conditions. -/
inductive Clause where
  | mk (isAsync : Bool) (target source : Expr) (conditions : List Expr)

/-- A parameter with its default. -/
inductive Parameter where
  | mk (kind : ParameterKind) (name : String) (default : Option Expr)

/-- A piece of a template. -/
inductive Piece where
  | text (content : String)
  /-- A field with a conversion letter and a format that is a template itself. -/
  | field (value : Expr) (conversion : Option Char) (format : Option (List Piece))

end

instance : Inhabited Expr := ⟨.constant .null false⟩

mutual

/-- Whether an expression and all expressions in it have a property. -/
def Expr.all (p : Expr → Bool) (e : Expr) : Bool :=
  p e &&
    match e with
    | .constant _ _ | .name _ => true
    | .tuple items | .list items | .set items => allItems p items
    | .dict entries => allEntries p entries
    | .binary _ left right => left.all p && right.all p
    | .unary _ operand | .attribute operand _ | .starred operand | .binding _ operand
    | .await operand | .yieldFrom operand => operand.all p
    | .boolean _ operands => allItems p operands
    | .compare first rest => first.all p && allCompared p rest
    | .conditional test body otherwise => test.all p && body.all p && otherwise.all p
    | .lambda parameters body => allDefaults p parameters && body.all p
    | .call function arguments keywords =>
      function.all p && allItems p arguments && allKeywords p keywords
    | .subscript base index => base.all p && index.all p
    | .slice lower upper step => allPresent p lower && allPresent p upper && allPresent p step
    | .yield operand => allPresent p operand
    | .generator element clauses | .listOf element clauses | .setOf element clauses =>
      element.all p && allClauses p clauses
    | .dictOf key value clauses => key.all p && value.all p && allClauses p clauses
    | .template pieces => allPieces p pieces

/-- `Expr.all` for an expression that may be absent. -/
def Expr.allPresent (p : Expr → Bool) : Option Expr → Bool
  | none => true
  | some e => e.all p

/-- `Expr.all` for expressions in a row. -/
def Expr.allItems (p : Expr → Bool) : List Expr → Bool
  | [] => true
  | e :: rest => e.all p && allItems p rest

/-- `Expr.all` for the entries of a table. -/
def Expr.allEntries (p : Expr → Bool) : List (Option Expr × Expr) → Bool
  | [] => true
  | (key, value) :: rest => allPresent p key && value.all p && allEntries p rest

/-- `Expr.all` for the further operands of a comparison. -/
def Expr.allCompared (p : Expr → Bool) : List (CompareOp × Expr) → Bool
  | [] => true
  | (_, e) :: rest => e.all p && allCompared p rest

/-- `Expr.all` for keyword arguments. -/
def Expr.allKeywords (p : Expr → Bool) : List (Option String × Expr) → Bool
  | [] => true
  | (_, e) :: rest => e.all p && allKeywords p rest

/-- `Expr.all` for the defaults of parameters. -/
def Expr.allDefaults (p : Expr → Bool) : List Parameter → Bool
  | [] => true
  | .mk _ _ default :: rest => allPresent p default && allDefaults p rest

/-- `Expr.all` for the clauses of a comprehension. -/
def Expr.allClauses (p : Expr → Bool) : List Clause → Bool
  | [] => true
  | .mk _ target source conditions :: rest =>
    target.all p && source.all p && allItems p conditions && allClauses p rest

/-- `Expr.all` for the fields of a template, those of formats included. -/
def Expr.allPieces (p : Expr → Bool) : List Piece → Bool
  | [] => true
  | .text _ :: rest => allPieces p rest
  | .field value _ none :: rest => value.all p && allPieces p rest
  | .field value _ (some format) :: rest =>
    value.all p && allPieces p format && allPieces p rest

end

namespace BinaryOp

/-- How the operator is written. -/
def symbol : BinaryOp → String
  | .add => "+"
  | .sub => "-"
  | .mul => "*"
  | .matMul => "@"
  | .div => "/"
  | .floorDiv => "//"
  | .mod => "%"
  | .pow => "**"
  | .bitOr => "|"
  | .bitXor => "^"
  | .bitAnd => "&"
  | .shiftLeft => "<<"
  | .shiftRight => ">>"

end BinaryOp

/-- How the operator is written. -/
def UnaryOp.symbol : UnaryOp → String
  | .plus => "+"
  | .minus => "-"
  | .invert => "~"
  | .not => "not"

/-- How the connective is written. -/
def BoolOp.symbol : BoolOp → String
  | .and => "and"
  | .or => "or"

/-- How the operator is written. -/
def CompareOp.symbol : CompareOp → String
  | .eq => "=="
  | .ne => "!="
  | .lt => "<"
  | .le => "<="
  | .gt => ">"
  | .ge => ">="
  | .is => "is"
  | .isNot => "is not"
  | .isIn => "in"
  | .notIn => "not in"

end BlockAngular.Rule
