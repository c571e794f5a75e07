import BlockAngular.Rule.Escape
import BlockAngular.Rule.Expr

/-! # Reading expressions

Expressions are read from tokens by recursive descent, one function for each level
of the grammar. Every function takes the tokens that are left and gives the
expression at their start with the tokens behind it. The first argument bounds
the depth of the recursion; `Expr.ofText?` starts with more than any text of that
length can need.
-/

namespace BlockAngular.Rule.Parser

/-- Drop a symbol that must come next. -/
def dropSymbol? (text : String) : List Token → Option (List Token)
  | .symbol s :: rest => if s == text then some rest else none
  | _ => none

/-- Drop a keyword that must come next. -/
def dropKeyword? (word : String) : List Token → Option (List Token)
  | .keyword w :: rest => if w == word then some rest else none
  | _ => none

/-- Whether a symbol comes next. -/
def atSymbol (text : String) (tokens : List Token) : Bool :=
  (dropSymbol? text tokens).isSome

/-- Whether a keyword comes next. -/
def atKeyword (word : String) (tokens : List Token) : Bool :=
  (dropKeyword? word tokens).isSome

/-- Whether a clause of a comprehension comes next. -/
def atClause (tokens : List Token) : Bool :=
  atKeyword "for" tokens || atKeyword "async" tokens

/-- The number of levels of operators that join two operands to the left. -/
def binaryLevels : Nat := 6

/-- The operator that a symbol stands for on a level, the loosest level first. -/
def binaryOp? (level : Nat) (symbol : String) : Option BinaryOp :=
  match level, symbol with
  | 0, "|" => some .bitOr
  | 1, "^" => some .bitXor
  | 2, "&" => some .bitAnd
  | 3, "<<" => some .shiftLeft
  | 3, ">>" => some .shiftRight
  | 4, "+" => some .add
  | 4, "-" => some .sub
  | 5, "*" => some .mul
  | 5, "/" => some .div
  | 5, "//" => some .floorDiv
  | 5, "%" => some .mod
  | 5, "@" => some .matMul
  | _, _ => none

/-- The binary operator of a level at the start of the tokens. -/
def takeBinary? (level : Nat) : List Token → Option (BinaryOp × List Token)
  | .symbol s :: rest => (binaryOp? level s).map (·, rest)
  | _ => none

/-- The operator before a factor at the start of the tokens. -/
def takeSign? : List Token → Option (UnaryOp × List Token)
  | .symbol s :: rest =>
    if s == "+" then some (.plus, rest)
    else if s == "-" then some (.minus, rest)
    else if s == "~" then some (.invert, rest)
    else none
  | _ => none

/-- The comparison operator at the start of the tokens. -/
def takeComparison? : List Token → Option (CompareOp × List Token)
  | .symbol s :: rest =>
    match s with
    | "==" => some (.eq, rest)
    | "!=" => some (.ne, rest)
    | "<" => some (.lt, rest)
    | "<=" => some (.le, rest)
    | ">" => some (.gt, rest)
    | ">=" => some (.ge, rest)
    | _ => none
  | .keyword "in" :: rest => some (.isIn, rest)
  | .keyword "not" :: .keyword "in" :: rest => some (.notIn, rest)
  | .keyword "is" :: .keyword "not" :: rest => some (.isNot, rest)
  | .keyword "is" :: rest => some (.is, rest)
  | _ => none

mutual

/-- Whether a comprehension can bind an expression as its target. -/
def isTarget : Expr → Bool
  | .name _ | .attribute _ _ | .subscript _ _ => true
  | .tuple items | .list items => areTargets items
  | _ => false

/-- Whether a comprehension can bind all items of a sequence, some of them starred. -/
def areTargets : List Expr → Bool
  | [] => true
  | .starred e :: rest => isTarget e && areTargets rest
  | e :: rest => isTarget e && areTargets rest

end

/-- Whether an expression is starred. -/
def isStarred : Expr → Bool
  | .starred _ => true
  | _ => false

/-- How far an argument list has come: at its start, then positions, then names, then
    unpacked tables. -/
inductive ArgumentStage where
  | first | positions | names | tables
  deriving DecidableEq

/-- How far a parameter list has come. -/
structure ParameterStage where
  /-- Parameters so far, in reverse. -/
  done : List Parameter
  /-- Whether a default has been given, so that the next parameter needs one. -/
  needsDefault : Bool
  /-- Whether the mark behind the parameters given by position only has come. -/
  slashed : Bool
  /-- Whether what follows is given by name only. -/
  starred : Bool
  /-- Whether a bare star still waits for a parameter. -/
  waiting : Bool

/-- Turn the parameters so far into ones given by position only. -/
def positionalOnly (ps : List Parameter) : List Parameter :=
  ps.map fun | .mk _ name default => .mk .positional name default

/-- Join texts that follow one another and drop empty ones. -/
def mergeTexts : List Piece → List Piece
  | [] => []
  | .text s :: rest =>
    match mergeTexts rest with
    | .text t :: more => .text (s ++ t) :: more
    | more => if s.isEmpty then more else .text s :: more
  | piece :: rest => piece :: mergeTexts rest

/-- Where the literal text of a template stops. -/
inductive TextStop where
  /-- At a doubled brace, behind which the text goes on. -/
  | doubled
  /-- At the brace that opens a field. -/
  | opening
  /-- At the end, or before the brace that closes a format. -/
  | ending

/-- Where literal text stands with its escapes. -/
inductive EscapePoint where
  /-- In no escape. -/
  | outside
  /-- Behind a backslash. -/
  | backslash
  /-- Before the name of a character. -/
  | beforeName
  /-- In the name of a character. -/
  | inName

/-- Where literal text stands after one more character. `raw` says that backslashes stand
    for themselves. -/
def EscapePoint.next (raw : Bool) (point : EscapePoint) (c : Char) : EscapePoint :=
  match point with
  | .outside => if !raw && c == '\\' then .backslash else .outside
  | .backslash => if c == 'N' then .beforeName else .outside
  | .beforeName => if c == '\x7b' then .inName else .outside
  | .inName => if c == '\x7d' then .outside else .inName

/-- Whether a brace at this point can end the literal text; one around the name of a
    character cannot. -/
def EscapePoint.endsAtBrace : EscapePoint → Bool
  | .outside | .backslash => true
  | .beforeName | .inName => false

/-- The literal text of a template up to a brace. Outside of formats a doubled brace
    stands for itself and a lone closing one is not allowed. -/
def literalRun (raw nested : Bool) (point : EscapePoint) :
    List Char → Option (List Char × TextStop × List Char)
  | [] => some ([], .ending, [])
  | c :: rest =>
    if point.endsAtBrace && (c == '\x7b' || c == '\x7d') then
      if !nested && rest.head? == some c then some ([c], .doubled, rest.drop 1)
      else if c == '\x7b' then some ([], .opening, rest)
      else if nested then some ([], .ending, c :: rest)
      else none
    else
      (literalRun raw nested (point.next raw c) rest).map fun (body, after) => (c :: body, after)

/-- The bracket that a closing one belongs to. -/
def openingOf (c : Char) : Char :=
  if c == ')' then '(' else if c == ']' then '[' else '\x7b'

/-- The source of a field up to the character that ends it. `quote` is the quote of
    an open constant and whether it is tripled, `stack` holds the open brackets,
    and the first `skip` characters are taken as they are. -/
def fieldSource (quote : Option (Char × Bool)) (stack : List Char) (skip : Nat) :
    List Char → Option (List Char × List Char)
  | [] => none
  | c :: rest =>
    let go (quote : Option (Char × Bool)) (stack : List Char) (skip : Nat) :=
      (fieldSource quote stack skip rest).map fun (source, after) => (c :: source, after)
    match skip with
    | n + 1 => go quote stack n
    | 0 =>
      if c == '\\' then none
      else
        match quote with
        | some (q, triple) =>
          if c == q then
            if triple then
              if Token.startsWith rest [q, q] then go none stack 2 else go quote stack 0
            else go none stack 0
          else go quote stack 0
        | none =>
          if c == '\'' || c == '"' then
            if Token.startsWith rest [c, c] then go (some (c, true)) stack 2
            else go (some (c, false)) stack 0
          else if c == '(' || c == '[' || c == '\x7b' then go none (c :: stack) 0
          else if c == '#' then none
          else if stack.isEmpty && (c == '!' || c == '=' || c == '<' || c == '>') &&
              rest.head? == some '=' then go none stack 1
          else if stack.isEmpty && (c == '!' || c == ':' || c == '\x7d' || c == '=') then
            some ([], c :: rest)
          else if c == ')' || c == ']' || c == '\x7d' then
            match stack with
            | top :: below => if top == openingOf c then go none below 0 else none
            | [] => none
          else go none stack 0

/-- Blanks inside of a field. -/
def isFieldBlank (c : Char) : Bool :=
  c == ' ' || c == '\t' || c == '\n' || c == '\r' || c == '\x0b' || c == '\x0c'

/-- The constants at the start of the tokens. -/
def takeLiterals : List Token → List Literal × List Token
  | .literal content :: rest =>
    let (more, after) := takeLiterals rest
    (content :: more, after)
  | tokens => ([], tokens)

/-- Constants that follow one another, none of them a template, as one constant. -/
def joinConstants? (contents : List Literal) : Option Expr := do
  let first ← contents.head?
  if first.isBytes then do
    let parts ← contents.mapM Escape.bytes?
    some (.constant (.bytes parts.flatten) false)
  else do
    let parts ← contents.mapM fun content => Escape.part? content.isRaw content.body
    some (.constant (.str (String.ofList parts.flatten)) first.isMarked)

/-- Whether the tokens start by binding a name, which a key of a table may not. -/
def bindsAtStart : List Token → Bool
  | .name _ :: .symbol ":=" :: _ => true
  | _ => false

mutual

/-- An expression: a conditional, an anonymous function, or a disjunction. -/
def expression : Nat → List Token → Option (Expr × List Token)
  | 0, _ => none
  | fuel + 1, tokens =>
    match dropKeyword? "lambda" tokens with
    | some rest => do
      let (parameters, rest) ← parameterList fuel ⟨[], false, false, false, false⟩ rest
      let (body, rest) ← expression fuel rest
      some (.lambda parameters body, rest)
    | none => do
      let (body, rest) ← disjunction fuel tokens
      match dropKeyword? "if" rest with
      | none => some (body, rest)
      | some rest => do
        let (test, rest) ← disjunction fuel rest
        let rest ← dropKeyword? "else" rest
        let (otherwise, rest) ← expression fuel rest
        some (.conditional test body otherwise, rest)

/-- Conjunctions joined by `or`. -/
def disjunction : Nat → List Token → Option (Expr × List Token)
  | 0, _ => none
  | fuel + 1, tokens => do
    let (first, rest) ← conjunction fuel tokens
    let (more, rest) ← disjunctionTail fuel rest
    some (if more.isEmpty then first else .boolean .or (first :: more), rest)

/-- Further conjunctions behind `or`. -/
def disjunctionTail : Nat → List Token → Option (List Expr × List Token)
  | 0, _ => none
  | fuel + 1, tokens =>
    match dropKeyword? "or" tokens with
    | none => some ([], tokens)
    | some rest => do
      let (e, rest) ← conjunction fuel rest
      let (more, rest) ← disjunctionTail fuel rest
      some (e :: more, rest)

/-- Inversions joined by `and`. -/
def conjunction : Nat → List Token → Option (Expr × List Token)
  | 0, _ => none
  | fuel + 1, tokens => do
    let (first, rest) ← inversion fuel tokens
    let (more, rest) ← conjunctionTail fuel rest
    some (if more.isEmpty then first else .boolean .and (first :: more), rest)

/-- Further inversions behind `and`. -/
def conjunctionTail : Nat → List Token → Option (List Expr × List Token)
  | 0, _ => none
  | fuel + 1, tokens =>
    match dropKeyword? "and" tokens with
    | none => some ([], tokens)
    | some rest => do
      let (e, rest) ← inversion fuel rest
      let (more, rest) ← conjunctionTail fuel rest
      some (e :: more, rest)

/-- A comparison with any number of `not` before it. -/
def inversion : Nat → List Token → Option (Expr × List Token)
  | 0, _ => none
  | fuel + 1, tokens =>
    match dropKeyword? "not" tokens with
    | some rest => do
      let (e, rest) ← inversion fuel rest
      some (.unary .not e, rest)
    | none => do
      let (first, rest) ← binary fuel 0 tokens
      let (more, rest) ← comparisonTail fuel rest
      some (if more.isEmpty then first else .compare first more, rest)

/-- Further operands of a comparison. -/
def comparisonTail : Nat → List Token → Option (List (CompareOp × Expr) × List Token)
  | 0, _ => none
  | fuel + 1, tokens =>
    match takeComparison? tokens with
    | none => some ([], tokens)
    | some (op, rest) => do
      let (e, rest) ← binary fuel 0 rest
      let (more, rest) ← comparisonTail fuel rest
      some ((op, e) :: more, rest)

/-- Operands joined by the operators of a level and of the tighter ones. -/
def binary : Nat → Nat → List Token → Option (Expr × List Token)
  | 0, _, _ => none
  | fuel + 1, level, tokens =>
    if binaryLevels ≤ level then factor fuel tokens
    else do
      let (left, rest) ← binary fuel (level + 1) tokens
      binaryTail fuel level left rest

/-- Further operands on a level, joined to the left. -/
def binaryTail : Nat → Nat → Expr → List Token → Option (Expr × List Token)
  | 0, _, _, _ => none
  | fuel + 1, level, left, tokens =>
    match takeBinary? level tokens with
    | none => some (left, tokens)
    | some (op, rest) => do
      let (right, rest) ← binary fuel (level + 1) rest
      binaryTail fuel level (.binary op left right) rest

/-- A power with any number of signs before it. -/
def factor : Nat → List Token → Option (Expr × List Token)
  | 0, _ => none
  | fuel + 1, tokens =>
    match takeSign? tokens with
    | some (op, rest) => do
      let (e, rest) ← factor fuel rest
      some (.unary op e, rest)
    | none => power fuel tokens

/-- An operand, and an exponent that is a factor again. -/
def power : Nat → List Token → Option (Expr × List Token)
  | 0, _ => none
  | fuel + 1, tokens => do
    let (base, rest) ←
      match dropKeyword? "await" tokens with
      | some rest => (primary fuel rest).map fun (e, rest) => (Expr.await e, rest)
      | none => primary fuel tokens
    match dropSymbol? "**" rest with
    | none => some (base, rest)
    | some rest => do
      let (exponent, rest) ← factor fuel rest
      some (.binary .pow base exponent, rest)

/-- An atom with attributes, calls and subscripts behind it. -/
def primary : Nat → List Token → Option (Expr × List Token)
  | 0, _ => none
  | fuel + 1, tokens => do
    let (e, rest) ← atom fuel tokens
    trailers fuel e rest

/-- Attributes, calls and subscripts behind an expression. -/
def trailers : Nat → Expr → List Token → Option (Expr × List Token)
  | 0, _, _ => none
  | fuel + 1, e, tokens =>
    match tokens with
    | .symbol "." :: .name id :: rest => trailers fuel (.attribute e id) rest
    | .symbol "." :: _ => none
    | .symbol "(" :: rest => do
      let ((arguments, keywords), rest) ← argumentList fuel .first rest
      trailers fuel (.call e arguments keywords) rest
    | .symbol "[" :: rest => do
      let (index, rest) ← subscripts fuel rest
      let rest ← dropSymbol? "]" rest
      trailers fuel (.subscript e index) rest
    | _ => some (e, tokens)

/-- Arguments separated by commas, up to the closing bracket. Positions come before
    names, and starred arguments before unpacked tables. A single argument may be a
    comprehension without brackets of its own. -/
def argumentList : Nat → ArgumentStage → List Token →
    Option ((List Expr × List (Option String × Expr)) × List Token)
  | 0, _, _ => none
  | fuel + 1, stage, tokens =>
    match dropSymbol? ")" tokens with
    | some rest => some (([], []), rest)
    | none =>
      match tokens with
      | .symbol "*" :: rest =>
        if stage = .tables then none
        else do
          let (e, rest) ← expression fuel rest
          let ((arguments, keywords), rest) ←
            argumentsAfter fuel (if stage = .names then .names else .positions) rest
          some ((.starred e :: arguments, keywords), rest)
      | .symbol "**" :: rest => do
        let (e, rest) ← expression fuel rest
        let ((arguments, keywords), rest) ← argumentsAfter fuel .tables rest
        some ((arguments, (none, e) :: keywords), rest)
      | .name id :: .symbol "=" :: rest => do
        let (e, rest) ← expression fuel rest
        let next := if stage = .tables then .tables else .names
        let ((arguments, keywords), rest) ← argumentsAfter fuel next rest
        some ((arguments, (some id, e) :: keywords), rest)
      | _ =>
        if stage = .names ∨ stage = .tables then none
        else do
          let (e, rest) ← named fuel tokens
          if stage = .first && atClause rest then
            let (clauses, rest) ← clauseList fuel rest
            let rest ← dropSymbol? ")" rest
            some (([.generator e clauses], []), rest)
          else
            let ((arguments, keywords), rest) ← argumentsAfter fuel .positions rest
            some ((e :: arguments, keywords), rest)

/-- The comma before further arguments, or the closing bracket. -/
def argumentsAfter : Nat → ArgumentStage → List Token →
    Option ((List Expr × List (Option String × Expr)) × List Token)
  | 0, _, _ => none
  | fuel + 1, stage, tokens =>
    match dropSymbol? ")" tokens with
    | some rest => some (([], []), rest)
    | none => do
      let rest ← dropSymbol? "," tokens
      argumentList fuel stage rest

/-- The index in a subscript: one item, or a tuple of items separated by commas. -/
def subscripts : Nat → List Token → Option (Expr × List Token)
  | 0, _ => none
  | fuel + 1, tokens => do
    let (first, rest) ← subscriptItem fuel tokens
    if atSymbol "," rest then
      let (more, rest) ← subscriptTail fuel rest
      some (.tuple (first :: more), rest)
    else if isStarred first then some (.tuple [first], rest)
    else some (first, rest)

/-- Further items of a subscript; a comma may stand at the end. -/
def subscriptTail : Nat → List Token → Option (List Expr × List Token)
  | 0, _ => none
  | fuel + 1, tokens =>
    match dropSymbol? "," tokens with
    | none => some ([], tokens)
    | some rest =>
      if atSymbol "]" rest then some ([], rest)
      else do
        let (e, rest) ← subscriptItem fuel rest
        let (more, rest) ← subscriptTail fuel rest
        some (e :: more, rest)

/-- One item of a subscript: a starred expression, a slice or an expression. -/
def subscriptItem : Nat → List Token → Option (Expr × List Token)
  | 0, _ => none
  | fuel + 1, tokens =>
    match tokens with
    | .symbol "*" :: rest => do
      let (e, rest) ← expression fuel rest
      some (.starred e, rest)
    | .symbol ":" :: rest => sliceRest fuel none rest
    | .name _ :: .symbol ":=" :: _ => named fuel tokens
    | _ => do
      let (e, rest) ← expression fuel tokens
      match rest with
      | .symbol ":" :: rest => sliceRest fuel (some e) rest
      | .symbol ":=" :: _ => none
      | _ => some (e, rest)

/-- The rest of a slice behind its first colon. -/
def sliceRest : Nat → Option Expr → List Token → Option (Expr × List Token)
  | 0, _, _ => none
  | fuel + 1, lower, tokens => do
    let (upper, rest) ← slicePart fuel tokens
    match dropSymbol? ":" rest with
    | none => some (.slice lower upper none, rest)
    | some rest => do
      let (step, rest) ← slicePart fuel rest
      some (.slice lower upper step, rest)

/-- A part of a slice, absent before a colon, a comma or the closing bracket. -/
def slicePart : Nat → List Token → Option (Option Expr × List Token)
  | 0, _ => none
  | fuel + 1, tokens =>
    if atSymbol ":" tokens || atSymbol "," tokens || atSymbol "]" tokens then some (none, tokens)
    else do
      let (e, rest) ← expression fuel tokens
      some (some e, rest)

/-- An expression that may bind a name to its value. -/
def named : Nat → List Token → Option (Expr × List Token)
  | 0, _ => none
  | fuel + 1, tokens =>
    match tokens with
    | .name id :: .symbol ":=" :: rest => do
      let (e, rest) ← expression fuel rest
      some (.binding id e, rest)
    | _ => do
      let (e, rest) ← expression fuel tokens
      if atSymbol ":=" rest then none else some (e, rest)

/-- An item of a sequence in brackets, starred or not. -/
def starNamed : Nat → List Token → Option (Expr × List Token)
  | 0, _ => none
  | fuel + 1, tokens =>
    match dropSymbol? "*" tokens with
    | some rest => do
      let (e, rest) ← binary fuel 0 rest
      some (.starred e, rest)
    | none => named fuel tokens

/-- Further items of a sequence in brackets, up to the closing one, which is
    dropped; a comma may stand at the end. -/
def itemsAfter : Nat → String → List Token → Option (List Expr × List Token)
  | 0, _, _ => none
  | fuel + 1, closing, tokens =>
    match dropSymbol? closing tokens with
    | some rest => some ([], rest)
    | none => do
      let rest ← dropSymbol? "," tokens
      match dropSymbol? closing rest with
      | some rest => some ([], rest)
      | none => do
        let (e, rest) ← starNamed fuel rest
        let (more, rest) ← itemsAfter fuel closing rest
        some (e :: more, rest)

/-- Items without brackets: one item, or a tuple if a comma follows. -/
def starExpressions : Nat → List Token → Option (Expr × List Token)
  | 0, _ => none
  | fuel + 1, tokens => do
    let (first, rest) ← starExpression fuel tokens
    if atSymbol "," rest then
      let (more, rest) ← starExpressionTail fuel rest
      some (.tuple (first :: more), rest)
    else some (first, rest)

/-- Further items without brackets; a comma may stand at the end. -/
def starExpressionTail : Nat → List Token → Option (List Expr × List Token)
  | 0, _ => none
  | fuel + 1, tokens =>
    match dropSymbol? "," tokens with
    | none => some ([], tokens)
    | some rest =>
      match starExpression fuel rest with
      | none => some ([], rest)
      | some (e, rest) => do
        let (more, rest) ← starExpressionTail fuel rest
        some (e :: more, rest)

/-- An item without brackets, starred or not. -/
def starExpression : Nat → List Token → Option (Expr × List Token)
  | 0, _ => none
  | fuel + 1, tokens =>
    match dropSymbol? "*" tokens with
    | some rest => do
      let (e, rest) ← binary fuel 0 rest
      some (.starred e, rest)
    | none => expression fuel tokens

/-- What follows `yield`. -/
def yieldRest : Nat → List Token → Option (Expr × List Token)
  | 0, _ => none
  | fuel + 1, tokens =>
    match dropKeyword? "from" tokens with
    | some rest => do
      let (e, rest) ← expression fuel rest
      some (.yieldFrom e, rest)
    | none =>
      if atSymbol ")" tokens then some (.yield none, tokens)
      else do
        let (e, rest) ← starExpressions fuel tokens
        some (.yield (some e), rest)

/-- A name, a constant, or anything in brackets. -/
def atom : Nat → List Token → Option (Expr × List Token)
  | 0, _ => none
  | fuel + 1, tokens =>
    match tokens with
    | .name id :: rest => some (.name id, rest)
    | .number value :: rest => some (.constant value false, rest)
    | .keyword "True" :: rest => some (.constant (.bool true) false, rest)
    | .keyword "False" :: rest => some (.constant (.bool false) false, rest)
    | .keyword "None" :: rest => some (.constant .null false, rest)
    | .symbol "..." :: rest => some (.constant .dots false, rest)
    | .literal _ :: _ => do
      let (contents, rest) := takeLiterals tokens
      let e ← constants fuel contents
      some (e, rest)
    | .symbol "(" :: rest => round fuel rest
    | .symbol "[" :: rest => square fuel rest
    | .symbol "\x7b" :: rest => braces fuel rest
    | _ => none

/-- What follows an opening round bracket: a tuple, a comprehension, or an
    expression on its own. -/
def round : Nat → List Token → Option (Expr × List Token)
  | 0, _ => none
  | fuel + 1, tokens =>
    match dropSymbol? ")" tokens with
    | some rest => some (.tuple [], rest)
    | none =>
      match dropKeyword? "yield" tokens with
      | some rest => do
        let (e, rest) ← yieldRest fuel rest
        let rest ← dropSymbol? ")" rest
        some (e, rest)
      | none => do
        let (first, rest) ← starNamed fuel tokens
        if atSymbol "," rest then
          let (more, rest) ← itemsAfter fuel ")" rest
          some (.tuple (first :: more), rest)
        else if isStarred first then none
        else if atClause rest then do
          let (clauses, rest) ← clauseList fuel rest
          let rest ← dropSymbol? ")" rest
          some (.generator first clauses, rest)
        else do
          let rest ← dropSymbol? ")" rest
          some (first, rest)

/-- What follows an opening square bracket. -/
def square : Nat → List Token → Option (Expr × List Token)
  | 0, _ => none
  | fuel + 1, tokens =>
    match dropSymbol? "]" tokens with
    | some rest => some (.list [], rest)
    | none => do
      let (first, rest) ← starNamed fuel tokens
      if atClause rest then
        if isStarred first then none
        else do
          let (clauses, rest) ← clauseList fuel rest
          let rest ← dropSymbol? "]" rest
          some (.listOf first clauses, rest)
      else do
        let (more, rest) ← itemsAfter fuel "]" rest
        some (.list (first :: more), rest)

/-- What follows an opening brace: a table or a set. -/
def braces : Nat → List Token → Option (Expr × List Token)
  | 0, _ => none
  | fuel + 1, tokens =>
    match dropSymbol? "\x7d" tokens with
    | some rest => some (.dict [], rest)
    | none =>
      if atSymbol "**" tokens then do
        let (entries, rest) ← entryList fuel tokens
        some (.dict entries, rest)
      else do
        let (first, rest) ← starNamed fuel tokens
        match dropSymbol? ":" rest with
        | some rest =>
          match first with
          | .starred _ => none
          | _ =>
            if bindsAtStart tokens then none
            else do
              let (value, rest) ← expression fuel rest
              if atClause rest then
                let (clauses, rest) ← clauseList fuel rest
                let rest ← dropSymbol? "\x7d" rest
                some (.dictOf first value clauses, rest)
              else do
                let (more, rest) ← entriesAfter fuel rest
                some (.dict ((some first, value) :: more), rest)
        | none =>
          if atClause rest then
            if isStarred first then none
            else do
              let (clauses, rest) ← clauseList fuel rest
              let rest ← dropSymbol? "\x7d" rest
              some (.setOf first clauses, rest)
          else do
            let (more, rest) ← itemsAfter fuel "\x7d" rest
            some (.set (first :: more), rest)

/-- Entries of a table up to the closing brace, which is dropped. -/
def entryList : Nat → List Token → Option (List (Option Expr × Expr) × List Token)
  | 0, _ => none
  | fuel + 1, tokens =>
    match dropSymbol? "**" tokens with
    | some rest => do
      let (value, rest) ← binary fuel 0 rest
      let (more, rest) ← entriesAfter fuel rest
      some ((none, value) :: more, rest)
    | none => do
      let (key, rest) ← expression fuel tokens
      let rest ← dropSymbol? ":" rest
      let (value, rest) ← expression fuel rest
      let (more, rest) ← entriesAfter fuel rest
      some ((some key, value) :: more, rest)

/-- Further entries of a table; a comma may stand at the end. -/
def entriesAfter : Nat → List Token → Option (List (Option Expr × Expr) × List Token)
  | 0, _ => none
  | fuel + 1, tokens =>
    match dropSymbol? "\x7d" tokens with
    | some rest => some ([], rest)
    | none => do
      let rest ← dropSymbol? "," tokens
      match dropSymbol? "\x7d" rest with
      | some rest => some ([], rest)
      | none => entryList fuel rest

/-- The clauses of a comprehension, one at least. -/
def clauseList : Nat → List Token → Option (List Clause × List Token)
  | 0, _ => none
  | fuel + 1, tokens => do
    let (isAsync, rest) := match dropKeyword? "async" tokens with
      | some rest => (true, rest)
      | none => (false, tokens)
    let rest ← dropKeyword? "for" rest
    let (target, rest) ← targets fuel rest
    let rest ← dropKeyword? "in" rest
    let (source, rest) ← disjunction fuel rest
    let (conditions, rest) ← conditionList fuel rest
    let clause := Clause.mk isAsync target source conditions
    if atClause rest then
      let (more, rest) ← clauseList fuel rest
      some (clause :: more, rest)
    else some ([clause], rest)

/-- The conditions of a clause. -/
def conditionList : Nat → List Token → Option (List Expr × List Token)
  | 0, _ => none
  | fuel + 1, tokens =>
    match dropKeyword? "if" tokens with
    | none => some ([], tokens)
    | some rest => do
      let (e, rest) ← disjunction fuel rest
      let (more, rest) ← conditionList fuel rest
      some (e :: more, rest)

/-- The target of a clause: one target, or a tuple of targets. -/
def targets : Nat → List Token → Option (Expr × List Token)
  | 0, _ => none
  | fuel + 1, tokens => do
    let (first, rest) ← target fuel tokens
    if atSymbol "," rest then
      let (more, rest) ← targetTail fuel rest
      some (.tuple (first :: more), rest)
    else some (first, rest)

/-- Further targets; a comma may stand at the end. -/
def targetTail : Nat → List Token → Option (List Expr × List Token)
  | 0, _ => none
  | fuel + 1, tokens =>
    match dropSymbol? "," tokens with
    | none => some ([], tokens)
    | some rest =>
      if atKeyword "in" rest then some ([], rest)
      else do
        let (e, rest) ← target fuel rest
        let (more, rest) ← targetTail fuel rest
        some (e :: more, rest)

/-- One target, starred or not. -/
def target : Nat → List Token → Option (Expr × List Token)
  | 0, _ => none
  | fuel + 1, tokens =>
    match dropSymbol? "*" tokens with
    | some rest => do
      let (e, rest) ← primary fuel rest
      if isTarget e then some (.starred e, rest) else none
    | none => do
      let (e, rest) ← primary fuel tokens
      if isTarget e then some (e, rest) else none

/-- The parameters of an anonymous function up to the colon, which is dropped. -/
def parameterList : Nat → ParameterStage → List Token → Option (List Parameter × List Token)
  | 0, _, _ => none
  | fuel + 1, stage, tokens =>
    match tokens with
    | .symbol ":" :: rest => if stage.waiting then none else some (stage.done.reverse, rest)
    | .symbol "/" :: rest =>
      if stage.slashed || stage.starred || stage.done.isEmpty then none
      else
        parametersAfter fuel { stage with done := positionalOnly stage.done, slashed := true } rest
    | .symbol "*" :: .name id :: rest =>
      if stage.starred then none
      else
        parametersAfter fuel
          { stage with done := .mk .rest id none :: stage.done, starred := true } rest
    | .symbol "*" :: .symbol "," :: rest =>
      if stage.starred then none
      else parameterList fuel { stage with starred := true, waiting := true } rest
    | .symbol "**" :: .name id :: rest =>
      if stage.waiting then none
      else do
        let rest := (dropSymbol? "," rest).getD rest
        let rest ← dropSymbol? ":" rest
        some ((Parameter.mk .namedRest id none :: stage.done).reverse, rest)
    | .name id :: rest => do
      let (default, rest) ←
        match dropSymbol? "=" rest with
        | some rest => (expression fuel rest).map fun (e, rest) => (some e, rest)
        | none => some (none, rest)
      if stage.starred then
        parametersAfter fuel
          { stage with done := .mk .named id default :: stage.done, waiting := false } rest
      else if stage.needsDefault && default.isNone then none
      else
        parametersAfter fuel
          { stage with
            done := .mk .plain id default :: stage.done
            needsDefault := default.isSome } rest
    | _ => none

/-- The comma before further parameters, or the colon. -/
def parametersAfter : Nat → ParameterStage → List Token → Option (List Parameter × List Token)
  | 0, _, _ => none
  | fuel + 1, stage, tokens =>
    if atSymbol ":" tokens then parameterList fuel stage tokens
    else do
      let rest ← dropSymbol? "," tokens
      parameterList fuel stage rest

/-- Constants that follow one another: bytes only, or text and templates only. -/
def constants : Nat → List Literal → Option Expr
  | 0, _ => none
  | fuel + 1, contents =>
    if contents.any (·.isBytes) && !contents.all (·.isBytes) then none
    else if contents.any (·.isTemplate) then do
      let pieces ← literalPieces fuel contents
      some (.template (mergeTexts pieces))
    else joinConstants? contents

/-- The pieces of texts and templates that follow one another. -/
def literalPieces : Nat → List Literal → Option (List Piece)
  | 0, _ => none
  | _ + 1, [] => some []
  | fuel + 1, content :: rest => do
    let pieces ←
      if content.isTemplate then do
        let (pieces, after) ← pieceList fuel content.isRaw 0 content.body
        if after.isEmpty then some pieces else none
      else do
        let text ← Escape.part? content.isRaw content.body
        some [Piece.text (String.ofList text)]
    let more ← literalPieces fuel rest
    some (pieces ++ more)

/-- The pieces of a template, or of a format on a deeper level, up to its end. -/
def pieceList : Nat → Bool → Nat → List Char → Option (List Piece × List Char)
  | 0, _, _, _ => none
  | fuel + 1, raw, level, cs => do
    let (body, stop, after) ← literalRun raw (0 < level) .outside cs
    let text ← Escape.part? raw body
    let piece := Piece.text (String.ofList text)
    match stop with
    | .ending => some ([piece], after)
    | .doubled => do
      let (more, after) ← pieceList fuel raw level after
      some (piece :: more, after)
    | .opening => do
      let (field, after) ← fieldPieces fuel raw level after
      let (more, after) ← pieceList fuel raw level after
      some (piece :: field ++ more, after)

/-- A field behind its opening brace: an expression, an equals sign that shows the
    source as well, a conversion, and a format. Formats may hold fields, but
    no field in a format has a format with fields. -/
def fieldPieces : Nat → Bool → Nat → List Char → Option (List Piece × List Char)
  | 0, _, _, _ => none
  | fuel + 1, raw, level, cs =>
    if 2 ≤ level then none
    else do
      let (source, rest) ← fieldSource none [] 0 cs
      if source.all isFieldBlank then none
      else
        let tokens ← Token.ofText? ('(' :: source ++ [')'])
        let (value, _) ← starExpressions fuel tokens
        let (shown, rest) := match rest with
          | '=' :: r =>
            let blanks := r.takeWhile isFieldBlank
            (some (source ++ '=' :: blanks), r.dropWhile isFieldBlank)
          | r => (none, r)
        let (conversion, rest) ← match rest with
          | '!' :: c :: r => if c == 's' || c == 'r' || c == 'a' then some (some c, r) else none
          | '!' :: [] => none
          | r => some (none, r)
        let (format, rest) ← match rest with
          | ':' :: r => do
            let (pieces, r) ← pieceList fuel raw (level + 1) r
            some (some (mergeTexts pieces), r)
          | r => some (none, r)
        match rest with
        | '\x7d' :: r =>
          let conversion :=
            if shown.isSome && format.isNone && conversion.isNone then some 'r' else conversion
          let label := match shown with
            | some text => [Piece.text (String.ofList text)]
            | none => []
          some (label ++ [Piece.field value conversion format], r)
        | _ => none

end

/-- Further expressions of a tuple without brackets; a comma may stand at the end. -/
def expressionTail (bound : Nat) : Nat → List Token → Option (List Expr × List Token)
  | 0, _ => none
  | fuel + 1, tokens =>
    match dropSymbol? "," tokens with
    | none => some ([], tokens)
    | some rest =>
      match expression bound rest with
      | none => some ([], rest)
      | some (e, rest) => do
        let (more, rest) ← expressionTail bound fuel rest
        some (e :: more, rest)

/-- Whether only ends of lines are left. -/
def atEnd : List Token → Bool
  | [] => true
  | .lineEnd :: rest => atEnd rest
  | _ => false

/-- A whole text: one expression, or several as a tuple. -/
def whole? (bound : Nat) (tokens : List Token) : Option Expr := do
  let (first, rest) ← expression bound tokens
  let (e, rest) ←
    if atSymbol "," rest then do
      let (more, rest) ← expressionTail bound (tokens.length + 1) rest
      some (Expr.tuple (first :: more), rest)
    else some (first, rest)
  if atEnd rest then some e else none

end BlockAngular.Rule.Parser

namespace BlockAngular.Rule

/-- The expression that a text stands for, if it is one. -/
def Expr.ofText? (text : List Char) : Option Expr := do
  let tokens ← Token.ofText? text
  Parser.whole? (32 * (text.length + 2)) tokens

end BlockAngular.Rule
