import BlockAngular.Fault
import BlockAngular.Rule.Expr
import BlockAngular.Value.Text

/-! # Writing expressions

The text of an expression has the brackets that its tree needs and no others of
the writer's choice: every place asks for a level, and an operand of a lower level
is put in brackets. Inside the fields of a template constants are written without
backslashes where that is possible.
-/

namespace BlockAngular.Rule.Printer

/-- The levels of expressions, from loosely to tightly bound. -/
def tupleLevel : Nat := 1
def yieldLevel : Nat := 2
def testLevel : Nat := 3
def orLevel : Nat := 4
def andLevel : Nat := 5
def notLevel : Nat := 6
def compareLevel : Nat := 7
def bitOrLevel : Nat := 8
def bitXorLevel : Nat := 9
def bitAndLevel : Nat := 10
def shiftLevel : Nat := 11
def sumLevel : Nat := 12
def termLevel : Nat := 13
def factorLevel : Nat := 14
def powerLevel : Nat := 15
def awaitLevel : Nat := 16
def atomLevel : Nat := 17

/-- The level of an operator between two operands. -/
def binaryLevel : BinaryOp → Nat
  | .bitOr => bitOrLevel
  | .bitXor => bitXorLevel
  | .bitAnd => bitAndLevel
  | .shiftLeft | .shiftRight => shiftLevel
  | .add | .sub => sumLevel
  | .mul | .matMul | .div | .floorDiv | .mod => termLevel
  | .pow => powerLevel

/-- The level of an operator before its operand. -/
def unaryLevel : UnaryOp → Nat
  | .not => notLevel
  | _ => factorLevel

/-- The level of a connective. -/
def boolLevel : BoolOp → Nat
  | .or => orLevel
  | .and => andLevel

/-- The next tighter level; behind the tightest there is none. -/
def tighter (level : Nat) : Nat :=
  min (level + 1) atomLevel

/-- Brackets around a text of the level `own` where `asked` is tighter. -/
def bracketed (asked own : Nat) (text : List Char) : List Char :=
  if own < asked then '(' :: text ++ [')'] else text

/-- Texts with a separator between them. -/
def joined (separator : List Char) : List (List Char) → List Char
  | [] => []
  | [text] => text
  | text :: rest => text ++ separator ++ joined separator rest

/-- Items of a sequence with commas between them, and one behind a single item. -/
def items : List (List Char) → List Char
  | [text] => text ++ [',']
  | texts => joined [',', ' '] texts

/-- A quote to write a template or a constant with. -/
abbrev Quote := List Char

/-- The quotes in the order in which they are tried. -/
def allQuotes : List Quote :=
  [['\''], ['"'], ['"', '"', '"'], ['\'', '\'', '\'']]

/-- Whether one text occurs in another. -/
def occursIn (part : List Char) : List Char → Bool
  | [] => part.isEmpty
  | c :: rest => part.isPrefixOf (c :: rest) || occursIn part rest

/-- The escape of a character that is not written as it is. -/
def charEscape (c : Char) : List Char :=
  if c == '\\' then ['\\', '\\']
  else if c == '\t' then ['\\', 't']
  else if c == '\n' then ['\\', 'n']
  else if c == '\r' then ['\\', 'r']
  else Text.codeEscape c.toNat

/-- A text as it stands between quotes that do not occur in it, and the quotes that
    are left to choose from. Line feeds and tabs are escaped only where `special`
    says so; a line feed needs triple quotes. -/
def unquoted (quotes : List Quote) (special : Bool) (text : List Char) : List Char × List Quote :=
  let escaped := text.flatMap fun c =>
    if !special && (c == '\n' || c == '\t') then [c]
    else if c == '\\' || !Text.isPrintable c then charEscape c
    else [c]
  let quotes' := if escaped.contains '\n' then quotes.filter (·.length == 3) else quotes
  let quotes' := quotes'.filter fun q => !occursIn q escaped
  match quotes' with
  | [] =>
    let whole := Text.quoted text
    let mark := whole.headD '\''
    let quote := (quotes.find? (·.contains mark)).getD [mark]
    (whole.tail.dropLast, [quote])
  | _ =>
    match escaped.getLast? with
    | none => (escaped, quotes')
    | some last =>
      let sorted := quotes'.filter (·.head? != some last) ++ quotes'.filter (·.head? == some last)
      if (sorted.head?.bind (·.head?)) == some last then
        (escaped.dropLast ++ ['\\', last], sorted)
      else (escaped, sorted)

/-- A text between quotes chosen so that few backslashes are needed. -/
def quotedPlainly (text : List Char) : List Char :=
  let (body, quotes) := unquoted allQuotes false text
  let quote := quotes.headD ['\'']
  quote ++ body ++ quote

/-- Double the braces of a text. -/
def doubleBraces (text : List Char) : List Char :=
  text.flatMap fun c => if c == '\x7b' || c == '\x7d' then [c, c] else [c]

/-- A double as a constant: the infinity is a decimal past the largest double. -/
def doubleText (whole : List Char) (x : Float) : List Char :=
  if Binary64.isInfinite x then "1e309".toList else DecimalText.renderWith whole x

/-- A constant. -/
def constantText (plainly : Bool) (value : Value) (marked : Bool) : List Char :=
  match value with
  | .dots => ['.', '.', '.']
  | .str s =>
    let text := if plainly then quotedPlainly s.toList else Text.quoted s.toList
    if marked then 'u' :: text else text
  | .float x => doubleText ['.', '0'] x
  | .complex _ im => doubleText [] im ++ ['j']
  | v => v.text

/-- Whether a constant ends in digits that a point would extend. -/
def isInteger : Expr → Bool
  | .constant (.int _) _ | .constant (.bool _) _ => true
  | _ => false

/-- The pieces of a template between quotes that none of them holds, each with
    whether it is literal text. -/
def quotedTemplate (plainly : Bool) (pieces : List (List Char × Bool)) : List Char :=
  if plainly then quotedPlainly (pieces.flatMap (·.1))
  else
    let (body, quotes) := pieces.foldl (fun (body, quotes) (text, isText) =>
      let (text, quotes) := unquoted quotes isText text
      (body ++ text, quotes)) ([], allQuotes)
    let quote := quotes.headD ['\'']
    quote ++ body ++ quote

/-- The mark before the name of a parameter. -/
def parameterMark : ParameterKind → List Char
  | .rest => ['*']
  | .namedRest => ['*', '*']
  | _ => []

/-- Put the marks between parameters of different kinds: a slash behind those given
    by position only, and a bare star before the first one given by name only when
    no other star stands there. -/
def withMarks (starred : Bool) : List (ParameterKind × List Char) → List (List Char)
  | [] => []
  | (.positional, text) :: rest =>
    match rest with
    | (.positional, _) :: _ => text :: withMarks starred rest
    | _ => text :: ['/'] :: withMarks starred rest
  | (.named, text) :: rest =>
    if starred then text :: withMarks true rest else ['*'] :: text :: withMarks true rest
  | (.rest, text) :: rest => text :: withMarks true rest
  | (_, text) :: rest => text :: withMarks starred rest

/-- The expression and the conversion of a field; a blank keeps two braces apart. -/
def fieldText (value : List Char) (conversion : Option Char) : List Char :=
  (if value.head? == some '\x7b' then ' ' :: value else value) ++
    match conversion with
    | some c => ['!', c]
    | none => []

mutual

/-- The text of an expression where a level is asked for. `plainly` avoids
    backslashes. A tuple in a subscript needs no brackets of its own unless it is
    empty. -/
def text (plainly : Bool) (asked : Nat) : Expr → List Char
  | .constant value marked => constantText plainly value marked
  | .name id => id.toList
  | .tuple [] => ['(', ')']
  | .tuple (e :: es) =>
    bracketed asked tupleLevel (items (text plainly testLevel e :: texts plainly es))
  | .list es => '[' :: joined [',', ' '] (texts plainly es) ++ [']']
  | .set es => '\x7b' :: joined [',', ' '] (texts plainly es) ++ ['\x7d']
  | .dict entries => '\x7b' :: joined [',', ' '] (entryTexts plainly entries) ++ ['\x7d']
  | .binary op left right =>
    let own := binaryLevel op
    let (leftAsked, rightAsked) :=
      if op = .pow then (tighter own, own) else (own, tighter own)
    bracketed asked own
      (text plainly leftAsked left ++ ' ' :: op.symbol.toList ++
        ' ' :: text plainly rightAsked right)
  | .unary op operand =>
    let own := unaryLevel op
    let gap := if op = .not then [' '] else []
    bracketed asked own (op.symbol.toList ++ gap ++ text plainly own operand)
  | .boolean op operands =>
    let own := boolLevel op
    bracketed asked own
      (joined (' ' :: op.symbol.toList ++ [' ']) (tighterTexts plainly (tighter own) operands))
  | .compare first rest =>
    bracketed asked compareLevel
      (text plainly (tighter compareLevel) first ++ comparisonTexts plainly rest)
  | .conditional test body otherwise =>
    bracketed asked testLevel
      (text plainly (tighter testLevel) body ++ " if ".toList ++
        text plainly (tighter testLevel) test ++ " else ".toList ++
        text plainly testLevel otherwise)
  | .lambda parameters body =>
    let list := joined [',', ' '] (withMarks false (parameterTexts plainly parameters))
    bracketed asked testLevel
      ("lambda".toList ++ (if list.isEmpty then [] else ' ' :: list) ++ [':', ' '] ++
        text plainly testLevel body)
  | .call function arguments keywords =>
    text plainly atomLevel function ++
      '(' :: joined [',', ' '] (texts plainly arguments ++ keywordTexts plainly keywords) ++ [')']
  | .attribute base name =>
    text plainly atomLevel base ++ (if isInteger base then [' '] else []) ++ '.' :: name.toList
  | .subscript base (.tuple (e :: es)) =>
    text plainly atomLevel base ++
      '[' :: items (text plainly testLevel e :: texts plainly es) ++ [']']
  | .subscript base index =>
    text plainly atomLevel base ++ '[' :: text plainly testLevel index ++ [']']
  | .slice lower upper step =>
    optionText plainly lower ++ ':' :: optionText plainly upper ++
      (if step.isSome then ':' :: optionText plainly step else [])
  | .starred operand => '*' :: text plainly bitOrLevel operand
  | .binding name value =>
    bracketed asked tupleLevel (name.toList ++ " := ".toList ++ text plainly atomLevel value)
  | .await operand => bracketed asked awaitLevel ("await ".toList ++ text plainly atomLevel operand)
  | .yield none => bracketed asked yieldLevel "yield".toList
  | .yield (some operand) =>
    bracketed asked yieldLevel ("yield ".toList ++ text plainly atomLevel operand)
  | .yieldFrom operand =>
    bracketed asked yieldLevel ("yield from ".toList ++ text plainly atomLevel operand)
  | .generator element clauses =>
    '(' :: text plainly testLevel element ++ clauseTexts plainly clauses ++ [')']
  | .listOf element clauses =>
    '[' :: text plainly testLevel element ++ clauseTexts plainly clauses ++ [']']
  | .setOf element clauses =>
    '\x7b' :: text plainly testLevel element ++ clauseTexts plainly clauses ++ ['\x7d']
  | .dictOf key value clauses =>
    '\x7b' :: text plainly testLevel key ++ ':' :: ' ' :: text plainly testLevel value ++
      clauseTexts plainly clauses ++ ['\x7d']
  | .template pieces => 'f' :: quotedTemplate plainly (pieceTexts pieces)

/-- The texts of expressions that stand on their own. -/
def texts (plainly : Bool) : List Expr → List (List Char)
  | [] => []
  | e :: rest => text plainly testLevel e :: texts plainly rest

/-- The texts of the operands of a connective, each on a tighter level than the one
    before. -/
def tighterTexts (plainly : Bool) (asked : Nat) : List Expr → List (List Char)
  | [] => []
  | e :: rest => text plainly asked e :: tighterTexts plainly (tighter asked) rest

/-- The text of an expression that may be absent. -/
def optionText (plainly : Bool) : Option Expr → List Char
  | none => []
  | some e => text plainly testLevel e

/-- The texts of the entries of a table. -/
def entryTexts (plainly : Bool) : List (Option Expr × Expr) → List (List Char)
  | [] => []
  | (none, value) :: rest =>
    ('*' :: '*' :: text plainly bitOrLevel value) :: entryTexts plainly rest
  | (some key, value) :: rest =>
    (text plainly testLevel key ++ ':' :: ' ' :: text plainly testLevel value) ::
      entryTexts plainly rest

/-- The further operands of a comparison with their operators. -/
def comparisonTexts (plainly : Bool) : List (CompareOp × Expr) → List Char
  | [] => []
  | (op, e) :: rest =>
    ' ' :: op.symbol.toList ++ ' ' :: text plainly (tighter compareLevel) e ++
      comparisonTexts plainly rest

/-- The texts of keyword arguments. -/
def keywordTexts (plainly : Bool) : List (Option String × Expr) → List (List Char)
  | [] => []
  | (none, value) :: rest =>
    ('*' :: '*' :: text plainly testLevel value) :: keywordTexts plainly rest
  | (some name, value) :: rest =>
    (name.toList ++ '=' :: text plainly testLevel value) :: keywordTexts plainly rest

/-- The texts of the clauses of a comprehension. -/
def clauseTexts (plainly : Bool) : List Clause → List Char
  | [] => []
  | .mk isAsync target source conditions :: rest =>
    (if isAsync then " async for ".toList else " for ".toList) ++
      text plainly tupleLevel target ++ " in ".toList ++
      text plainly (tighter testLevel) source ++ conditionTexts plainly conditions ++
      clauseTexts plainly rest

/-- The texts of the conditions of a clause. -/
def conditionTexts (plainly : Bool) : List Expr → List Char
  | [] => []
  | e :: rest =>
    " if ".toList ++ text plainly (tighter testLevel) e ++ conditionTexts plainly rest

/-- The texts of parameters with their defaults. -/
def parameterTexts (plainly : Bool) : List Parameter → List (ParameterKind × List Char)
  | [] => []
  | .mk kind name none :: rest =>
    (kind, parameterMark kind ++ name.toList) :: parameterTexts plainly rest
  | .mk kind name (some value) :: rest =>
    (kind, parameterMark kind ++ name.toList ++ '=' :: text plainly testLevel value) ::
      parameterTexts plainly rest

/-- The texts of the pieces of a template, each with whether it is literal text. -/
def pieceTexts : List Piece → List (List Char × Bool)
  | [] => []
  | .text content :: rest => (doubleBraces content.toList, true) :: pieceTexts rest
  | .field value conversion none :: rest =>
    ('\x7b' :: fieldText (text true (tighter testLevel) value) conversion ++ ['\x7d'], false) ::
      pieceTexts rest
  | .field value conversion (some format) :: rest =>
    ('\x7b' :: fieldText (text true (tighter testLevel) value) conversion ++
      ':' :: (pieceTexts format).flatMap (·.1) ++ ['\x7d'], false) :: pieceTexts rest

end

end BlockAngular.Rule.Printer

namespace BlockAngular.Rule

/-- The text of an expression that stands on its own. -/
def Expr.text (e : Expr) : List Char :=
  Printer.text false Printer.testLevel e

/-- Whether the texts of the fields of a template can stand in it: they may hold no
    backslash. -/
def Piece.allPlain : List Piece → Bool
  | [] => true
  | .text _ :: rest => allPlain rest
  | .field value _ format :: rest =>
    !(Printer.text true (Printer.tighter Printer.testLevel) value).contains '\\' &&
      (match format with
      | none => true
      | some pieces => allPlain pieces) && allPlain rest

/-- Whether an expression itself, apart from its parts, has a text. -/
def Expr.isWritableHere : Expr → Bool
  | .constant value _ => value.isWritable
  | .template pieces => Piece.allPlain pieces
  | _ => true

/-- The text of an expression, if it has one: integers may be too long to be written,
    and the fields of a template may need escapes that cannot stand there. -/
def Expr.written (e : Expr) : Except Fault String :=
  if e.all Expr.isWritableHere then .ok (String.ofList e.text) else .error .badValue

end BlockAngular.Rule
