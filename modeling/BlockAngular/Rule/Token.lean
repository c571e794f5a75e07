import BlockAngular.Text.Identifier
import BlockAngular.Text.Normal
import BlockAngular.Value.Text

/-! # Tokens of rules

The text of a rule is cut into tokens from left to right, each as long as it can
be. Line ends count only outside of brackets; blanks, comments and joined lines
only separate tokens.
-/

namespace BlockAngular.Rule

/-- A text constant before its escapes are read. -/
structure Literal where
  /-- Whether it stands for bytes. -/
  isBytes : Bool
  /-- Whether backslashes stand for themselves. -/
  isRaw : Bool
  /-- Whether it has fields to fill in. -/
  isTemplate : Bool
  /-- Whether it carries the mark of Unicode text. -/
  isMarked : Bool
  body : List Char

/-- A token. -/
inductive Token where
  /-- An identifier in its normal form. -/
  | name (id : String)
  | keyword (word : String)
  | number (value : Value)
  | literal (content : Literal)
  | symbol (text : String)
  /-- The end of a line that holds tokens. -/
  | lineEnd

namespace Token

/-- The words that are no identifiers. -/
def keywords : List String :=
  ["False", "None", "True", "and", "as", "assert", "async", "await", "break", "class", "continue",
    "def", "del", "elif", "else", "except", "finally", "for", "from", "global", "if", "import",
    "in", "is", "lambda", "nonlocal", "not", "or", "pass", "raise", "return", "try", "while",
    "with", "yield"]

/-- The symbols of three, two and one characters, longer ones first. -/
def symbols : List String :=
  ["**=", "//=", ">>=", "<<=", "...",
    "!=", "%=", "&=", "**", "*=", "+=", "-=", "->", "//", "/=", ":=", "<<", "<=", "<>", "==",
    ">=", ">>", "@=", "^=", "|=",
    "%", "&", "(", ")", "*", "+", ",", "-", ".", "/", ":", ";", "<", "=", ">", "@", "[", "]",
    "^", "\x7b", "|", "\x7d", "~"]

/-- Whether the character can stand in a word; which characters past ASCII may is
    settled once the whole word is read. -/
def isWordChar (c : Char) : Bool :=
  c.isAlphanum || c == '_' || 0x80 ≤ c.toNat

/-- A word as a keyword or an identifier. -/
def ofWord? (word : List Char) : Option Token :=
  let text := String.ofList word
  if keywords.contains text then some (.keyword text)
  else if Text.isIdentifier word then some (.name (String.ofList (Text.normalForm word)))
  else none

/-- Digits with single underscores before them, up to the first character that is
    neither; an underscore must be followed by a digit. -/
def digitRun (isDigit : Char → Bool) : List Char → Option (List Char × List Char)
  | [] => some ([], [])
  | c :: rest =>
    if isDigit c then (digitRun isDigit rest).map fun (ds, r) => (c :: ds, r)
    else if c == '_' then
      if rest.head?.any isDigit then digitRun isDigit rest else none
    else some ([], c :: rest)

/-- Whether one text starts with another. -/
def startsWith : List Char → List Char → Bool
  | _, [] => true
  | [], _ :: _ => false
  | c :: cs, d :: ds => c == d && startsWith cs ds

/-- What may follow a number: no character of a word, unless it starts a keyword
    that can follow an operand. -/
def endsNumber (rest : List Char) : Bool :=
  let keywords := ["and", "else", "for", "if", "in", "is", "or", "not"]
  keywords.any (fun word => startsWith rest word.toList) || !rest.head?.any isWordChar

/-- The value of a digit in any base up to sixteen. -/
def digitOf (c : Char) : Nat :=
  if c.isDigit then c.toNat - 48
  else if 'a'.toNat ≤ c.toNat then c.toNat - 87
  else c.toNat - 55

/-- The number that digits stand for in a base. -/
def numberOf (base : Nat) (ds : List Char) : Nat :=
  ds.foldl (fun n c => base * n + digitOf c) 0

/-- An integer in base two, eight or sixteen, behind its mark. -/
def basedInteger? (base : Nat) (isDigit : Char → Bool) (cs : List Char) :
    Option (Value × List Char) := do
  let (ds, rest) ← digitRun isDigit cs
  if ds.isEmpty || !endsNumber rest then none
  else some (.int (numberOf base ds), rest)

/-- A hexadecimal digit. -/
def isHexDigit (c : Char) : Bool :=
  c.isDigit || ('a' ≤ c && c ≤ 'f') || ('A' ≤ c && c ≤ 'F')

/-- An exponent with its digits, or nothing when no digit follows the letter. -/
def exponent? (cs : List Char) : Option (Option Int × List Char) :=
  match cs with
  | e :: rest =>
    if e == 'e' || e == 'E' then
      let signed := match rest with
        | c :: _ => c == '+' || c == '-'
        | [] => false
      let digits := if signed then rest.drop 1 else rest
      if digits.head?.any Char.isDigit then do
        let (ds, r) ← digitRun Char.isDigit digits
        let size : Int := numberOf 10 ds
        some (some (if rest.head? == some '-' then -size else size), r)
      else if signed then none
      else some (none, cs)
    else some (none, cs)
  | [] => some (none, [])

/-- A decimal number: an integer, a double or an imaginary number. Digits other than
    zeros with a zero in front are no integer; they are a double when the keyword
    `else`, which starts like an exponent, follows them at once. -/
def decimal? (cs : List Char) : Option (Value × List Char) := do
  let (whole, rest) ← digitRun Char.isDigit cs
  let (hasPoint, fraction, rest) ←
    match rest with
    | '.' :: r =>
      if r.head?.any Char.isDigit then (digitRun Char.isDigit r).map fun (ds, r) => (true, ds, r)
      else some (true, [], r)
    | r => some (false, [], r)
  let (exponent, rest) ← exponent? rest
  let double := DecimalText.ofDecimal (numberOf 10 (whole ++ fraction))
    (exponent.getD 0 - fraction.length)
  match rest with
  | c :: r =>
    if c == 'j' || c == 'J' then
      if endsNumber r then some (.complex 0.0 double, r) else none
    else finish hasPoint whole exponent double rest
  | [] => finish hasPoint whole exponent double rest
where
  /-- Settle between an integer and a double. -/
  finish (hasPoint : Bool) (whole : List Char) (exponent : Option Int) (double : Float)
      (rest : List Char) : Option (Value × List Char) :=
    if !endsNumber rest then none
    else if hasPoint || exponent.isSome then some (.float double, rest)
    else if whole.all (· == '0') then some (.int 0, rest)
    else if whole.head? == some '0' then
      if rest.head? == some 'e' then some (.float double, rest) else none
    else if Value.maxDigits < whole.length then none
    else some (.int (numberOf 10 whole), rest)

/-- A number at the start of a text. -/
def number? : List Char → Option (Value × List Char)
  | '0' :: c :: rest =>
    if c == 'x' || c == 'X' then basedInteger? 16 isHexDigit rest
    else if c == 'o' || c == 'O' then
      basedInteger? 8 (fun d => '0' ≤ d && d ≤ '7') rest
    else if c == 'b' || c == 'B' then
      basedInteger? 2 (fun d => d == '0' || d == '1') rest
    else decimal? ('0' :: c :: rest)
  | cs => decimal? cs

/-- The rest of a constant between single quote characters, up to its end on the
    same line; a backslash takes the next character with it. -/
def quotedRun (quote : Char) : List Char → Option (List Char × List Char)
  | [] => none
  | '\\' :: c :: rest => (quotedRun quote rest).map fun (body, r) => ('\\' :: c :: body, r)
  | c :: rest =>
    if c == quote then some ([], rest)
    else if c == '\n' || c == '\\' then none
    else (quotedRun quote rest).map fun (body, r) => (c :: body, r)

/-- The rest of a constant between triple quote characters. -/
def tripleRun (quote : Char) : List Char → Option (List Char × List Char)
  | [] => none
  | '\\' :: c :: rest => (tripleRun quote rest).map fun (body, r) => ('\\' :: c :: body, r)
  | c :: rest =>
    if c == quote && startsWith rest [quote, quote] then some ([], rest.drop 2)
    else if c == '\\' then none
    else (tripleRun quote rest).map fun (body, r) => (c :: body, r)

/-- The body of a constant that starts at its opening quotes. -/
def quotedBody? : List Char → Option (List Char × List Char)
  | quote :: rest =>
    if startsWith rest [quote, quote] then tripleRun quote (rest.drop 2)
    else quotedRun quote rest
  | [] => none

/-- The letters before the quote of a constant, in small letters, and the text from
    the quote on; nothing when no constant starts here. -/
def literalMark? (cs : List Char) : Option (List Char × List Char) :=
  let isQuote (rest : List Char) := rest.head?.any fun c => c == '"' || c == '\''
  let letters (n : Nat) := (cs.take n).map Char.toLower
  if isQuote cs then some ([], cs)
  else if isQuote (cs.drop 1) && ["b", "u", "r", "f"].contains (String.ofList (letters 1)) then
    some (letters 1, cs.drop 1)
  else if isQuote (cs.drop 2) && ["br", "rb", "fr", "rf"].contains (String.ofList (letters 2)) then
    some (letters 2, cs.drop 2)
  else none

/-- Drop the blanks that only separate tokens. -/
def skipBlanks (cs : List Char) : List Char :=
  cs.dropWhile fun c => c == ' ' || c == '\t' || c == '\x0c'

/-- A change of the bracket depth by a symbol. -/
def newDepth? (depth : List Char) (symbol : String) : Option (List Char) :=
  if symbol == "(" || symbol == "[" || symbol == "\x7b" then
    if depth.length < 200 then some (symbol.toList ++ depth) else none
  else
    let closes (opening : Char) :=
      match depth with
      | top :: rest => if top == opening then some rest else none
      | [] => none
    if symbol == ")" then closes '('
    else if symbol == "]" then closes '['
    else if symbol == "\x7d" then closes '\x7b'
    else some depth

/-- The indentation of a line and the text from its first token on, given the column
    reached so far. A tab goes on to the next multiple of eight and a form feed back to
    the start of the line. Of joined lines the first that is indented decides, which
    `joined` holds; a joined line must be followed by another one. -/
def margin? (column joined : Nat) : List Char → Option (Nat × List Char)
  | ' ' :: rest => margin? (column + 1) joined rest
  | '\t' :: rest => margin? ((column / 8 + 1) * 8) joined rest
  | '\x0c' :: rest => margin? 0 joined rest
  | '\\' :: '\n' :: rest =>
    if rest.isEmpty then none else margin? column (if joined = 0 then column else joined) rest
  | rest => some (if joined = 0 then column else joined, rest)

/-- Cut a text into tokens. `opened` holds the open brackets, `fresh` says that no
    token stands on the line yet, and `fuel` bounds the number of steps. A line that
    starts outside of brackets may not be indented unless it holds no token. -/
def scan (fuel : Nat) (opened : List Char) (fresh : Bool) (cs : List Char) : Option (List Token) :=
  match fuel with
  | 0 => none
  | fuel + 1 => do
    let (column, rest) ← if fresh then margin? 0 0 cs else some (0, skipBlanks cs)
    let indented := column != 0
    match rest with
    | [] => some []
    | '#' :: more => scan fuel opened fresh (more.dropWhile (· != '\n'))
    | '\n' :: more =>
      if fresh || !opened.isEmpty then scan fuel opened fresh more
      else (scan fuel opened true more).map (.lineEnd :: ·)
    | '\\' :: '\n' :: more => if more.isEmpty then none else scan fuel opened fresh more
    | c :: more =>
      if indented then none
      else
        match literalMark? (c :: more) with
        | some (mark, quoteOn) => do
          let (body, after) ← quotedBody? quoteOn
          let token := .literal
            { isBytes := mark.contains 'b'
              isRaw := mark.contains 'r'
              isTemplate := mark.contains 'f'
              isMarked := c == 'u'
              body }
          (scan fuel opened false after).map (token :: ·)
        | none =>
          if c.isDigit || (c == '.' && more.head?.any Char.isDigit) then do
            let (value, after) ← number? (c :: more)
            (scan fuel opened false after).map (.number value :: ·)
          else if isWordChar c then do
            let token ← ofWord? ((c :: more).takeWhile isWordChar)
            (scan fuel opened false ((c :: more).dropWhile isWordChar)).map (token :: ·)
          else do
            let symbol ← symbols.find? fun s => startsWith (c :: more) s.toList
            let opened ← newDepth? opened symbol
            (scan fuel opened false ((c :: more).drop symbol.length)).map (.symbol symbol :: ·)

/-- Line ends of every form as line feeds. -/
def unifyLineEnds : List Char → List Char
  | [] => []
  | '\r' :: '\n' :: rest => '\n' :: unifyLineEnds rest
  | c :: rest => (if c == '\r' then '\n' else c) :: unifyLineEnds rest

/-- The tokens of a text, or nothing when it cannot be cut into tokens. -/
def ofText? (text : List Char) : Option (List Token) :=
  let cs := unifyLineEnds text
  scan (cs.length + 1) [] true cs

end Token

end BlockAngular.Rule
