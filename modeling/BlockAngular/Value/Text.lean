import BlockAngular.Value.Basic
import BlockAngular.Number.DecimalText
import BlockAngular.Text.Quoted

/-! # The written form of values

How a value is shown in names and messages: text between quotes, sequences in
round or square brackets, tables in braces, and a comma behind the single item of
a tuple.
-/

namespace BlockAngular.Value

/-- The most decimal digits that an integer can be read or written with. -/
def maxDigits : Nat := 4300

/-- The first natural number with more digits than that. -/
def tooLong : Nat := Nat.pow 10 maxDigits

/-- The decimal digits of an integer, with its sign. -/
def integerText (n : Int) : List Char :=
  if n < 0 then '-' :: DecimalText.digits n.natAbs else DecimalText.digits n.natAbs

/-- A complex number: the imaginary part alone when the real part is a positive
    zero, else both between brackets. -/
def complexText (re im : Float) : List Char :=
  let imaginary := DecimalText.renderWith [] im
  if Binary64.isZero re && !Binary64.negative re then imaginary ++ ['j']
  else
    let sign := if DecimalText.signed im then [] else ['+']
    '(' :: DecimalText.renderWith [] re ++ sign ++ imaginary ++ ['j', ')']

/-- Texts with commas and blanks between them. -/
def commaSeparated : List (List Char) → List Char
  | [] => []
  | [text] => text
  | text :: rest => text ++ ',' :: ' ' :: commaSeparated rest

/-- Items between round brackets; a single one is followed by a comma. -/
def tupleText : List (List Char) → List Char
  | [text] => '(' :: text ++ [',', ')']
  | texts => '(' :: commaSeparated texts ++ [')']

mutual

/-- The written form of a value. -/
def text : Value → List Char
  | .null => "None".toList
  | .dots => "Ellipsis".toList
  | .bool b => (if b then "True" else "False").toList
  | .int n => integerText n
  | .float x => DecimalText.render x
  | .nan _ => DecimalText.render Binary64.notANumber
  | .complex re im => complexText re im
  | .str s => Text.quoted s.toList
  | .bytes data => Text.quotedBytes data
  | .tuple items => tupleText (texts items)
  | .list items => '[' :: commaSeparated (texts items) ++ [']']
  | .table entries => '\x7b' :: commaSeparated (entryTexts entries) ++ ['\x7d']
  | .record fields => "namespace(".toList ++ commaSeparated (fieldTexts fields) ++ [')']

/-- The written forms of the items of a sequence. -/
def texts : List Value → List (List Char)
  | [] => []
  | v :: rest => text v :: texts rest

/-- The written forms of the entries of a table. -/
def entryTexts : List (Value × Value) → List (List Char)
  | [] => []
  | (key, value) :: rest => (text key ++ ':' :: ' ' :: text value) :: entryTexts rest

/-- The written forms of the attributes of a record. -/
def fieldTexts : List (String × Value) → List (List Char)
  | [] => []
  | (name, value) :: rest => (name.toList ++ '=' :: text value) :: fieldTexts rest

end

mutual

/-- Whether a value has a written form: every integer in it is short enough. -/
def isWritable : Value → Bool
  | .int n => n.natAbs < tooLong
  | .tuple items | .list items => allWritable items
  | .table entries => entriesWritable entries
  | .record fields => fieldsWritable fields
  | _ => true

/-- Whether all items have written forms. -/
def allWritable : List Value → Bool
  | [] => true
  | v :: rest => isWritable v && allWritable rest

/-- Whether all keys and contents of a table have written forms. -/
def entriesWritable : List (Value × Value) → Bool
  | [] => true
  | (key, value) :: rest => isWritable key && isWritable value && entriesWritable rest

/-- Whether all attributes of a record have written forms. -/
def fieldsWritable : List (String × Value) → Bool
  | [] => true
  | (_, value) :: rest => isWritable value && fieldsWritable rest

end

/-- The written form of a value, as a string. -/
def render (v : Value) : String :=
  String.ofList v.text

end BlockAngular.Value
