/-! # Blanks and lines

Blank space is trimmed and text is cut into lines by the Unicode rules: the white
space of any script counts at the ends, and eight more characters than the line
feed end a line.
-/

namespace BlockAngular.Text

/-- White space in the sense of Unicode, the separators of ASCII included. -/
def isBlank (c : Char) : Bool :=
  let n := c.toNat
  (0x09 ≤ n && n ≤ 0x0D) || (0x1C ≤ n && n ≤ 0x20) || n == 0x85 || n == 0xA0 || n == 0x1680 ||
    (0x2000 ≤ n && n ≤ 0x200A) || n == 0x2028 || n == 0x2029 || n == 0x202F || n == 0x205F ||
    n == 0x3000

/-- Drop the blanks at both ends. -/
def trimBlanks (text : List Char) : List Char :=
  ((text.dropWhile isBlank).reverse.dropWhile isBlank).reverse

/-- Whether the character ends a line. -/
def isLineEnd (c : Char) : Bool :=
  let n := c.toNat
  (0x0A ≤ n && n ≤ 0x0D) || (0x1C ≤ n && n ≤ 0x1E) || n == 0x85 || n == 0x2028 || n == 0x2029

/-- Cut text into lines, with `line` the reversed part of the current one. A
    carriage return and a line feed behind it end one line together, and there is
    no empty line behind the last line end. -/
def cutLines (line : List Char) : List Char → List (List Char)
  | [] => if line.isEmpty then [] else [line.reverse]
  | '\r' :: '\n' :: rest => line.reverse :: cutLines [] rest
  | c :: rest => if isLineEnd c then line.reverse :: cutLines [] rest else cutLines (c :: line) rest

/-- The lines of a text. -/
def lines (text : List Char) : List (List Char) :=
  cutLines [] text

end BlockAngular.Text
