import BlockAngular.Rule.Token
import BlockAngular.Text.CharacterName

/-! # Escapes in text constants

A backslash in a constant starts an escape: a joined line, a control character, a
character by its octal or hexadecimal code or by its name, or itself when nothing else
fits.
-/

namespace BlockAngular.Rule.Escape

/-- The character of a one-letter escape. -/
def simple? (c : Char) : Option Nat :=
  if c == '\\' || c == '\'' || c == '"' then some c.toNat
  else if c == 'a' then some 7
  else if c == 'b' then some 8
  else if c == 'f' then some 12
  else if c == 'n' then some 10
  else if c == 'r' then some 13
  else if c == 't' then some 9
  else if c == 'v' then some 11
  else none

/-- An octal digit. -/
def isOctalDigit (c : Char) : Bool :=
  '0' ≤ c && c ≤ '7'

/-- Exactly `count` hexadecimal digits as a number, and the rest. -/
def hexCode? (count : Nat) (cs : List Char) : Option (Nat × List Char) :=
  let ds := cs.take count
  if ds.length == count && ds.all Token.isHexDigit then
    some (Token.numberOf 16 ds, cs.drop count)
  else none

/-- The code of a character by its name between braces, and the rest. -/
def namedCode? : List Char → Option (Nat × List Char)
  | '\x7b' :: rest =>
    match rest.dropWhile (· != '\x7d') with
    | [] => none
    | _ :: after => (Text.codeOfName? (rest.takeWhile (· != '\x7d'))).map (·, after)
  | _ => none

/-- What an escape stands for. -/
inductive Meaning where
  /-- A code point or byte. -/
  | code (n : Nat)
  /-- Nothing: the line goes on. -/
  | joined
  /-- The backslash itself, before the character that follows. -/
  | backslash

/-- Read the escape behind a backslash; `wide` says whether names and the escapes of more
    than two hexadecimal digits are known, as they are in text. -/
def read? (wide : Bool) : List Char → Option (Meaning × List Char)
  | [] => some (.backslash, [])
  | c :: rest =>
    if c == '\n' then some (.joined, rest)
    else
      match simple? c with
      | some n => some (.code n, rest)
      | none =>
        if isOctalDigit c then
          let more := (rest.take 2).takeWhile isOctalDigit
          some (.code (Token.numberOf 8 (c :: more)), rest.drop more.length)
        else if c == 'x' then (hexCode? 2 rest).map fun (n, r) => (.code n, r)
        else if wide && c == 'u' then (hexCode? 4 rest).map fun (n, r) => (.code n, r)
        else if wide && c == 'U' then (hexCode? 8 rest).map fun (n, r) => (.code n, r)
        else if wide && c == 'N' then (namedCode? rest).map fun (n, r) => (.code n, r)
        else some (.backslash, c :: rest)

/-- The character with a code, if there is one. -/
def charOf? (n : Nat) : Option Char :=
  if h : n.isValidChar then some (Char.ofNatAux n h) else none

/-- The text of a constant; `fuel` bounds its length. -/
def textWith : Nat → List Char → Option (List Char)
  | 0, cs => if cs.isEmpty then some [] else none
  | _ + 1, [] => some []
  | fuel + 1, c :: rest =>
    if c == '\\' then do
      let (meaning, after) ← read? true rest
      let more ← textWith fuel after
      match meaning with
      | .code n => (charOf? n).map (· :: more)
      | .joined => some more
      | .backslash => some ('\\' :: more)
    else (textWith fuel rest).map (c :: ·)

/-- The text that the body of a constant stands for. -/
def text? (body : List Char) : Option (List Char) :=
  textWith body.length body

/-- The bytes of a constant; `fuel` bounds its length. -/
def bytesWith : Nat → List Char → Option (List UInt8)
  | 0, cs => if cs.isEmpty then some [] else none
  | _ + 1, [] => some []
  | fuel + 1, c :: rest =>
    if c == '\\' then do
      let (meaning, after) ← read? false rest
      let more ← bytesWith fuel after
      match meaning with
      | .code n => some (UInt8.ofNat n :: more)
      | .joined => some more
      | .backslash => some (UInt8.ofNat c.toNat :: more)
    else (bytesWith fuel rest).map (UInt8.ofNat c.toNat :: ·)

/-- The bytes that a constant stands for; its body is ASCII. -/
def bytes? (content : Literal) : Option (List UInt8) :=
  if !content.body.all (·.toNat < 0x80) then none
  else if content.isRaw then some (content.body.map fun c => UInt8.ofNat c.toNat)
  else bytesWith content.body.length content.body

/-- The text that a part of a constant stands for. -/
def part? (isRaw : Bool) (body : List Char) : Option (List Char) :=
  if isRaw then some body else text? body

end BlockAngular.Rule.Escape
