import BlockAngular.Text.NameTables
import BlockAngular.Text.Normal

/-! # Characters by their names

The character of a name, or of one of its other names. Hangul syllables are named by
their parts, and ideographs and some other letters by their code points; all other names
are looked up in tables, where capital and small letters do not differ.
-/

namespace BlockAngular.Text

/-- The number of shared words that a mark of the tables stands for. -/
def sharedWords? (c : Char) : Option Nat :=
  "!$%&*+<>@~".toList.idxOf? c

/-- The entries of a table: each with the number of words that it shares, and the rest. -/
def nameEntries (lines : List String) : List (Nat × List Char) :=
  let step (c : Char) : List Char × List (Nat × List Char) → List Char × List (Nat × List Char)
    | (body, entries) =>
      match sharedWords? c with
      | some shared => ([], (shared, body) :: entries)
      | none => (c :: body, entries)
  ((lines.flatMap String.toList).foldr step ([], [])).2

/-- The place of the second letter of an abbreviation. -/
def abbreviationDigit (c : Char) : Nat :=
  if c.isDigit then c.toNat - '0'.toNat + 26 else c.toNat - 'a'.toNat

/-- The words of an entry. The second argument is the beginning of a word that is spelled
    out, in reverse. -/
def nameWords (abbreviated : Array (List Char)) : List Char → List Char → List (List Char)
  | [], spelled => finish spelled []
  | c :: rest, spelled =>
    if c == '.' then finish spelled (nameWords abbreviated rest [])
    else if c < 'a' then nameWords abbreviated rest (c :: spelled)
    else if c < 'g' then
      finish spelled (word (c.toNat - 'a'.toNat) :: nameWords abbreviated rest [])
    else
      match rest with
      | [] => finish spelled []
      | d :: rest =>
        finish spelled (word (6 + 36 * (c.toNat - 'g'.toNat) + abbreviationDigit d) ::
          nameWords abbreviated rest [])
where
  /-- End the word that is spelled out, if there is one. -/
  finish (spelled : List Char) (words : List (List Char)) : List (List Char) :=
    if spelled.isEmpty then words else spelled.reverse :: words
  /-- The word at a place among the abbreviated ones. -/
  word (place : Nat) : List Char :=
    (abbreviated[place]?).getD []

/-- Look a name up among entries. The arguments at the end are the code point that comes
    next and the words of the entry before. -/
def findEntry (abbreviated : Array (List Char)) (name : List (List Char)) :
    List (Nat × List Char) → Nat → List (List Char) → Option Nat
  | [], _, _ => none
  | (shared, body) :: rest, next, before =>
    let (code, body) :=
      if body.contains ':' then
        (hexValue (body.takeWhile (· != ':')), (body.dropWhile (· != ':')).drop 1)
      else (next, body)
    let words := before.take shared ++ nameWords abbreviated body []
    if words == name then some code else findEntry abbreviated name rest (code + 1) words

/-- The code point that is written at the end of a name, if the name starts as given and
    the digits are those of a code point between the bounds. -/
def codeInName? (start : String) (bounds : Array Nat) (name : List Char) : Option Nat :=
  let digits := name.drop start.length
  let code := hexValue digits
  if name.take start.length == start.toList && (digits.length == 4 || digits.length == 5) &&
      digits.all (fun c => c.isDigit || ('A' ≤ c && c ≤ 'F')) && inBounds bounds code then
    some code
  else none
where
  /-- Whether a code point lies in one of the ranges that the bounds delimit. -/
  inBounds (bounds : Array Nat) (code : Nat) : Bool :=
    bounds.foldl (fun inside bound => if bound ≤ code then !inside else inside) false

/-- The bounds of the unified ideographs. -/
def ideographBounds : Array Nat :=
  #[0x3400, 0x4DC0, 0x4E00, 0xA000, 0x20000, 0x2A6E0, 0x2A700, 0x2B739, 0x2B740, 0x2B81E,
    0x2B820, 0x2CEA2, 0x2CEB0, 0x2EBE1, 0x30000, 0x3134B]

/-- The names, apart from those of the unified ideographs, that end with code points. -/
def namesWithCodes : List (String × Array Nat) :=
  [("CJK COMPATIBILITY IDEOGRAPH-",
      #[0xF900, 0xFA6E, 0xFA70, 0xFADA, 0x2F800, 0x2FA1E]),
    ("KHITAN SMALL SCRIPT CHARACTER-", #[0x18B00, 0x18CD6]),
    ("NUSHU CHARACTER-", #[0x1B170, 0x1B2FC])]

/-- The longest of some texts that others start with: its place and its length. -/
def longestStart? (texts : List String) (cs : List Char) : Option (Nat × Nat) :=
  texts.zipIdx.foldl (fun best (text, place) =>
    if text.toList.isPrefixOf cs && best.all (fun (_, length) => length < text.length) then
      some (place, text.length)
    else best) none

/-- The code point of the Hangul syllable with the given parts one after the other. -/
def hangulSyllable? (parts : List Char) : Option Nat := do
  let (lead, length) ← longestStart? ["G", "GG", "N", "D", "DD", "R", "M", "B", "BB", "S", "SS",
    "", "J", "JJ", "C", "K", "T", "P", "H"] parts
  let parts := parts.drop length
  let (vowel, length) ← longestStart? ["A", "AE", "YA", "YAE", "EO", "E", "YEO", "YE", "O", "WA",
    "WAE", "OE", "YO", "U", "WEO", "WE", "WI", "YU", "EU", "YI", "I"] parts
  let parts := parts.drop length
  let (tail, length) ← longestStart? ["", "G", "GG", "GS", "N", "NJ", "NH", "D", "L", "LG", "LM",
    "LB", "LS", "LT", "LP", "LH", "M", "B", "BS", "S", "SS", "NG", "J", "C", "K", "T", "P",
    "H"] parts
  if parts.length == length then some (0xAC00 + (lead * 21 + vowel) * 28 + tail) else none

/-- The code point of a name in the tables, which has capital letters. -/
def codeInTables? (name : List Char) : Option Nat :=
  let abbreviated := (nameWordLines.flatMap fun line => line.toList.splitOn ' ').toArray
  let words := name.splitOn ' '
  (findEntry abbreviated words (nameEntries nameLines) 0 []).or
    (findEntry abbreviated words (nameEntries aliasLines) 0 [])

/-- The code point of the character of a name. Names by rule have capital letters. -/
def codeOfName? (name : List Char) : Option Nat :=
  let hangul := "HANGUL SYLLABLE "
  let ideograph := "CJK UNIFIED IDEOGRAPH-"
  if hangul.toList.isPrefixOf name then hangulSyllable? (name.drop hangul.length)
  else if ideograph.toList.isPrefixOf name then codeInName? ideograph ideographBounds name
  else
    let name := name.map Char.toUpper
    let written := namesWithCodes.findSome? fun (start, bounds) =>
      if (name.drop start.length).head? == some '0' then none else codeInName? start bounds name
    written.or (codeInTables? name)

end BlockAngular.Text
