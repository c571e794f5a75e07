import BlockAngular.Proofs.Rule.Checking
import Mathlib

/-! # Cutting a text into tokens, piece by piece

A text that is made of pieces is cut into the tokens of its pieces, as long as no piece ends
where its last token could go on.
-/

namespace BlockAngular.Rule.Token

/-- Characters that neither separate tokens nor start a comment or a joined line. -/
def isOrdinary (c : Char) : Bool :=
  !(['#', '\n', '\\', ' ', '\t', '\x0c'].contains c)

theorem isOrdinary_iff {c : Char} : isOrdinary c = true ↔
    c ≠ '#' ∧ c ≠ '\n' ∧ c ≠ '\\' ∧ c ≠ ' ' ∧ c ≠ '\t' ∧ c ≠ '\x0c' := by
  simp [isOrdinary]

section Step

variable {fuel : Nat} {opened rest after : List Char} {c : Char}

theorem skipBlanks_of_ordinary (ordinary : isOrdinary c = true) :
    skipBlanks (c :: rest) = c :: rest := by
  obtain ⟨-, -, -, space, tab, feed⟩ := isOrdinary_iff.mp ordinary
  simp [skipBlanks, space, tab, feed]

/-- The blanks that only separate tokens. -/
def isBlank (c : Char) : Bool :=
  [' ', '\t', '\x0c'].contains c

theorem scan_blank (blank : isBlank c = true) :
    scan fuel opened false (c :: rest) = scan fuel opened false rest := by
  have skipped : skipBlanks (c :: rest) = skipBlanks rest := by
    simp only [isBlank, List.contains_iff_mem, List.mem_cons, List.not_mem_nil, or_false] at blank
    rcases blank with rfl | rfl | rfl <;> simp [skipBlanks]
  cases fuel with
  | zero => rfl
  | succ fuel => simp only [scan, Bool.false_eq_true, if_false, skipped]

theorem scan_blanks {gap : List Char} (all : ∀ c ∈ gap, isBlank c = true) :
    scan fuel opened false (gap ++ rest) = scan fuel opened false rest := by
  induction gap with
  | nil => rfl
  | cons c gap ih =>
      obtain ⟨first, others⟩ := List.forall_mem_cons.mp all
      rw [List.cons_append, scan_blank first, ih others]

/-- In brackets a line end only separates tokens. -/
theorem scan_lineEnd {bracket : Char} : scan (fuel + 1) (bracket :: opened) false ('\n' :: rest) =
    scan fuel (bracket :: opened) false rest := by
  have skipped : skipBlanks ('\n' :: rest) = '\n' :: rest := by simp [skipBlanks]
  rw [scan]
  simp [skipped]

theorem scan_literal {mark quoteOn body : List Char} (ordinary : isOrdinary c = true)
    (marked : literalMark? (c :: rest) = some (mark, quoteOn))
    (quoted : quotedBody? quoteOn = some (body, after)) :
    scan (fuel + 1) opened false (c :: rest) =
      (scan fuel opened false after).map (.literal
        { isBytes := mark.contains 'b'
          isRaw := mark.contains 'r'
          isTemplate := mark.contains 'f'
          isMarked := c == 'u'
          body } :: ·) := by
  have skipped : skipBlanks (c :: rest) = c :: rest := skipBlanks_of_ordinary ordinary
  obtain ⟨comment, line, joined, -⟩ := isOrdinary_iff.mp ordinary
  rw [scan]
  simp only [Bool.false_eq_true, if_false, skipped, Option.bind_eq_bind, Option.bind_some]
  split <;> simp_all

/-- At an ordinary character that starts no text stands a number, a word or a symbol. -/
theorem scan_unmarked (ordinary : isOrdinary c = true) (unmarked : literalMark? (c :: rest) = none) :
    scan (fuel + 1) opened false (c :: rest) =
      (if c.isDigit || (c == '.' && rest.head?.any Char.isDigit) then do
        let (value, after) ← number? (c :: rest)
        (scan fuel opened false after).map (.number value :: ·)
      else if isWordChar c then do
        let token ← ofWord? ((c :: rest).takeWhile isWordChar)
        (scan fuel opened false ((c :: rest).dropWhile isWordChar)).map (token :: ·)
      else do
        let symbol ← symbols.find? fun s => startsWith (c :: rest) s.toList
        let opened ← newDepth? opened symbol
        (scan fuel opened false ((c :: rest).drop symbol.length)).map (.symbol symbol :: ·)) := by
  have skipped : skipBlanks (c :: rest) = c :: rest := skipBlanks_of_ordinary ordinary
  obtain ⟨comment, line, joined, -⟩ := isOrdinary_iff.mp ordinary
  rw [scan]
  simp only [Bool.false_eq_true, if_false, skipped, Option.bind_eq_bind, Option.bind_some]
  split <;> simp_all

theorem scan_number {value : Value} (digit : c.isDigit = true)
    (unmarked : literalMark? (c :: rest) = none)
    (number : number? (c :: rest) = some (value, after)) :
    scan (fuel + 1) opened false (c :: rest) =
      (scan fuel opened false after).map (.number value :: ·) := by
  have ordinary : isOrdinary c = true := by
    rw [isOrdinary_iff]
    refine ⟨?_, ?_, ?_, ?_, ?_, ?_⟩ <;> rintro rfl <;> cases digit
  rw [scan_unmarked ordinary unmarked]
  simp [digit, number]

theorem scan_word {token : Token} (start : isWordChar c = true) (noDigit : c.isDigit = false)
    (unmarked : literalMark? (c :: rest) = none)
    (word : ofWord? ((c :: rest).takeWhile isWordChar) = some token) :
    scan (fuel + 1) opened false (c :: rest) =
      (scan fuel opened false ((c :: rest).dropWhile isWordChar)).map (token :: ·) := by
  have ordinary : isOrdinary c = true := by
    rw [isOrdinary_iff]
    refine ⟨?_, ?_, ?_, ?_, ?_, ?_⟩ <;> rintro rfl <;> revert start <;> decide
  have noPoint : c ≠ '.' := by
    rintro rfl
    revert start
    decide
  rw [scan_unmarked ordinary unmarked, word]
  simp [noDigit, noPoint, start]

theorem scan_symbol {symbol : String} (ordinary : isOrdinary c = true)
    (noWord : isWordChar c = false) (noNumber : c = '.' → ∀ d ∈ rest.head?, d.isDigit = false)
    (unmarked : literalMark? (c :: rest) = none)
    (found : symbols.find? (fun s => startsWith (c :: rest) s.toList) = some symbol) :
    scan (fuel + 1) opened false (c :: rest) =
      (newDepth? opened symbol).bind fun opened' =>
        (scan fuel opened' false ((c :: rest).drop symbol.length)).map (.symbol symbol :: ·) := by
  have noDigit : c.isDigit = false := by
    simp only [isWordChar, Char.isAlphanum, Bool.or_eq_false_iff] at noWord
    exact noWord.1.1.2
  have noFraction : (c == '.' && rest.head?.any Char.isDigit) = false := by
    by_cases point : c = '.'
    · cases rest with
      | nil => simp
      | cons d rest => simpa [point] using noNumber point
    · simp [point]
  rw [scan_unmarked ordinary unmarked]
  simp [noDigit, noFraction, noWord, found]

end Step

section Marks

variable {c d : Char} {rest : List Char}

theorem ofList_eq_iff {cs : List Char} {s : String} : String.ofList cs = s ↔ cs = s.toList := by
  constructor
  · rintro rfl
    simp
  · rintro rfl
    simp

/-- The quotes of constants. -/
def isQuote (c : Char) : Bool :=
  c == '"' || c == '\''

/-- The letters that can stand before a quote. -/
def isMarkLetter (c : Char) : Bool :=
  ['b', 'u', 'r', 'f'].contains c.toLower

theorem isMarkLetter_of_one
    (h : ["b", "u", "r", "f"].contains (String.ofList [c.toLower]) = true) :
    isMarkLetter c = true := by
  simp only [List.contains_iff_mem, List.mem_cons, List.not_mem_nil, or_false, ofList_eq_iff] at h
  simpa [isMarkLetter] using h

theorem isMarkLetter_of_two
    (h : ["br", "rb", "fr", "rf"].contains (String.ofList [c.toLower, d.toLower]) = true) :
    isMarkLetter c = true ∧ isMarkLetter d = true := by
  simp only [List.contains_iff_mem, List.mem_cons, List.not_mem_nil, or_false, ofList_eq_iff] at h
  rcases h with h | h | h | h <;>
    · simp at h
      simp [isMarkLetter, h]

/-- No constant starts at a text in which something other than a quote follows on the letters that
can stand before one. -/
theorem literalMark?_eq_none {cs : List Char}
    (h : ∀ q ∈ (cs.dropWhile isMarkLetter).head?, isQuote q = false) : literalMark? cs = none := by
  have plain : ∀ q, isQuote q = true → isMarkLetter q = false := by
    intro q hq
    simp only [isQuote, Bool.or_eq_true, beq_iff_eq] at hq
    rcases hq with rfl | rfl <;> decide
  cases cs with
  | nil => simp [literalMark?]
  | cons c rest =>
      have first : isQuote c = false := by
        by_contra quote
        rw [Bool.not_eq_false] at quote
        simp [plain c quote, quote] at h
      have second : (((c :: rest).drop 1).head?.any isQuote &&
          ["b", "u", "r", "f"].contains (String.ofList [c.toLower])) = false := by
        by_contra both
        rw [Bool.not_eq_false, Bool.and_eq_true] at both
        have letter := isMarkLetter_of_one both.2
        cases rest with
        | nil => simp at both
        | cons q rest =>
            have quote : isQuote q = true := by simpa using both.1
            simp [letter, plain q quote, quote] at h
      have third : (((c :: rest).drop 2).head?.any isQuote && ["br", "rb", "fr", "rf"].contains
          (String.ofList (((c :: rest).take 2).map Char.toLower))) = false := by
        by_contra both
        rw [Bool.not_eq_false, Bool.and_eq_true] at both
        cases rest with
        | nil => simp at both
        | cons d rest =>
            cases rest with
            | nil => simp at both
            | cons q rest =>
                have letters := isMarkLetter_of_two (c := c) (d := d) (by simpa using both.2)
                have quote : isQuote q = true := by simpa using both.1
                simp [letters.1, letters.2, plain q quote, quote] at h
      exact (if_neg (ne_true_of_eq_false first)).trans
        ((if_neg (ne_true_of_eq_false second)).trans (if_neg (ne_true_of_eq_false third)))

end Marks

/-- The text is cut into the tokens wherever it stands before a character with `stop`, or at the
end, if so many brackets more can be opened. -/
def Cuts (stop : Char → Bool) (depth : Nat) (text : List Char) (tokens : List Token) : Prop :=
  ∀ (fuel : Nat) (opened rest : List Char), text.length ≤ fuel → opened.length + depth ≤ 200 →
    (∀ c ∈ rest.head?, stop c = true) → ∃ left, fuel ≤ left + text.length ∧
      scan fuel opened false (text ++ rest) = (scan left opened false rest).map (tokens ++ ·)

/-- The text is cut into the tokens under the brackets that are open. -/
def CutsUnder (opened : List Char) (stop : Char → Bool) (depth : Nat) (text : List Char)
    (tokens : List Token) : Prop :=
  ∀ (fuel : Nat) (rest : List Char), text.length ≤ fuel → opened.length + depth ≤ 200 →
    (∀ c ∈ rest.head?, stop c = true) → ∃ left, fuel ≤ left + text.length ∧
      scan fuel opened false (text ++ rest) = (scan left opened false rest).map (tokens ++ ·)

namespace CutsUnder

variable {opened : List Char} {stop stop' : Char → Bool} {depth depth' : Nat}
  {text text' : List Char} {tokens tokens' : List Token}

theorem weaken (h : CutsUnder opened stop depth text tokens)
    (less : ∀ c, stop' c = true → stop c = true) (deeper : depth ≤ depth') :
    CutsUnder opened stop' depth' text tokens := by
  intro fuel rest enough room stopped
  exact h fuel rest enough (by omega) fun c hc => less c (stopped c hc)

/-- Two pieces, of which the second one starts where the first one can stop. -/
theorem append (h : CutsUnder opened stop depth text tokens)
    (h' : CutsUnder opened stop' depth' text' tokens')
    (meets : ∀ rest : List Char, (∀ c ∈ rest.head?, stop' c = true) →
      ∀ c ∈ (text' ++ rest).head?, stop c = true) :
    CutsUnder opened stop' (max depth depth') (text ++ text') (tokens ++ tokens') := by
  intro fuel rest enough room stopped
  rw [List.length_append] at enough
  obtain ⟨left, used, cut⟩ := h fuel (text' ++ rest) (by omega) (by omega) (meets rest stopped)
  obtain ⟨left', used', cut'⟩ := h' left rest (by omega) (by omega) stopped
  refine ⟨left', by rw [List.length_append]; omega, ?_⟩
  rw [List.append_assoc, cut, cut', Option.map_map]
  congr 1
  funext more
  simp

/-- A piece that starts with a certain character. -/
theorem append_cons {c : Char} (h : CutsUnder opened stop depth text tokens)
    (h' : CutsUnder opened stop' depth' (c :: text') tokens') (meets : stop c = true) :
    CutsUnder opened stop' (max depth depth') (text ++ c :: text') (tokens ++ tokens') :=
  h.append h' fun rest _ d hd => by
    obtain rfl : c = d := by simpa using hd
    exact meets

/-- What separates tokens in brackets can stand anywhere in them. -/
theorem gap {bracket : Char} {gap : List Char} (separates : ∀ c ∈ gap, isBlank c = true ∨ c = '\n') :
    CutsUnder (bracket :: opened) stop depth gap [] := by
  induction gap with
  | nil =>
      intro fuel rest _ _ _
      exact ⟨fuel, by simp, by simp⟩
  | cons c gap ih =>
      obtain ⟨first, others⟩ := List.forall_mem_cons.mp separates
      intro fuel rest enough room stopped
      rw [List.length_cons] at enough ⊢
      rw [List.cons_append]
      obtain blank | rfl := first
      · obtain ⟨left, used, cut⟩ := ih others fuel rest (by omega) room stopped
        exact ⟨left, by omega, by rw [scan_blank blank, cut]⟩
      · obtain ⟨fuel, rfl⟩ : ∃ left, fuel = left + 1 := ⟨fuel - 1, by omega⟩
        obtain ⟨left, used, cut⟩ := ih others fuel rest (by omega) room stopped
        exact ⟨left, by omega, by rw [scan_lineEnd, cut]⟩

end CutsUnder

namespace Cuts

variable {stop stop' : Char → Bool} {depth depth' : Nat} {text text' : List Char}
  {tokens tokens' : List Token}

theorem under (h : Cuts stop depth text tokens) (opened : List Char) :
    CutsUnder opened stop depth text tokens :=
  fun fuel rest => h fuel opened rest

theorem of_under (h : ∀ opened, CutsUnder opened stop depth text tokens) :
    Cuts stop depth text tokens :=
  fun fuel opened rest => h opened fuel rest

theorem nil : Cuts stop depth [] [] := by
  intro fuel opened rest _ _ _
  exact ⟨fuel, by simp, by simp⟩

theorem blanks {gap : List Char} (all : ∀ c ∈ gap, isBlank c = true) : Cuts stop depth gap [] := by
  intro fuel opened rest _ _ _
  exact ⟨fuel, by omega, by simp [scan_blanks all]⟩

theorem blank : Cuts stop depth [' '] [] :=
  blanks (by simp [isBlank])

theorem weaken (h : Cuts stop depth text tokens) (less : ∀ c, stop' c = true → stop c = true)
    (deeper : depth ≤ depth') : Cuts stop' depth' text tokens :=
  of_under fun opened => (h.under opened).weaken less deeper

/-- A piece that is put together in another way. -/
theorem reshape (h : Cuts stop depth text tokens) (sameText : text = text')
    (sameTokens : tokens = tokens') (deeper : depth ≤ depth') : Cuts stop depth' text' tokens' := by
  subst sameText sameTokens
  exact h.weaken (fun _ stopped => stopped) deeper

/-- Two pieces, of which the second one starts where the first one can stop. -/
theorem append (h : Cuts stop depth text tokens) (h' : Cuts stop' depth' text' tokens')
    (meets : ∀ rest : List Char, (∀ c ∈ rest.head?, stop' c = true) →
      ∀ c ∈ (text' ++ rest).head?, stop c = true) :
    Cuts stop' (max depth depth') (text ++ text') (tokens ++ tokens') :=
  of_under fun opened => (h.under opened).append (h'.under opened) meets

/-- A piece that starts with a certain character. -/
theorem append_cons {c : Char} (h : Cuts stop depth text tokens)
    (h' : Cuts stop' depth' (c :: text') tokens') (meets : stop c = true) :
    Cuts stop' (max depth depth') (text ++ c :: text') (tokens ++ tokens') :=
  of_under fun opened => (h.under opened).append_cons (h'.under opened) meets

/-- A symbol that opens and closes nothing is cut off where no longer symbol starts. -/
theorem symbol (c : Char) (cs : List Char) (symbol : String) (spelled : symbol.toList = c :: cs)
    (ordinary : isOrdinary c = true) (noWord : isWordChar c = false) (noQuote : isQuote c = false)
    (letter : isMarkLetter c = false) (level : ∀ opened, newDepth? opened symbol = some opened)
    (ends : symbols.find? (fun s => startsWith (c :: cs) s.toList) = some symbol)
    (stops : ∀ d rest, stop d = true →
      symbols.find? (fun s => startsWith (c :: (cs ++ d :: rest)) s.toList) = some symbol)
    (noNumber : c = '.' → cs = [] ∧ ∀ d, stop d = true → d.isDigit = false) :
    Cuts stop 0 (c :: cs) [.symbol symbol] := by
  intro fuel opened rest enough _ stopped
  obtain ⟨fuel, rfl⟩ : ∃ left, fuel = left + 1 := ⟨fuel - 1, by simp at enough; omega⟩
  have unmarked : literalMark? (c :: (cs ++ rest)) = none :=
    literalMark?_eq_none fun q hq => by
      obtain rfl : c = q := by simpa [letter] using hq
      exact noQuote
  have found : symbols.find? (fun s => startsWith (c :: (cs ++ rest)) s.toList) = some symbol := by
    cases rest with
    | nil => simpa using ends
    | cons d rest => exact stops d rest (stopped d rfl)
  have noFraction : c = '.' → ∀ d ∈ (cs ++ rest).head?, d.isDigit = false := by
    intro point d hd
    obtain ⟨rfl, noDigit⟩ := noNumber point
    exact noDigit d (stopped d hd)
  have length : symbol.length = (c :: cs).length := by rw [← spelled, String.length_toList]
  refine ⟨fuel, by simp, ?_⟩
  rw [List.cons_append, scan_symbol ordinary noWord noFraction unmarked found, level opened,
    Option.bind_some, length, ← List.cons_append, List.drop_left]
  rfl

theorem comma : Cuts stop 0 [','] [.symbol ","] :=
  symbol ',' [] "," (by decide) rfl rfl rfl rfl (fun _ => by simp [newDepth?])
    (by simp [symbols, startsWith]) (fun _ _ _ => by simp [symbols, startsWith]) nofun

/-- A symbol of one or two characters before a blank. -/
theorem spaced (c : Char) (cs : List Char) (s : String) (spelled : s.toList = c :: cs)
    (ordinary : isOrdinary c = true) (noWord : isWordChar c = false) (noQuote : isQuote c = false)
    (letter : isMarkLetter c = false) (level : ∀ opened, newDepth? opened s = some opened)
    (noPoint : c ≠ '.')
    (ends : symbols.find? (fun s => startsWith (c :: cs) s.toList) = some s)
    (stops : ∀ rest,
      symbols.find? (fun s => startsWith (c :: (cs ++ ' ' :: rest)) s.toList) = some s) :
    Cuts (· == ' ') 0 s.toList [.symbol s] := by
  rw [spelled]
  refine symbol c cs s spelled ordinary noWord noQuote letter level ends ?_
    fun point => absurd point noPoint
  intro d rest blank
  rw [eq_of_beq blank]
  exact stops rest

theorem operator {op : BinaryOp} (arithmetic : op.isArithmetic = true) :
    Cuts (· == ' ') 0 op.symbol.toList [.symbol op.symbol] := by
  cases op with
  | add =>
      exact spaced '+' [] "+" rfl (by decide) rfl rfl rfl (fun _ => by simp [newDepth?]) (by decide)
        (by simp [symbols, startsWith]) (by simp [symbols, startsWith])
  | sub =>
      exact spaced '-' [] "-" rfl (by decide) rfl rfl rfl (fun _ => by simp [newDepth?]) (by decide)
        (by simp [symbols, startsWith]) (by simp [symbols, startsWith])
  | mul =>
      exact spaced '*' [] "*" rfl (by decide) rfl rfl rfl (fun _ => by simp [newDepth?]) (by decide)
        (by simp [symbols, startsWith]) (by simp [symbols, startsWith])
  | div =>
      exact spaced '/' [] "/" rfl (by decide) rfl rfl rfl (fun _ => by simp [newDepth?]) (by decide)
        (by simp [symbols, startsWith]) (by simp [symbols, startsWith])
  | floorDiv =>
      exact spaced '/' ['/'] "//" rfl (by decide) rfl rfl rfl (fun _ => by simp [newDepth?])
        (by decide) (by simp [symbols, startsWith]) (by simp [symbols, startsWith])
  | mod =>
      exact spaced '%' [] "%" rfl (by decide) rfl rfl rfl (fun _ => by simp [newDepth?]) (by decide)
        (by simp [symbols, startsWith]) (by simp [symbols, startsWith])
  | pow =>
      exact spaced '*' ['*'] "**" rfl (by decide) rfl rfl rfl (fun _ => by simp [newDepth?])
        (by decide) (by simp [symbols, startsWith]) (by simp [symbols, startsWith])
  | matMul | bitOr | bitXor | bitAnd | shiftLeft | shiftRight => cases arithmetic

theorem sign {op : UnaryOp} (signed : op.isSign = true) :
    Cuts (fun c => c != '=' && c != '>') 0 op.symbol.toList [.symbol op.symbol] := by
  cases op with
  | plus =>
      exact symbol '+' [] "+" (by decide) rfl rfl rfl rfl (fun _ => by simp [newDepth?])
        (by simp [symbols, startsWith]) (by simp +contextual [symbols, startsWith]) nofun
  | minus =>
      exact symbol '-' [] "-" (by decide) rfl rfl rfl rfl (fun _ => by simp [newDepth?])
        (by simp [symbols, startsWith]) (by simp +contextual [symbols, startsWith]) nofun
  | invert | not => cases signed

theorem point : Cuts (fun c => !c.isDigit && c != '.') 0 ['.'] [.symbol "."] :=
  symbol '.' [] "." (by decide) rfl rfl rfl rfl (fun _ => by simp [newDepth?])
    (by simp [symbols, startsWith]) (by simp +contextual [symbols, startsWith])
    fun _ => ⟨rfl, by simp +contextual⟩

theorem find?_bracket {c : Char} {symbol : String}
    (bracket : (c, symbol) ∈ [('(', "("), (')', ")"), ('[', "["), (']', "]")])
    (rest : List Char) :
    symbols.find? (fun s => startsWith (c :: rest) s.toList) = some symbol := by
  simp only [List.mem_cons, Prod.mk.injEq, List.not_mem_nil, or_false] at bracket
  rcases bracket with ⟨rfl, rfl⟩ | ⟨rfl, rfl⟩ | ⟨rfl, rfl⟩ | ⟨rfl, rfl⟩ <;>
    simp [symbols, startsWith]

/-- A bracket is cut off wherever it stands, if the depth allows it. -/
theorem scan_bracket {fuel : Nat} {opened rest : List Char} {c : Char} {symbol : String}
    (bracket : (c, symbol) ∈ [('(', "("), (')', ")"), ('[', "["), (']', "]")]) :
    scan (fuel + 1) opened false (c :: rest) =
      (newDepth? opened symbol).bind fun opened' =>
        (scan fuel opened' false rest).map (.symbol symbol :: ·) := by
  have found := find?_bracket bracket rest
  have outline : isOrdinary c = true ∧ isWordChar c = false ∧ isQuote c = false ∧
      isMarkLetter c = false ∧ c ≠ '.' ∧ symbol.length = 1 := by
    simp only [List.mem_cons, Prod.mk.injEq, List.not_mem_nil, or_false] at bracket
    rcases bracket with ⟨rfl, rfl⟩ | ⟨rfl, rfl⟩ | ⟨rfl, rfl⟩ | ⟨rfl, rfl⟩ <;> decide
  obtain ⟨ordinary, noWord, noQuote, letter, noPoint, length⟩ := outline
  have unmarked : literalMark? (c :: rest) = none := by
    refine literalMark?_eq_none fun q hq => ?_
    obtain rfl : c = q := by simpa [letter] using hq
    exact noQuote
  rw [scan_symbol ordinary noWord (fun point => absurd point noPoint) unmarked found, length]
  rfl

/-- Brackets around a piece. -/
theorem bracketed {left right : Char} {opening closing : String}
    (pair : (left, right, opening, closing) ∈ [('(', ')', "(", ")"), ('[', ']', "[", "]")])
    (h : ∀ opened, CutsUnder (left :: opened) stop depth text tokens) (meets : stop right = true) :
    Cuts stop' (depth + 1) (left :: text ++ [right])
      (.symbol opening :: tokens ++ [.symbol closing]) := by
  intro fuel opened rest enough room _
  have outline : (left, opening) ∈ [('(', "("), (')', ")"), ('[', "["), (']', "]")] ∧
      (right, closing) ∈ [('(', "("), (')', ")"), ('[', "["), (']', "]")] ∧
      newDepth? opened opening = some (left :: opened) ∧
      newDepth? (left :: opened) closing = some opened := by
    have more : opened.length < 200 := by omega
    simp only [List.mem_cons, Prod.mk.injEq, List.not_mem_nil, or_false] at pair
    rcases pair with ⟨rfl, rfl, rfl, rfl⟩ | ⟨rfl, rfl, rfl, rfl⟩ <;>
      simp [newDepth?, more]
  obtain ⟨first, last, pushed, popped⟩ := outline
  simp only [List.cons_append, List.length_cons, List.length_append, List.length_nil] at enough
  obtain ⟨fuel, rfl⟩ : ∃ left, fuel = left + 1 := ⟨fuel - 1, by omega⟩
  obtain ⟨used, spent, cut⟩ := h opened fuel (right :: rest) (by omega)
    (by simp only [List.length_cons]; omega) fun c hc => by
      obtain rfl : right = c := by simpa using hc
      exact meets
  obtain ⟨used, rfl⟩ : ∃ left, used = left + 1 := ⟨used - 1, by omega⟩
  refine ⟨used, by simp; omega, ?_⟩
  have whole : left :: text ++ [right] ++ rest = left :: (text ++ right :: rest) := by simp
  rw [whole, scan_bracket first, pushed, Option.bind_some, cut, scan_bracket last, popped,
    Option.bind_some, Option.map_map, Option.map_map]
  congr 1
  funext more
  simp

theorem brackets {left right : Char} {opening closing : String}
    (pair : (left, right, opening, closing) ∈ [('(', ')', "(", ")"), ('[', ']', "[", "]")])
    (h : Cuts stop depth text tokens) (meets : stop right = true) :
    Cuts stop' (depth + 1) (left :: text ++ [right])
      (.symbol opening :: tokens ++ [.symbol closing]) :=
  bracketed pair (fun opened => h.under (left :: opened)) meets

end Cuts
end BlockAngular.Rule.Token
