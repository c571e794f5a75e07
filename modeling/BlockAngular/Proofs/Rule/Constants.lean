import BlockAngular.Proofs.Rule.Scanning
import BlockAngular.Rule.Escape
import BlockAngular.Value.Text

/-! # Names and constants are read back

An integer is read back from its digits and a text from its quoted form. Digits have no zero in
front, and the escapes of a quoted text undo what was escaped, the quote chosen for it included.
-/

namespace BlockAngular.Rule

namespace Token

section Words

variable {word : List Char}

theorem isWordChar_of_start {c : Char} (h : Text.isIdentifierStart c = true) :
    isWordChar c = true ∧ c.isDigit = false := by
  unfold Text.isIdentifierStart at h
  split at h <;> rename_i size
  · rw [Bool.or_eq_true, beq_iff_eq] at h
    rcases h with letter | rfl
    · refine ⟨by simp [isWordChar, Char.isAlphanum, letter], ?_⟩
      simp only [Char.isAlpha, Char.isUpper, Char.isLower, Bool.or_eq_true, Bool.and_eq_true,
        decide_eq_true_eq] at letter
      simp only [Char.isDigit, Bool.and_eq_false_iff, decide_eq_false_iff_not]
      right
      have nine : '9'.val.toNat = 57 := rfl
      have upper : 'A'.val.toNat = 65 := rfl
      have lower : 'a'.val.toNat = 97 := rfl
      simp only [ge_iff_le, UInt32.le_iff_toNat_le] at letter ⊢
      omega
    · decide
  · have large : 128 ≤ c.toNat := by omega
    refine ⟨by simp [isWordChar, large], ?_⟩
    simp only [Char.isDigit, Bool.and_eq_false_iff, decide_eq_false_iff_not]
    right
    have nine : '9'.val.toNat = 57 := rfl
    have code : c.toNat = c.val.toNat := rfl
    simp only [UInt32.le_iff_toNat_le]
    omega

theorem isWordChar_of_part {c : Char} (h : Text.isIdentifierPart c = true) :
    isWordChar c = true := by
  unfold Text.isIdentifierPart at h
  split at h <;> rename_i size
  · rw [Bool.or_eq_true] at h
    rcases h with letter | line
    · simp [isWordChar, letter]
    · simp [isWordChar, line]
  · have large : 128 ≤ c.toNat := by omega
    simp [isWordChar, large]

theorem isWordChar_of_markLetter {c : Char} (h : isMarkLetter c = true) :
    isWordChar c = true := by
  by_cases upper : c.isUpper = true
  · simp [isWordChar, Char.isAlphanum, Char.isAlpha, upper]
  · have same : c.toLower = c := by
      simp only [Char.isUpper, decide_eq_true_eq] at upper
      exact dif_neg upper
    simp only [isMarkLetter, same, List.contains_iff_mem, List.mem_cons, List.not_mem_nil,
      or_false] at h
    rcases h with rfl | rfl | rfl | rfl <;> decide

theorem isMarkLetter_of_digit {c : Char} (h : c.isDigit = true) : isMarkLetter c = false := by
  have same : c.toLower = c := by
    refine dif_neg ?_
    simp only [Char.isDigit, Bool.and_eq_true, decide_eq_true_eq] at h
    have nine : '9'.val.toNat = 57 := rfl
    have upper : 'A'.val.toNat = 65 := rfl
    simp only [ge_iff_le, UInt32.le_iff_toNat_le] at h ⊢
    omega
  by_contra letter
  simp only [isMarkLetter, same, Bool.not_eq_false, List.contains_iff_mem, List.mem_cons,
    List.not_mem_nil, or_false] at letter
  rcases letter with rfl | rfl | rfl | rfl <;> revert h <;> decide

theorem isQuote_of_word {c : Char} (h : isWordChar c = true) : isQuote c = false := by
  by_contra quote
  rw [Bool.not_eq_false, isQuote, Bool.or_eq_true, beq_iff_eq, beq_iff_eq] at quote
  rcases quote with rfl | rfl <;> revert h <;> decide

/-- The characters of a word up to its end. -/
theorem takeWhile_word {rest : List Char} (chars : ∀ c ∈ word, isWordChar c = true)
    (stopped : ∀ c ∈ rest.head?, isWordChar c = false) :
    (word ++ rest).takeWhile isWordChar = word ∧ (word ++ rest).dropWhile isWordChar = rest := by
  have ends : rest.takeWhile isWordChar = [] ∧ rest.dropWhile isWordChar = rest := by
    cases rest with
    | nil => simp
    | cons c rest => simp [stopped c rfl]
  rw [List.takeWhile_append_of_pos chars, List.dropWhile_append_of_pos chars, ends.1, ends.2]
  simp

/-- A word that is an identifier or a keyword. -/
theorem Cuts.of_word (c : Char) (word : List Char) {token : Token} (start : isWordChar c = true)
    (noDigit : c.isDigit = false) (chars : ∀ d ∈ word, isWordChar d = true)
    (read : ofWord? (c :: word) = some token) :
    Cuts (fun d => !isWordChar d && !isQuote d) 0 (c :: word) [token] := by
  intro fuel opened rest enough _ stopped
  obtain ⟨fuel, rfl⟩ : ∃ left, fuel = left + 1 := ⟨fuel - 1, by simp at enough; omega⟩
  have all : ∀ d ∈ c :: word, isWordChar d = true := List.forall_mem_cons.mpr ⟨start, chars⟩
  have unmarked : literalMark? (c :: (word ++ rest)) = none := by
    refine literalMark?_eq_none fun q hq => ?_
    rw [← List.cons_append, List.dropWhile_append] at hq
    split at hq
    · cases rest with
      | nil => simp at hq
      | cons d rest =>
          have stop := stopped d rfl
          simp only [Bool.and_eq_true, Bool.not_eq_true'] at stop
          have first : isMarkLetter d = false := by
            by_contra letter
            rw [Bool.not_eq_false] at letter
            rw [isWordChar_of_markLetter letter] at stop
            cases stop.1
          obtain rfl : d = q := by simpa [first] using hq
          exact stop.2
    · rename_i kept
      rw [List.isEmpty_iff] at kept
      rw [List.head?_append_of_ne_nil _ kept] at hq
      exact isQuote_of_word (all q ((List.dropWhile_sublist _).mem (List.mem_of_mem_head? hq)))
  obtain ⟨taken, dropped⟩ := takeWhile_word all fun d hd => by
    have stop := stopped d hd
    simp only [Bool.and_eq_true, Bool.not_eq_true'] at stop
    exact stop.1
  refine ⟨fuel, by simp, ?_⟩
  rw [List.cons_append] at taken dropped ⊢
  rw [scan_word start noDigit unmarked (by rw [taken]; exact read), dropped]
  rfl

/-- An identifier starts with a character of words that is no digit. -/
theorem exists_start {id : String} {token : String} (read : ofWord? id.toList = some (.name token)) :
    ∃ c word, id.toList = c :: word ∧ isWordChar c = true ∧ c.isDigit = false ∧
      ∀ d ∈ word, isWordChar d = true := by
  have identifier : Text.isIdentifier id.toList = true := by
    simp only [ofWord?] at read
    split at read
    · cases read
    · split at read
      · assumption
      · cases read
  cases chars : id.toList with
  | nil =>
      rw [chars] at identifier
      cases identifier
  | cons c word =>
      simp only [chars, Text.isIdentifier, Bool.and_eq_true, List.all_eq_true] at identifier
      obtain ⟨start, noDigit⟩ := isWordChar_of_start identifier.1
      exact ⟨c, word, rfl, start, noDigit, fun d hd => isWordChar_of_part (identifier.2 d hd)⟩

/-- An identifier that is read as itself. -/
theorem Cuts.name {id : String} (read : ofWord? id.toList = some (.name id)) :
    Cuts (fun d => !isWordChar d && !isQuote d) 0 id.toList [.name id] := by
  obtain ⟨c, word, chars, start, noDigit, more⟩ := exists_start read
  rw [chars] at read ⊢
  exact .of_word c word start noDigit more read

end Words

section Integers

variable {ds rest : List Char}

theorem digitRun_append {isDigit : Char → Bool} (word : ∀ c, isDigit c = true → isWordChar c = true)
    (digits : ∀ c ∈ ds, isDigit c = true) (stopped : ∀ c ∈ rest.head?, isWordChar c = false) :
    digitRun isDigit (ds ++ rest) = some (ds, rest) := by
  induction ds with
  | nil =>
      cases rest with
      | nil => rfl
      | cons c rest =>
          have stop := stopped c rfl
          have noDigit : isDigit c = false := by
            by_contra digit
            rw [word c (Bool.not_eq_false _ ▸ digit)] at stop
            cases stop
          simp only [isWordChar, Bool.or_eq_false_iff] at stop
          simp [digitRun, noDigit, stop.1.2]
  | cons d ds ih =>
      obtain ⟨digit, more⟩ := List.forall_mem_cons.mp digits
      simp [digitRun, digit, ih more]

theorem isWordChar_of_digit {c : Char} (digit : c.isDigit = true) : isWordChar c = true := by
  simp [isWordChar, Char.isAlphanum, digit]

theorem numberOf_digits (digits : ∀ c ∈ ds, c.isDigit = true) :
    numberOf 10 ds = Nat.ofDigitChars 10 ds 0 := by
  unfold numberOf Nat.ofDigitChars
  refine List.foldl_ext _ _ _ fun n c hc => ?_
  rw [digitOf, if_pos (digits c hc)]
  rfl

/-- No zero stands in front of the digits of a positive number. -/
theorem head?_digits {n : Nat} (positive : 0 < n) : (DecimalText.digits n).head? ≠ some '0' := by
  unfold DecimalText.digits
  induction n using Nat.strongRecOn with
  | ind n ih =>
    by_cases small : n < 10
    · have first : ∀ d < 10, 0 < d → [Nat.digitChar d].head? ≠ some '0' := by decide
      rw [Nat.toDigits_of_lt_base small]
      exact first n small positive
    · rw [Nat.toDigits_of_base_le (by decide) (by omega),
        List.head?_append_of_ne_nil _ Nat.toDigits_ne_nil]
      exact ih (n / 10) (by omega) (by omega)

theorem endsNumber_of_stop (stopped : ∀ c ∈ rest.head?, isWordChar c = false) :
    endsNumber rest = true := by
  cases rest with
  | nil => rfl
  | cons c rest => simp [endsNumber, stopped c rfl]

theorem exists_digit (n : Nat) :
    ∃ d ds, DecimalText.digits n = d :: ds ∧ d.isDigit = true := by
  cases shown : DecimalText.digits n with
  | nil => exact absurd shown Nat.toDigits_ne_nil
  | cons d ds =>
      have listed : d ∈ Nat.toDigits 10 n := by
        rw [← DecimalText.digits, shown]
        exact List.mem_cons_self
      exact ⟨d, ds, rfl, Nat.isDigit_of_mem_toDigits (by decide) (by decide) listed⟩

theorem length_digits {n : Nat} (k : Nat) (positive : 0 < k) (h : n < Nat.pow 10 k) :
    (DecimalText.digits n).length ≤ k :=
  (Nat.length_toDigits_le_iff (by decide) positive).mpr h

theorem finish_digits {n : Nat} (double : Float) (short : n < Value.tooLong)
    (stopped : ∀ c ∈ rest.head?, isWordChar c = false) :
    decimal?.finish false (DecimalText.digits n) none double rest = some (.int n, rest) := by
  have ends := endsNumber_of_stop stopped
  have digits : ∀ c ∈ DecimalText.digits n, c.isDigit = true :=
    fun c hc => Nat.isDigit_of_mem_toDigits (by decide) (by decide) hc
  have length : (DecimalText.digits n).length ≤ Value.maxDigits := by
    unfold Value.tooLong at short
    exact length_digits Value.maxDigits (by decide) short
  have value : numberOf 10 (DecimalText.digits n) = n := by
    rw [numberOf_digits digits]
    exact Nat.ofDigitChars_ten_toDigits
  rcases Nat.eq_zero_or_pos n with rfl | positive
  · simp [decimal?.finish, ends, DecimalText.digits]
  · have first := head?_digits positive
    have nonzero : (DecimalText.digits n).all (· == '0') = false := by
      cases shown : DecimalText.digits n with
      | nil => exact absurd shown Nat.toDigits_ne_nil
      | cons d ds =>
          rw [shown] at first
          have other : (d == '0') = false := by simpa using first
          simp [other]
    have noZero : ((DecimalText.digits n).head? == some '0') = false := by simpa using first
    simp only [decimal?.finish, ends, nonzero, noZero, value, Nat.not_lt.mpr length, Bool.not_true,
      Bool.false_eq_true, Option.isSome_none, Bool.or_self, if_false]

theorem decimal?_digits {n : Nat} (short : n < Value.tooLong)
    (stopped : ∀ c ∈ rest.head?, isWordChar c = false ∧ c ≠ '.') :
    decimal? (DecimalText.digits n ++ rest) = some (.int n, rest) := by
  have words : ∀ c ∈ rest.head?, isWordChar c = false := fun c hc => (stopped c hc).1
  have digits : ∀ c ∈ DecimalText.digits n, c.isDigit = true :=
    fun c hc => Nat.isDigit_of_mem_toDigits (by decide) (by decide) hc
  have run := digitRun_append (fun _ => isWordChar_of_digit) digits words
  have finish := fun double : Float => finish_digits double short words
  unfold decimal?
  cases rest with
  | nil =>
      rw [List.append_nil] at run ⊢
      simp [run, exponent?, finish]
  | cons c rest =>
      obtain ⟨noWord, noPoint⟩ := stopped c rfl
      have letters : c ≠ 'e' ∧ c ≠ 'E' ∧ c ≠ 'j' ∧ c ≠ 'J' := by
        refine ⟨?_, ?_, ?_, ?_⟩ <;> rintro rfl <;> revert noWord <;> decide
      simp [run, exponent?, finish, letters, noPoint]

theorem number?_digits {n : Nat} (short : n < Value.tooLong)
    (stopped : ∀ c ∈ rest.head?, isWordChar c = false ∧ c ≠ '.') :
    number? (DecimalText.digits n ++ rest) = some (.int n, rest) := by
  rw [← decimal?_digits short stopped]
  rcases Nat.eq_zero_or_pos n with rfl | positive
  · cases rest with
    | nil => rfl
    | cons c rest =>
        have noWord := (stopped c rfl).1
        have letters : c ≠ 'x' ∧ c ≠ 'X' ∧ c ≠ 'o' ∧ c ≠ 'O' ∧ c ≠ 'b' ∧ c ≠ 'B' := by
          refine ⟨?_, ?_, ?_, ?_, ?_, ?_⟩ <;> rintro rfl <;> revert noWord <;> decide
        simp [DecimalText.digits, number?, letters]
  · have first := head?_digits positive
    cases shown : DecimalText.digits n with
    | nil => exact absurd shown Nat.toDigits_ne_nil
    | cons d ds =>
        have other : d ≠ '0' := by
          rw [shown] at first
          simpa using first
        simp [number?, other]

/-- An integer that is short enough to be read. -/
theorem Cuts.integer {n : Nat} (short : n < Value.tooLong) :
    Cuts (fun d => !isWordChar d && d != '.') 0 (DecimalText.digits n) [.number (.int n)] := by
  intro fuel opened rest enough _ stopped
  have read : number? (DecimalText.digits n ++ rest) = some (.int n, rest) :=
    number?_digits short fun c hc => by simpa using stopped c hc
  obtain ⟨d, ds, shown, digit⟩ := exists_digit n
  rw [shown, List.length_cons] at enough
  rw [shown, List.cons_append] at read
  rw [shown]
  obtain ⟨fuel, rfl⟩ : ∃ left, fuel = left + 1 := ⟨fuel - 1, by omega⟩
  have word := isWordChar_of_digit digit
  have unmarked : literalMark? (d :: (ds ++ rest)) = none := by
    refine literalMark?_eq_none fun q hq => ?_
    obtain rfl : d = q := by simpa [isMarkLetter_of_digit digit] using hq
    exact isQuote_of_word word
  refine ⟨fuel, by simp, ?_⟩
  rw [List.cons_append, scan_number digit unmarked read]
  rfl

end Integers

section Texts

variable {quote c : Char} {text body rest after chunk : List Char}

theorem hexDigit_plain : ∀ n < 16, isHexDigit (Text.hexDigit n) = true ∧
    isQuote (Text.hexDigit n) = false ∧ Text.hexDigit n ≠ '\n' ∧ Text.hexDigit n ≠ '\\' ∧
      digitOf (Text.hexDigit n) = n := by
  decide

theorem mem_hexDigits {width n : Nat} (h : c ∈ Text.hexDigits width n) :
    ∃ k < 16, c = Text.hexDigit k := by
  induction width generalizing n with
  | zero => cases h
  | succ width ih =>
      rcases List.mem_append.mp h with earlier | last
      · exact ih earlier
      · exact ⟨n % 16, Nat.mod_lt _ (by decide), List.mem_singleton.mp last⟩

theorem length_hexDigits (width n : Nat) : (Text.hexDigits width n).length = width := by
  induction width generalizing n with
  | zero => rfl
  | succ width ih => simp [Text.hexDigits, ih]

theorem numberOf_hexDigits {width n : Nat} (small : n < 16 ^ width) :
    numberOf 16 (Text.hexDigits width n) = n := by
  induction width generalizing n with
  | zero =>
      obtain rfl : n = 0 := by simpa using small
      rfl
  | succ width ih =>
      have front : n / 16 < 16 ^ width := by
        rw [Nat.pow_succ] at small
        exact Nat.div_lt_of_lt_mul (by omega)
      have value := ih front
      have last := (hexDigit_plain (n % 16) (Nat.mod_lt _ (by decide))).2.2.2.2
      unfold numberOf at value ⊢
      rw [Text.hexDigits, List.foldl_append, value, List.foldl_cons, List.foldl_nil, last]
      omega

theorem quotedRun_plain (plain : ∀ c ∈ chunk, c ≠ quote ∧ c ≠ '\n' ∧ c ≠ '\\')
    (run : quotedRun quote rest = some (body, after)) :
    quotedRun quote (chunk ++ rest) = some (chunk ++ body, after) := by
  induction chunk with
  | nil => exact run
  | cons c chunk ih =>
      obtain ⟨⟨noQuote, noLine, noSlash⟩, more⟩ := List.forall_mem_cons.mp plain
      simp [quotedRun, noQuote, noLine, noSlash, ih more]

theorem quotedRun_escape (run : quotedRun quote rest = some (body, after)) :
    quotedRun quote ('\\' :: c :: rest) = some ('\\' :: c :: body, after) := by
  simp [quotedRun, run]

/-- A character is taken with the whole of its escape. -/
theorem quotedRun_char (isQuoted : isQuote quote = true)
    (run : quotedRun quote rest = some (body, after)) :
    quotedRun quote (Text.quotedChar quote c ++ rest) =
      some (Text.quotedChar quote c ++ body, after) := by
  have digits (width : Nat) : ∀ d ∈ Text.hexDigits width c.toNat,
      d ≠ quote ∧ d ≠ '\n' ∧ d ≠ '\\' := by
    intro d hd
    obtain ⟨k, small, rfl⟩ := mem_hexDigits hd
    obtain ⟨-, noQuote, noLine, noSlash, -⟩ := hexDigit_plain k small
    refine ⟨?_, noLine, noSlash⟩
    rintro rfl
    rw [isQuoted] at noQuote
    cases noQuote
  by_cases self : c = quote ∨ c = '\\'
  · simp [Text.quotedChar, self, quotedRun_escape run]
  · obtain ⟨noQuote, noSlash⟩ := not_or.mp self
    unfold Text.quotedChar Text.codeEscape
    split_ifs with h₁ h₂ h₃ h₄ h₅ h₆ h₇
    · exact quotedRun_escape run
    · exact quotedRun_escape run
    · exact quotedRun_escape run
    · exact quotedRun_escape run
    · refine quotedRun_plain ?_ run
      have noLine : c ≠ '\n' := by simpa using h₃
      simp [noQuote, noSlash, noLine]
    · exact quotedRun_escape (quotedRun_plain (digits 2) run)
    · exact quotedRun_escape (quotedRun_plain (digits 4) run)
    · exact quotedRun_escape (quotedRun_plain (digits 8) run)

theorem quotedRun_text (text rest : List Char) (isQuoted : isQuote quote = true) :
    quotedRun quote (text.flatMap (Text.quotedChar quote) ++ quote :: rest) =
      some (text.flatMap (Text.quotedChar quote), rest) := by
  induction text with
  | nil =>
      have noSlash : quote ≠ '\\' := by
        rintro rfl
        cases isQuoted
      simp [quotedRun, noSlash]
  | cons c text ih =>
      rw [List.flatMap_cons, List.append_assoc]
      exact quotedRun_char isQuoted ih

end Texts

end Token

namespace Escape

section Texts

variable {quote c : Char} {rest more : List Char} {fuel : Nat}

theorem charOf?_toNat : charOf? c.toNat = some c := by
  have valid : c.toNat.isValidChar := c.valid
  rw [charOf?, dif_pos valid]
  exact congrArg some (Char.ext rfl)

theorem hexCode?_hexDigits (width : Nat) {n : Nat} (small : n < 16 ^ width) :
    hexCode? width (Text.hexDigits width n ++ rest) = some (n, rest) := by
  have length := Token.length_hexDigits width n
  have digits : (Text.hexDigits width n).all Token.isHexDigit = true := by
    refine List.all_eq_true.mpr fun d hd => ?_
    obtain ⟨k, small, rfl⟩ := Token.mem_hexDigits hd
    exact (Token.hexDigit_plain k small).1
  have taken : (Text.hexDigits width n ++ rest).take width = Text.hexDigits width n :=
    List.take_left' length
  have dropped : (Text.hexDigits width n ++ rest).drop width = rest :=
    List.drop_left' length
  simp [hexCode?, taken, dropped, length, digits, Token.numberOf_hexDigits small]

theorem read?_codeEscape {n : Nat} (small : n < 16 ^ 8) {chunk : List Char}
    (shown : Text.codeEscape n = '\\' :: chunk) :
    read? true (chunk ++ rest) = some (.code n, rest) := by
  unfold Text.codeEscape at shown
  split_ifs at shown with h₁ h₂
  · obtain rfl := (List.cons.inj shown).2
    simp [read?, simple?, isOctalDigit, hexCode?_hexDigits 2 h₁]
  · obtain rfl := (List.cons.inj shown).2
    simp [read?, simple?, isOctalDigit, hexCode?_hexDigits 4 h₂]
  · obtain rfl := (List.cons.inj shown).2
    simp [read?, simple?, isOctalDigit, hexCode?_hexDigits 8 small]

/-- An escape of a character is read as the character. -/
theorem textWith_escape {cs : List Char} (escape : read? true cs = some (.code c.toNat, rest))
    (h : textWith fuel rest = some more) : textWith (fuel + 1) ('\\' :: cs) = some (c :: more) := by
  simp [textWith, escape, h, charOf?_toNat]

theorem textWith_char (isQuoted : Token.isQuote quote = true)
    (h : textWith fuel rest = some more) :
    textWith (fuel + 1) (Text.quotedChar quote c ++ rest) = some (c :: more) := by
  have code : c.toNat < 16 ^ 8 := by
    have := c.val.toNat_lt
    have same : c.toNat = c.val.toNat := rfl
    omega
  by_cases self : c = quote ∨ c = '\\'
  · have escape : read? true (c :: rest) = some (.code c.toNat, rest) := by
      simp only [Token.isQuote, Bool.or_eq_true, beq_iff_eq] at isQuoted
      rcases isQuoted with rfl | rfl <;> rcases self with rfl | rfl <;> simp [read?, simple?]
    simp only [Text.quotedChar, Bool.or_eq_true, beq_iff_eq, if_pos self]
    exact textWith_escape escape h
  · obtain ⟨noQuote, noSlash⟩ := not_or.mp self
    unfold Text.quotedChar
    split_ifs with h₁ h₂ h₃ h₄ h₅
    · simp [self] at h₁
    · obtain rfl := eq_of_beq h₂
      exact textWith_escape (by simp [read?, simple?]) h
    · obtain rfl := eq_of_beq h₃
      exact textWith_escape (by simp [read?, simple?]) h
    · obtain rfl := eq_of_beq h₄
      exact textWith_escape (by simp [read?, simple?]) h
    · simp [textWith, noSlash, h]
    · cases shown : Text.codeEscape c.toNat with
      | nil => 
          unfold Text.codeEscape at shown
          split_ifs at shown
      | cons d chunk =>
          obtain rfl : d = '\\' := by
            unfold Text.codeEscape at shown
            split_ifs at shown <;> exact (List.cons.inj shown).1.symm
          exact textWith_escape (read?_codeEscape code shown) h

theorem textWith_text {text : List Char} (isQuoted : Token.isQuote quote = true)
    (enough : text.length ≤ fuel) :
    textWith fuel (text.flatMap (Text.quotedChar quote)) = some text := by
  induction text generalizing fuel with
  | nil => cases fuel <;> rfl
  | cons c text ih =>
      obtain ⟨fuel, rfl⟩ : ∃ left, fuel = left + 1 := ⟨fuel - 1, by simp at enough; omega⟩
      rw [List.flatMap_cons]
      exact textWith_char isQuoted (ih (by simpa using enough))

theorem length_quotedChar (quote c : Char) : 1 ≤ (Text.quotedChar quote c).length := by
  unfold Text.quotedChar Text.codeEscape
  split_ifs <;> simp

/-- The body of a quoted text is read as the text. -/
theorem text?_quoted (text : List Char) (isQuoted : Token.isQuote quote = true) :
    text? (text.flatMap (Text.quotedChar quote)) = some text := by
  refine textWith_text isQuoted ?_
  induction text with
  | nil => exact Nat.le_refl _
  | cons c text ih =>
      have first := length_quotedChar quote c
      simp only [List.flatMap_cons, List.length_append, List.length_cons]
      omega

end Texts

end Escape

namespace Token

/-- The quote that is chosen for a text is one. -/
theorem isQuote_quoteFor (text : List Char) : isQuote (Text.quoteFor text) = true := by
  unfold Text.quoteFor
  split <;> decide

section Literals

variable {quote c : Char} {rest : List Char}

theorem quotedChar_cons (isQuoted : isQuote quote = true) :
    ∃ d ds, Text.quotedChar quote c = d :: ds ∧ d ≠ quote := by
  have noSlash : '\\' ≠ quote := by
    rintro rfl
    cases isQuoted
  unfold Text.quotedChar Text.codeEscape
  split_ifs with h₁ h₂ h₃ h₄ h₅ h₆ h₇
  · exact ⟨_, _, rfl, noSlash⟩
  · exact ⟨_, _, rfl, noSlash⟩
  · exact ⟨_, _, rfl, noSlash⟩
  · exact ⟨_, _, rfl, noSlash⟩
  · refine ⟨_, _, rfl, ?_⟩
    rintro rfl
    simp at h₁
  · exact ⟨_, _, rfl, noSlash⟩
  · exact ⟨_, _, rfl, noSlash⟩
  · exact ⟨_, _, rfl, noSlash⟩

/-- The quotes of a text are not tripled. -/
theorem quotedBody?_quoted (text rest : List Char) (stopped : ∀ c ∈ rest.head?, isQuote c = false) :
    quotedBody? (Text.quoted text ++ rest) =
      some (text.flatMap (Text.quotedChar (Text.quoteFor text)), rest) := by
  have isQuoted := isQuote_quoteFor text
  have run := quotedRun_text text rest isQuoted
  have single : startsWith (text.flatMap (Text.quotedChar (Text.quoteFor text)) ++
      Text.quoteFor text :: rest) [Text.quoteFor text, Text.quoteFor text] = false := by
    cases text with
    | nil =>
        cases rest with
        | nil => simp [startsWith]
        | cons d rest =>
            have noQuote := stopped d rfl
            have other : d ≠ Text.quoteFor [] := by
              rintro rfl
              rw [isQuoted] at noQuote
              cases noQuote
            simp [startsWith, other]
    | cons c text =>
        obtain ⟨d, ds, shown, other⟩ := quotedChar_cons (c := c) isQuoted
        simp [startsWith, shown, other]
  simp [Text.quoted, quotedBody?, single, run]

/-- A quoted text, with or without the mark of Unicode text. -/
theorem Cuts.quoted (text : List Char) (marked : Bool) :
    Cuts (fun c => !isQuote c) 0 (if marked then 'u' :: Text.quoted text else Text.quoted text)
      [.literal
        { isBytes := false
          isRaw := false
          isTemplate := false
          isMarked := marked
          body := text.flatMap (Text.quotedChar (Text.quoteFor text)) }] := by
  intro fuel opened rest enough _ stopped
  have isQuoted := isQuote_quoteFor text
  have body := quotedBody?_quoted text rest fun c hc => by simpa using stopped c hc
  have start : ∃ more, Text.quoted text = Text.quoteFor text :: more := ⟨_, rfl⟩
  obtain ⟨more, shown⟩ := start
  have noMark : (Text.quoteFor text == 'u') = false := by
    refine beq_false_of_ne fun same => ?_
    rw [same] at isQuoted
    cases isQuoted
  have ordinary : isOrdinary (Text.quoteFor text) = true := by
    simp only [isQuote, Bool.or_eq_true, beq_iff_eq] at isQuoted
    rcases isQuoted with same | same <;> rw [same] <;> decide
  rw [shown, List.cons_append] at body
  rw [shown] at enough ⊢
  obtain ⟨fuel, rfl⟩ : ∃ left, fuel = left + 1 :=
    ⟨fuel - 1, by cases marked <;> simp at enough <;> omega⟩
  cases marked with
  | true =>
      have mark : literalMark? ('u' :: Text.quoteFor text :: (more ++ rest)) =
          some (['u'], Text.quoteFor text :: (more ++ rest)) := by
        simp only [isQuote] at isQuoted
        simp [literalMark?, isQuoted]
      refine ⟨fuel, by simp, ?_⟩
      simp only [if_true, List.cons_append]
      rw [scan_literal (by decide) mark body]
      rfl
  | false =>
      have mark : literalMark? (Text.quoteFor text :: (more ++ rest)) =
          some ([], Text.quoteFor text :: (more ++ rest)) := by
        simp only [isQuote] at isQuoted
        simp [literalMark?, isQuoted]
      refine ⟨fuel, by simp, ?_⟩
      simp only [Bool.false_eq_true, if_false, List.cons_append]
      rw [scan_literal ordinary mark body, noMark]
      rfl

end Literals

end Token

end BlockAngular.Rule
