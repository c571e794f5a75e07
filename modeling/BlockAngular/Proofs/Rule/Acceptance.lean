import BlockAngular.Proofs.Rule.RoundTrip

/-! # What the checker accepts

Ids are accepted by the kinds of their nodes, with one exception: an integer that is too long to be
written out is refused wherever it stands.
-/

namespace BlockAngular

namespace Rule.Token

variable {ds : List Char}

theorem isWordChar_of_hexDigit {c : Char} (digit : isHexDigit c = true) : isWordChar c = true := by
  have letters : 'a'.val.toNat = 97 ∧ 'f'.val.toNat = 102 ∧ 'A'.val.toNat = 65 ∧
      'F'.val.toNat = 70 ∧ 'z'.val.toNat = 122 ∧ 'Z'.val.toNat = 90 := by decide
  simp only [isHexDigit, Bool.or_eq_true, Bool.and_eq_true, decide_eq_true_eq, Char.le_def,
    UInt32.le_iff_toNat_le] at digit
  rcases digit with (digit | small) | capital
  · exact isWordChar_of_digit digit
  · have lower : c.isLower = true := by
      simp only [Char.isLower, Bool.and_eq_true, decide_eq_true_eq, ge_iff_le,
        UInt32.le_iff_toNat_le]
      omega
    simp [isWordChar, Char.isAlphanum, Char.isAlpha, lower]
  · have upper : c.isUpper = true := by
      simp only [Char.isUpper, decide_eq_true_eq, ge_iff_le, UInt32.le_iff_toNat_le]
      omega
    simp [isWordChar, Char.isAlphanum, Char.isAlpha, upper]

/-- An integer in base sixteen, of any length. -/
theorem Cuts.hexadecimal (some : ds ≠ []) (digits : ∀ d ∈ ds, isHexDigit d = true) :
    Cuts (fun d => !isWordChar d) 0 ('0' :: 'x' :: ds) [.number (.int (numberOf 16 ds))] := by
  intro fuel opened rest enough _ stopped
  have words : ∀ c ∈ rest.head?, isWordChar c = false := fun c hc => by simpa using stopped c hc
  have run := digitRun_append (fun _ => isWordChar_of_hexDigit) digits words
  have read : number? ('0' :: 'x' :: (ds ++ rest)) = .some (.int (numberOf 16 ds), rest) := by
    simp [number?, basedInteger?, run, some, endsNumber_of_stop words]
  have unmarked : literalMark? ('0' :: 'x' :: (ds ++ rest)) = none :=
    literalMark?_eq_none fun q hq => by
      obtain rfl : '0' = q := by simpa [isMarkLetter] using hq
      decide
  rw [List.length_cons] at enough
  obtain ⟨fuel, rfl⟩ : ∃ left, fuel = left + 1 := ⟨fuel - 1, by omega⟩
  refine ⟨fuel, by simp, ?_⟩
  exact scan_number rfl unmarked read

theorem numberOf_ones (n : Nat) : numberOf 16 (List.replicate n 'f') + 1 = 16 ^ n := by
  induction n with
  | zero => rfl
  | succ n ih =>
      have last : digitOf 'f' = 15 := by decide
      rw [List.replicate_succ', numberOf, List.foldl_append, List.foldl_cons, List.foldl_nil, last,
        ← numberOf]
      omega

end Rule.Token

namespace Classifier

/-- The checker accepts an id if every node of it is allowed and its numbers can be written, and
rules with accepted ids fail at a call only on the data. -/
theorem checker_matches_evaluator (provided : Rule.Scope) :
    (∀ (text : String) (captures : List String) (id : Rule.Expr),
      Rule.Destination.Reads text id → ∀ d : Rule.Destination,
        Rule.Destination.ofText text captures provided = .ok d ↔ d = .subproblem id ∧
          id.all (Rule.Expr.isAllowed (Rule.Destination.isKnown captures provided)) = true ∧
            id.all Rule.Expr.isWritableHere = true) ∧
      ∀ (lines : List String) (classifier : Classifier),
        ofLines lines provided = .ok classifier → ∀ rule ∈ classifier.rules, ∀ key : Key,
          rule.matchesKey key = true → rule.Decides classifier key :=
  ⟨fun _ _ _ reads _ => Rule.Destination.ofText_of_reads reads,
    fun _ _ compiled _ listed _ matched => decides_of_ofLines compiled listed matched⟩

theorem capturedName_decided :
    Rule.Destination.Reads (Rule.Destination.callText "m") (.name "m") ∧
      Rule.Destination.ofText (Rule.Destination.callText "m") ["m"] [] =
        .ok (.subproblem (.name "m")) ∧
      ∃ classifier rule, ofLines ["x[m] => subproblem(m)"] [] = .ok classifier ∧
        rule ∈ classifier.rules ∧ rule.matchesKey ⟨"x", [.int 1]⟩ = true ∧
          rule.Decides classifier ⟨"x", [.int 1]⟩ := by
  have reads : Rule.Destination.Reads (Rule.Destination.callText "m") (.name "m") :=
    Rule.Destination.reads_name (by decide)
  have accepted := ((checker_matches_evaluator []).1 _ ["m"] _ reads (.subproblem (.name "m"))).mpr
    ⟨rfl, by decide, by decide⟩
  have matching : ((ofLines ["x[m] => subproblem(m)"] []).toOption.any fun classifier =>
      classifier.rules.any (·.matchesKey ⟨"x", [.int 1]⟩)) = true := by decide +kernel
  cases compiled : ofLines ["x[m] => subproblem(m)"] [] with
  | error e => simp [compiled, Except.toOption] at matching
  | ok classifier =>
      obtain ⟨rule, listed, matched⟩ : ∃ rule ∈ classifier.rules,
          rule.matchesKey ⟨"x", [.int 1]⟩ = true := by
        simpa [compiled, Except.toOption] using matching
      exact ⟨reads, accepted, classifier, rule, rfl, listed, matched,
        (checker_matches_evaluator []).2 _ _ compiled rule listed _ matched⟩

end Classifier

namespace Rule.Destination

open Token (numberOf)

theorem reads_hexadecimal {ds : List Char} (some : ds ≠ [])
    (digits : ∀ d ∈ ds, Token.isHexDigit d = true) :
    Reads (callText (String.ofList ('0' :: 'x' :: ds)))
      (.constant (.int (numberOf 16 ds)) false) := by
  have ends : ∀ c, Printer.isEnd c = true → (!Token.isWordChar c) = true := by
    intro c hc
    have stopped := ends_digit c hc
    simp only [Bool.and_eq_true] at stopped
    exact stopped.1
  have kept : ('0' :: 'x' :: ds).all Printer.isKept = true := by
    have mark : Printer.isKept '0' = true ∧ Printer.isKept 'x' = true := by decide
    refine List.all_eq_true.mpr (List.forall_mem_cons.mpr ⟨mark.1, List.forall_mem_cons.mpr
      ⟨mark.2, fun d hd => ?_⟩⟩)
    exact Printer.isKept_of_word (Token.isWordChar_of_hexDigit (digits d hd))
  have number : Parser.ReadsPrimary [.number (.int (numberOf 16 ds))]
      (.constant (.int (numberOf 16 ds)) false) :=
    Parser.readsPrimary_single rfl fun _ _ _ => by simp [Parser.atom]
  exact reads_of_cuts ((Token.Cuts.hexadecimal some digits).weaken ends (Nat.le_refl _)) (by decide)
    kept number.power.factor.term.sum.test (by simp)

theorem unwritable_of_long {n : Nat} (long : Value.tooLong ≤ n) :
    (Expr.constant (.int n) false).all Expr.isWritableHere = false := by
  simp [Expr.all, Expr.isWritableHere, Value.isWritable, long]

/-- The digits of an integer that can be read, but is too long to be written out. -/
def longDigits : List Char :=
  List.replicate 4000 'f'

/-- Every node of the integer `0xf…f` is allowed, but with 4000 digits it is refused. -/
theorem longInteger_refused :
    Reads (callText (String.ofList ('0' :: 'x' :: longDigits)))
        (.constant (.int (numberOf 16 longDigits)) false) ∧
      (Expr.constant (.int (numberOf 16 longDigits)) false).all
          (Expr.isAllowed (isKnown [] [])) = true ∧
        ofText (callText (String.ofList ('0' :: 'x' :: longDigits))) [] [] =
          .error (.fault .badValue) := by
  have count : longDigits.length = 4000 := List.length_replicate
  have digits : ∀ d ∈ longDigits, Token.isHexDigit d = true := by
    intro d hd
    rw [List.eq_of_mem_replicate hd]
    decide
  have value : numberOf 16 longDigits + 1 = 16 ^ 4000 := Token.numberOf_ones 4000
  have long : Value.tooLong < 16 ^ 4000 := by decide +kernel
  have reads := reads_hexadecimal (List.ne_nil_of_length_pos (by omega)) digits
  exact ⟨reads, rfl, ofText_unwritten reads rfl (unwritable_of_long (by omega))⟩

end Rule.Destination

end BlockAngular
