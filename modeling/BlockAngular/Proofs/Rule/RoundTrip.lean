import BlockAngular.Proofs.Rule.Reading
import BlockAngular.Proofs.Rule.Leaves
import BlockAngular.Proofs.Rule.Compiled

/-! # The source of a rule stands for its id

The source that a destination shows is read again as the same id.
-/

namespace BlockAngular.Rule

namespace Token

section Scan

variable {fuel : Nat} {opened cs : List Char} {fresh : Bool} {ts : List Token}

theorem unifyLineEnds_kept (h : cs.all Printer.isKept = true) : unifyLineEnds cs = cs := by
  induction cs with
  | nil => rfl
  | cons c cs ih =>
      simp only [List.all_cons, Bool.and_eq_true, Printer.isKept, bne_iff_ne] at h
      rw [unifyLineEnds, ih h.2]
      · simp [h.1.1]
      · rintro rest rfl
        exact absurd rfl h.1.1

/-- A line that starts with a token is not indented. -/
theorem scan_fresh {c : Char} (ordinary : isOrdinary c = true) :
    scan (fuel + 1) opened true (c :: cs) = scan (fuel + 1) opened false (c :: cs) := by
  have skipped : skipBlanks (c :: cs) = c :: cs := skipBlanks_of_ordinary ordinary
  obtain ⟨comment, line, joined, space, tab, feed⟩ := isOrdinary_iff.mp ordinary
  have margin : margin? 0 0 (c :: cs) = some (0, c :: cs) := by
    simp [margin?, space, tab, feed, joined]
  rw [scan, scan]
  simp only [Bool.false_eq_true, if_false, if_true, skipped, margin]
  simp [joined]

/-- A text that is made of one piece is cut into its tokens. -/
theorem Cuts.ofText? {stop : Char → Bool} {depth : Nat} {c : Char} {cs : List Char}
    {ts : List Token} (h : Cuts stop depth (c :: cs) ts) (ordinary : isOrdinary c = true)
    (kept : (c :: cs).all Printer.isKept = true) (shallow : depth ≤ 200) :
    ofText? (c :: cs) = some ts ∧ ts.length ≤ (c :: cs).length := by
  obtain ⟨left, used, cut⟩ := h ((c :: cs).length + 1) [] [] (by omega) (by simpa using shallow)
    (by simp)
  obtain ⟨left, rfl⟩ : ∃ more, left = more + 1 := ⟨left - 1, by omega⟩
  have ends : scan (left + 1) [] false [] = some [] := by simp [scan, skipBlanks]
  rw [List.append_nil, ends] at cut
  have whole : scan ((c :: cs).length + 1) [] false (c :: cs) = some ts := by simpa using cut
  refine ⟨?_, Nat.le_of_lt_succ (scan_read whole).1⟩
  rw [Token.ofText?, unifyLineEnds_kept kept, scan_fresh ordinary, whole]

end Scan

end Token

namespace Destination

/-- The text of a call of `subproblem` with an id. -/
def callText (source : String) : String :=
  "subproblem(" ++ source ++ ")"

section Call

variable {id : Expr}

theorem callText_toList (source : List Char) : (callText (String.ofList source)).toList =
    's' :: ("ubproblem(".toList ++ source ++ [')']) := by
  simp [callText, String.toList_append]

open Printer (tokens testLevel nesting)

theorem trimBlanks_call (middle : List Char) :
    Text.trimBlanks ('s' :: (middle ++ [')'])) = 's' :: (middle ++ [')']) := by
  have first : Text.isBlank 's' = false := by decide
  have last : Text.isBlank ')' = false := by decide
  simp [Text.trimBlanks, first, last]

theorem nonzero_of_kept {cs : List Char} (kept : cs.all Printer.isKept = true) :
    cs.any (·.toNat == 0) = false := by
  refine List.any_eq_false.mpr fun c hc zero => ?_
  have keeps := List.all_eq_true.mp kept c hc
  simp only [Printer.isKept, Bool.and_eq_true, bne_iff_ne] at keeps
  exact keeps.2 (eq_of_beq zero)

theorem kept_call {cs : List Char} (kept : cs.all Printer.isKept = true) :
    ('s' :: ("ubproblem(".toList ++ cs ++ [')'])).all Printer.isKept = true := by
  have outer : Printer.isKept 's' = true ∧ "ubproblem(".toList.all Printer.isKept = true ∧
      Printer.isKept ')' = true := by decide
  rw [List.all_cons, List.all_append, List.all_append, kept, outer.1, outer.2.1]
  exact outer.2.2

theorem readTrimmed_call {cs : List Char} (kept : cs.all Printer.isKept = true)
    (unreadable : String → Error) : readTrimmed (callText (String.ofList cs)) unreadable =
      (Expr.ofText? ('s' :: ("ubproblem(".toList ++ cs ++ [')']))).elim
        (.error (unreadable (callText (String.ofList cs))))
        fun e => .ok (callText (String.ofList cs), e) := by
  have shown : String.ofList ('s' :: ("ubproblem(".toList ++ cs ++ [')'])) =
      callText (String.ofList cs) := by
    rw [← callText_toList, String.ofList_toList]
  simp only [readTrimmed, callText_toList, trimBlanks_call, nonzero_of_kept (kept_call kept), shown,
    Bool.false_eq_true, if_false]
  cases Expr.ofText? ('s' :: ("ubproblem(".toList ++ cs ++ [')'])) <;> rfl

/-- A text that is cut into the tokens of an id is read as the id in a call. -/
theorem reads_of_cuts {cs : List Char} {ts : List Token} {depth : Nat}
    (inside : Token.Cuts Printer.isEnd depth cs ts) (shallow : depth < 200)
    (kept : cs.all Printer.isKept = true) (test : Parser.ReadsTest ts id)
    (symbols : Parser.OnlyIdSymbols ts) : Reads (callText (String.ofList cs)) id := by
  have name : Token.ofWord? "subproblem".toList = some (.name "subproblem") :=
    isOwnName_iff.mp (by decide)
  have cut : Token.Cuts (fun _ => true) 200 ('s' :: ("ubproblem(".toList ++ cs ++ [')']))
      (.name "subproblem" :: .symbol "(" :: ts ++ [.symbol ")"]) := by
    refine ((Token.Cuts.name name).append_cons
      (Token.Cuts.brackets List.mem_cons_self inside rfl) rfl).reshape ?_ rfl ?_
    · simp
    · simp only [Nat.zero_max]
      omega
  have keptWhole := kept_call kept
  obtain ⟨cutWhole, count⟩ := Token.Cuts.ofText? cut (by decide) keptWhole (Nat.le_refl _)
  have read : Expr.ofText? ('s' :: ("ubproblem(".toList ++ cs ++ [')'])) =
      some (.call (.name "subproblem") [id] []) := by
    rw [Expr.ofText?, cutWhole]
    refine Parser.whole?_call test symbols ?_
    simp only [List.length_cons, List.length_append, List.length_nil] at count ⊢
    omega
  refine ⟨callText (String.ofList cs), ?_⟩
  rw [readTrimmed_call kept, read]
  rfl

/-- The source of an id is read as the id in a call, if its brackets do not nest too deeply. -/
theorem reads_source (spelled : id.Spelled) (shallow : nesting testLevel id < 200) :
    Reads (callText (String.ofList id.text)) id :=
  reads_of_cuts
    ((Printer.fits spelled testLevel).weaken (fun _ stopped => Printer.stops_of_isEnd stopped)
      (Nat.le_refl _))
    shallow (Printer.kept_text spelled testLevel)
    (Parser.readsTest_tokens spelled)
    (Parser.onlyIdSymbols_tokens spelled testLevel)

/-- A text is read as one id only. -/
theorem Reads.unique {text : String} {id' : Expr} (h : Reads text id) (h' : Reads text id') :
    id = id' := by
  obtain ⟨shown, read⟩ := h
  obtain ⟨shown', read'⟩ := h'
  have same := Except.ok.inj (read.symm.trans read')
  injection same with _ same
  injection same with _ same _
  exact (List.cons.inj same).1

end Call

section Source

variable {text text' : String} {captures captures' : List String} {provided provided' : Scope}
  {id id' : Expr}

/-- Ids whose sources are read again: the constants are plain, the names are read as themselves,
and the brackets do not nest too deeply. -/
structure IsSourced (id : Expr) : Prop where
  plain : id.all Expr.isPlain = true
  names : id.all Expr.hasOwnNames = true
  shallow : Printer.nesting Printer.testLevel id < 200

theorem spelled_of_ofText (h : ofText text captures provided = .ok (.subproblem id))
    (sourced : IsSourced id) : id.Spelled := by
  have reads := reads_of_ofText h
  obtain ⟨-, allowed, writable⟩ := (ofText_of_reads reads).mp h
  have accepted := Expr.accepted_of_all id allowed
  exact accepted.spelled sourced.names sourced.plain (accepted.all_isRead reads) writable

/-- The source of an accepted id is accepted as the same id. -/
theorem ofText_source (h : ofText text captures provided = .ok (.subproblem id))
    (sourced : IsSourced id) :
    ofText (callText (String.ofList id.text)) captures provided = .ok (.subproblem id) := by
  have checked := (ofText_of_reads (reads_of_ofText h)).mp h
  have reads := reads_source (spelled_of_ofText h sourced) sourced.shallow
  exact (ofText_of_reads reads).mpr checked

/-- The source tells accepted ids apart. -/
theorem eq_of_source (h : ofText text captures provided = .ok (.subproblem id))
    (h' : ofText text' captures' provided' = .ok (.subproblem id')) (sourced : IsSourced id)
    (sourced' : IsSourced id')
    (same : source? (.subproblem id) = source? (.subproblem id')) : id = id' := by
  have reads := reads_source (spelled_of_ofText h sourced) sourced.shallow
  have reads' := reads_source (spelled_of_ofText h' sourced') sourced'.shallow
  have texts : String.ofList id.text = String.ofList id'.text := by simpa [source?] using same
  rw [← texts] at reads'
  exact reads.unique reads'

theorem reads_name {name : String} (own : isOwnName name = true) :
    Reads (callText name) (.name name) := by
  have reads := reads_source (.name own) (Nat.zero_lt_succ _)
  rwa [Expr.text, Printer.text, String.ofList_toList] at reads

/-- Brackets around an id are not in its source. -/
theorem reads_bracketed (spelled : id.Spelled)
    (shallow : Printer.nesting Printer.testLevel id + 1 < 200) :
    Reads (callText (String.ofList ('(' :: id.text ++ [')']))) id := by
  have inside : Token.Cuts Printer.isEnd (Printer.nesting Printer.testLevel id) id.text
      (Printer.tokens Printer.testLevel id) :=
    (Printer.fits spelled Printer.testLevel).weaken
      (fun _ stopped => Printer.stops_of_isEnd stopped) (Nat.le_refl _)
  have symbols := Parser.onlyIdSymbols_tokens spelled Printer.testLevel
  have test := Parser.readsTest_tokens spelled
  have operand := test.bracketed symbols (Parser.isStarred_of_spelled spelled)
  have kept : (Printer.bracketed 1 0 id.text).all Printer.isKept = true :=
    Printer.kept_bracketed (Printer.kept_text spelled Printer.testLevel)
  have both : Parser.OnlyIdSymbols
      (Printer.bracketedTokens 1 0 (Printer.tokens Printer.testLevel id)) :=
    Parser.onlyIdSymbols_bracketed symbols
  exact reads_of_cuts (.brackets List.mem_cons_self inside rfl) shallow kept
    operand.power.factor.term.sum.test both

/-- The source of an accepted id is accepted again, is the source of what is read from it, and
stands for an expression with the same value or error in every scope; and ids with the same
source classify alike. -/
theorem source_denotes_id (h : ofText text captures provided = .ok (.subproblem id))
    (sourced : IsSourced id) :
    (∃ (source : String) (read : Expr), source? (.subproblem id) = some source ∧
      ofText (callText source) captures provided = .ok (.subproblem read) ∧
        source? (.subproblem read) = some source ∧
          ∀ scope, read.evaluate scope = id.evaluate scope) ∧
    ∀ (text' : String) (captures' : List String) (provided' : Scope) (id' : Expr),
      ofText text' captures' provided' = .ok (.subproblem id') → IsSourced id' →
        source? (.subproblem id) = source? (.subproblem id') →
          ∀ (rule : Rule) (scope : Scope) (index : List Value),
            Rule.block { rule with destination := .subproblem id } scope index =
              Rule.block { rule with destination := .subproblem id' } scope index := by
  constructor
  · exact ⟨_, id, rfl, ofText_source h sourced, rfl, fun _ => rfl⟩
  · intro text' captures' provided' id' h' sourced' same rule scope index
    rw [eq_of_source h h' sourced sourced' same]

theorem bracketedName_denotes_id :
    ofText (callText "(m)") ["m"] [] = .ok (.subproblem (.name "m")) ∧
      ofText (callText "m") [] [("m", .int 1)] = .ok (.subproblem (.name "m")) ∧
        IsSourced (.name "m") ∧
          (∃ (source : String) (read : Expr), source? (.subproblem (.name "m")) = some source ∧
            ofText (callText source) ["m"] [] = .ok (.subproblem read) ∧
              source? (.subproblem read) = some source ∧
                ∀ scope, read.evaluate scope = (Expr.name "m").evaluate scope) ∧
          ∀ (rule : Rule) (scope : Scope) (index : List Value),
            Rule.block { rule with destination := .subproblem (.name "m") } scope index =
              Rule.block { rule with destination := .subproblem (.name "m") } scope index := by
  have own : isOwnName "m" = true := by decide
  have inBrackets : ofText (callText "(m)") ["m"] [] = .ok (.subproblem (.name "m")) :=
    (ofText_of_reads (reads_bracketed (.name own) (by decide))).mpr ⟨rfl, by decide, by decide⟩
  have alone : ofText (callText "m") [] [("m", .int 1)] = .ok (.subproblem (.name "m")) :=
    (ofText_of_reads (reads_name own)).mpr ⟨rfl, by decide, by decide⟩
  have sourced : IsSourced (.name "m") := ⟨by decide, by decide, by decide⟩
  exact ⟨inBrackets, alone, sourced,
    (source_denotes_id inBrackets sourced).1,
    (source_denotes_id inBrackets sourced).2 _ _ _ _ alone sourced rfl⟩

end Source

/-! ## A source that nests too deeply

A sign in an exponent has no brackets where it is written, but has them in the source.
-/

section Deep

open Printer (testLevel tokens)
open Token (Cuts)

/-- `n` subscripts around an id. -/
def nested : Nat → Expr → Expr
  | 0, e => e
  | n + 1, e => .subscript (.name "x") (nested n e)

/-- `n` subscripts around a text. -/
def nestedText : Nat → List Char → List Char
  | 0, cs => cs
  | n + 1, cs => ['x'] ++ ('[' :: nestedText n cs ++ [']'])

def nestedTokens : Nat → List Token → List Token
  | 0, ts => ts
  | n + 1, ts => [.name "x"] ++ (.symbol "[" :: nestedTokens n ts ++ [.symbol "]"])

/-- The power `2**-1`. -/
def inverse : Expr :=
  .binary .pow (.constant (.int 2) false) (.unary .minus (.constant (.int 1) false))

variable {n depth room : Nat} {cs : List Char} {ts : List Token} {e : Expr}

theorem own_x : isOwnName "x" = true := by decide

theorem cuts_x : Cuts (fun d => !Token.isWordChar d && !Token.isQuote d) 0 ['x'] [.name "x"] :=
  .name (isOwnName_iff.mp own_x)

theorem cuts_nested (h : Cuts Printer.isEnd depth cs ts) :
    Cuts Printer.isEnd (depth + n) (nestedText n cs) (nestedTokens n ts) := by
  induction n with
  | zero => exact h
  | succ n ih =>
      have inside : Cuts Printer.isEnd (depth + n + 1) ('[' :: nestedText n cs ++ [']'])
          (.symbol "[" :: nestedTokens n ts ++ [.symbol "]"]) :=
        .brackets (List.mem_cons_of_mem _ List.mem_cons_self) ih rfl
      refine (cuts_x.append_cons inside rfl).reshape rfl rfl ?_
      omega

theorem kept_nested (h : cs.all Printer.isKept = true) :
    (nestedText n cs).all Printer.isKept = true := by
  have outer : Printer.isKept 'x' = true ∧ Printer.isKept '[' = true ∧
      Printer.isKept ']' = true := by decide
  induction n with
  | zero => exact h
  | succ n ih => simp [nestedText, ih, outer]

theorem reads_nested (h : Parser.ReadsItem ts e) :
    Parser.ReadsItem (nestedTokens n ts) (nested n e) := by
  induction n with
  | zero => exact h
  | succ n ih =>
      have name : Parser.ReadsPrimary [.name "x"] (.name "x") :=
        Parser.readsPrimary_single rfl fun _ _ _ => by simp [Parser.atom]
      have brackets : Parser.isIdSymbol "[" = true ∧ Parser.isIdSymbol "]" = true := by decide
      exact ⟨(name.subscript ih.index).power.factor.term.sum.test,
        by simp [nestedTokens, ih.symbols, brackets], rfl⟩

theorem text_nested : (nested n inverse).text = nestedText n "2 ** (-1)".toList := by
  induction n with
  | zero => decide
  | succ n ih =>
      have inside : Printer.indexText (nested n inverse) = (nested n inverse).text := by
        cases n <;> rfl
      rw [nested, Expr.text, Printer.text_subscript, inside, ih]
      rfl

theorem all_nested {p : Expr → Bool} (name : p (.name "x") = true)
    (subscript : ∀ index, p (.subscript (.name "x") index) = true) (h : e.all p = true) :
    (nested n e).all p = true := by
  induction n with
  | zero => exact h
  | succ n ih => simp [nested, Expr.all, name, subscript, ih]

/-- The tokens of the power as it is written without brackets. -/
def inverseTokens : List Token :=
  [.number (.int 2), .symbol "**", .symbol "-", .number (.int 1)]

theorem reads_inverse : Parser.ReadsItem inverseTokens inverse := by
  have number : ∀ k : Int, Parser.ReadsPrimary [.number (.int k)] (.constant (.int k) false) :=
    fun k => Parser.readsPrimary_single rfl fun _ _ _ => by simp [Parser.atom]
  have symbols : Parser.isIdSymbol "**" = true ∧ Parser.isIdSymbol "-" = true := by decide
  exact ⟨((number 2).pow ((number 1).power.factor.sign .minus rfl)).factor.term.sum.test,
    by simp [inverseTokens, symbols], rfl⟩

theorem cuts_digit (k : Nat) (small : k < 10) :
    Cuts (fun d => !Token.isWordChar d && d != '.') 0 (DecimalText.digits k) [.number (.int k)] := by
  have digits : 10 ≤ Value.tooLong := by decide +kernel
  exact .integer (Nat.lt_of_lt_of_le small digits)

theorem cuts_power : Cuts (fun d => d != '=') 0 ['*', '*'] [.symbol "**"] := by
  refine .symbol '*' ['*'] "**" rfl (by decide) rfl rfl rfl
    (fun _ => by simp [Token.newDepth?]) (by decide) ?_ nofun
  intro d rest other
  simp [Token.symbols, Token.startsWith, bne_iff_ne.mp other]

theorem ends_digit (c : Char) (ends : Printer.isEnd c = true) :
    (!Token.isWordChar c && c != '.') = true := by
  simp only [Printer.isEnd, List.contains_iff_mem, List.mem_cons, List.not_mem_nil, or_false]
    at ends
  rcases ends with rfl | rfl | rfl | rfl | rfl <;> decide

theorem cuts_inverse : Cuts Printer.isEnd 0 "2**-1".toList inverseTokens := by
  have sign : Cuts (fun d => !Token.isWordChar d && d != '.') 0 ['-', '1']
      [.symbol "-", .number (.int 1)] :=
    (Cuts.sign (show UnaryOp.minus.isSign = true from rfl)).append_cons (cuts_digit 1 (by decide)) rfl
  have power : Cuts (fun d => !Token.isWordChar d && d != '.') 0 ['*', '*', '-', '1']
      [.symbol "**", .symbol "-", .number (.int 1)] := cuts_power.append_cons sign rfl
  have whole := (cuts_digit 2 (by decide)).append_cons power rfl
  exact (whole.weaken ends_digit (Nat.le_refl _)).reshape rfl rfl (Nat.le_refl _)

/-- A text that opens more brackets than the depth has room for. -/
def Overflows (room : Nat) (cs : List Char) : Prop :=
  ∀ (fuel : Nat) (opened rest : List Char), cs.length ≤ fuel → opened.length + room = 200 →
    Token.scan fuel opened false (cs ++ rest) = none

theorem overflows_bracket : Overflows 0 ['('] := by
  intro fuel opened rest enough deep
  obtain ⟨fuel, rfl⟩ : ∃ left, fuel = left + 1 := ⟨fuel - 1, by simp at enough; omega⟩
  have full : Token.newDepth? opened "(" = none := by
    simp only [Nat.add_zero] at deep
    simp [Token.newDepth?, deep]
  rw [List.cons_append, Token.Cuts.scan_bracket List.mem_cons_self, full]
  rfl

/-- Brackets around it need more room. -/
theorem Overflows.brackets {left right : Char} {opening closing : String}
    (pair : (left, right, opening, closing) ∈ [('(', ')', "(", ")"), ('[', ']', "[", "]")])
    (h : Overflows room cs) : Overflows (room + 1) (left :: cs) := by
  intro fuel opened rest enough deep
  have outline : (left, opening) ∈ [('(', "("), (')', ")"), ('[', "["), (']', "]")] ∧
      Token.newDepth? opened opening = some (left :: opened) := by
    have more : opened.length < 200 := by omega
    simp only [List.mem_cons, Prod.mk.injEq, List.not_mem_nil, or_false] at pair
    rcases pair with ⟨rfl, rfl, rfl, rfl⟩ | ⟨rfl, rfl, rfl, rfl⟩ <;>
      simp [Token.newDepth?, more]
  rw [List.length_cons] at enough
  obtain ⟨fuel, rfl⟩ : ∃ left, fuel = left + 1 := ⟨fuel - 1, by omega⟩
  have inside := h fuel (left :: opened) rest (by omega) (by simp only [List.length_cons]; omega)
  rw [List.cons_append, Token.Cuts.scan_bracket outline.1, outline.2, Option.bind_some, inside]
  rfl

theorem Overflows.append (h : Overflows room cs) (more : List Char) :
    Overflows room (cs ++ more) := by
  intro fuel opened rest enough deep
  rw [List.length_append] at enough
  rw [List.append_assoc]
  exact h fuel opened (more ++ rest) (by omega) deep

theorem Overflows.behind {stop : Char → Bool} {c : Char} {piece : List Char}
    (h : Overflows room (c :: cs)) (cut : Cuts stop depth piece ts) (shallow : depth ≤ room)
    (meets : stop c = true) : Overflows room (piece ++ c :: cs) := by
  intro fuel opened rest enough deep
  rw [List.length_append] at enough
  obtain ⟨left, used, cut⟩ := cut fuel opened (c :: cs ++ rest) (by omega) (by omega) fun d hd => by
    obtain rfl : c = d := by simpa using hd
    exact meets
  rw [List.append_assoc, cut, h left opened rest (by omega) deep]
  rfl

theorem overflows_nested (h : Overflows room cs) : Overflows (room + n) (nestedText n cs) := by
  induction n with
  | zero => exact h
  | succ n ih =>
      have inside : Overflows (room + n + 1) ('[' :: (nestedText n cs ++ [']'])) :=
        (ih.append [']']).brackets (List.mem_cons_of_mem _ List.mem_cons_self)
      exact inside.behind cuts_x (Nat.zero_le _) rfl

theorem overflows_inverse : Overflows 0 "2 ** (-1)".toList := by
  have gap : ∀ {room : Nat} {cs : List Char}, Overflows room cs → cs ≠ [] →
      Overflows room (' ' :: cs) := by
    intro room cs h some
    obtain ⟨c, cs, rfl⟩ := List.exists_cons_of_ne_nil some
    have blank : Cuts (fun _ => true) 0 [' '] [] := .blank
    exact h.behind blank (Nat.zero_le _) rfl
  have bracket : Overflows 0 ['(', '-', '1', ')'] := overflows_bracket.append ['-', '1', ')']
  have power : Overflows 0 ("**".toList ++ ' ' :: ['(', '-', '1', ')']) :=
    (gap bracket (List.cons_ne_nil _ _)).behind
      (Cuts.operator (show BinaryOp.pow.isArithmetic = true from rfl)) (Nat.le_refl _) rfl
  exact (gap power (List.cons_ne_nil _ _)).behind (cuts_digit 2 (by decide)) (Nat.le_refl _) rfl

/-- A call whose brackets nest too deeply is refused. -/
theorem refused_of_overflows (h : Overflows 199 cs) (kept : cs.all Printer.isKept = true)
    (captures : List String) (provided : Scope) :
    ofText (callText (String.ofList cs)) captures provided =
      .error (.malformedAssignment (.unreadable (callText (String.ofList cs)))) := by
  have name : Cuts (fun d => !Token.isWordChar d && !Token.isQuote d) 0 "subproblem".toList
      [.name "subproblem"] := .name (isOwnName_iff.mp (by decide))
  have call : Overflows 200 ('s' :: ("ubproblem(".toList ++ cs ++ [')'])) :=
    ((h.append [')']).brackets List.mem_cons_self).behind name (Nat.zero_le _) rfl
  have keptWhole : ('s' :: ("ubproblem(".toList ++ cs ++ [')'])).all Printer.isKept = true :=
    kept_call kept
  have cut : Token.ofText? ('s' :: ("ubproblem(".toList ++ cs ++ [')'])) = none := by
    have scanned := call (('s' :: ("ubproblem(".toList ++ cs ++ [')'])).length + 1) [] []
      (Nat.le_succ _) rfl
    rw [List.append_nil] at scanned
    rw [Token.ofText?, Token.unifyLineEnds_kept keptWhole, Token.scan_fresh (by decide), scanned]
  have read : Expr.ofText? ('s' :: ("ubproblem(".toList ++ cs ++ [')'])) = none := by
    rw [Expr.ofText?, cut]
    rfl
  rw [ofText, readTrimmed_call kept, read]
  rfl

/-- The id `x[x[…[2**-1]…]]` with 199 subscripts is accepted, but its source is not. -/
theorem nestedPower_source_refused :
    ofText (callText (String.ofList (nestedText 199 "2**-1".toList))) [] [("x", .int 1)] =
        .ok (.subproblem (nested 199 inverse)) ∧
      (nested 199 inverse).all Expr.isPlain = true ∧
        ofText (callText (String.ofList (nested 199 inverse).text)) [] [("x", .int 1)] =
          .error (.malformedAssignment
            (.unreadable (callText (String.ofList (nested 199 inverse).text)))) := by
  have item : Parser.ReadsItem (nestedTokens 199 inverseTokens) (nested 199 inverse) :=
    reads_nested reads_inverse
  have reads := reads_of_cuts (cuts_nested (n := 199) cuts_inverse) (by decide)
    (kept_nested (by decide)) item.test item.symbols
  have refused := refused_of_overflows (overflows_nested (n := 199) overflows_inverse)
    (kept_nested (by decide)) [] [("x", .int 1)]
  rw [← text_nested] at refused
  refine ⟨(ofText_of_reads reads).mpr ⟨rfl, ?_, ?_⟩, ?_, refused⟩
  · exact all_nested (by decide) (fun _ => rfl) (by decide)
  · exact all_nested (by decide) (fun _ => rfl) (by decide +kernel)
  · exact all_nested (by decide) (fun _ => rfl) (by decide)

end Deep

end Destination

end BlockAngular.Rule
