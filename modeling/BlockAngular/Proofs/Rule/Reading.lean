import BlockAngular.Proofs.Rule.Spelling
import BlockAngular.Rule.Parser

/-! # Reading the tokens of an id

The parser reads the tokens of an id back as the id, wherever one of the symbols follows that can
stand behind it there. What is read on a level is read on the looser ones as well, since none of
the operators of the looser levels follows; on a tighter level it stands in brackets.
-/

namespace BlockAngular.Rule.Parser

/-- One of the symbols comes next. -/
def Behind (symbols : List String) (rest : List Token) : Prop :=
  ∃ s ∈ symbols, ∃ more, rest = .symbol s :: more

/-- What can stand behind an expression, a sum, a term and an operand of a term. -/
def testEnds : List String :=
  [")", "]", ","]

def sumEnds : List String :=
  testEnds ++ ["+", "-"]

def termEnds : List String :=
  sumEnds ++ ["*", "/", "//", "%"]

def primaryEnds : List String :=
  termEnds ++ ["**", ".", "["]

/-- Whether an operand can start with the token. -/
def startsOperand : Token → Bool
  | .name _ | .number _ | .literal _ => true
  | .keyword word => ["None", "True", "False"].contains word
  | .symbol s => s == "("
  | .lineEnd => false

/-- Whether an expression can start with the token. -/
def startsId (t : Token) : Bool :=
  startsOperand t ||
    match t with
    | .symbol s => s == "+" || s == "-"
    | _ => false

/-- The first token. -/
def Starts (p : Token → Bool) (ts : List Token) : Prop :=
  ∃ t more, ts = t :: more ∧ p t = true

/-- The tokens of an operand; what follows them is taken by what may stand behind an operand. -/
structure ReadsPrimary (ts : List Token) (e : Expr) : Prop where
  start : Starts startsOperand ts
  read : ∀ (fuel : Nat) (rest : List Token), Behind primaryEnds rest →
    32 * ts.length ≤ fuel + 24 → ∃ left, fuel + 28 ≤ left + 32 * ts.length ∧
      primary fuel (ts ++ rest) = trailers left e rest

/-- The tokens of a power. -/
structure ReadsPower (ts : List Token) (e : Expr) : Prop where
  start : Starts startsOperand ts
  read : ∀ (fuel : Nat) (rest : List Token), Behind termEnds rest →
    32 * ts.length ≤ fuel + 22 → power fuel (ts ++ rest) = some (e, rest)

/-- The tokens of an operand of a term. -/
structure ReadsFactor (ts : List Token) (e : Expr) : Prop where
  start : Starts startsId ts
  read : ∀ (fuel : Nat) (rest : List Token), Behind termEnds rest →
    32 * ts.length ≤ fuel + 20 → factor fuel (ts ++ rest) = some (e, rest)

/-- The tokens of a term; what follows them is taken by further operands of the term. -/
structure ReadsTerm (ts : List Token) (e : Expr) : Prop where
  start : Starts startsId ts
  read : ∀ (fuel : Nat) (rest : List Token), Behind termEnds rest →
    32 * ts.length ≤ fuel + 16 → ∃ left, fuel + 20 ≤ left + 32 * ts.length ∧
      binary fuel 5 (ts ++ rest) = binaryTail left 5 e rest

/-- The tokens of a sum; what follows them is taken by further operands of the sum. -/
structure ReadsSum (ts : List Token) (e : Expr) : Prop where
  start : Starts startsId ts
  read : ∀ (fuel : Nat) (rest : List Token), Behind sumEnds rest →
    32 * ts.length ≤ fuel + 12 → ∃ left, fuel + 16 ≤ left + 32 * ts.length ∧
      binary fuel 4 (ts ++ rest) = binaryTail left 4 e rest

/-- The tokens of an expression on its own. -/
structure ReadsTest (ts : List Token) (e : Expr) : Prop where
  start : Starts startsId ts
  read : ∀ (fuel : Nat) (rest : List Token), Behind testEnds rest →
    32 * ts.length ≤ fuel + 4 → expression fuel (ts ++ rest) = some (e, rest)

@[simp] theorem dropSymbol?_symbol {s symbol : String} {rest : List Token} :
    dropSymbol? s (.symbol symbol :: rest) = if symbol = s then some rest else none := by
  simp [dropSymbol?]

@[simp] theorem dropKeyword?_symbol {word symbol : String} {rest : List Token} :
    dropKeyword? word (.symbol symbol :: rest) = none := rfl

@[simp] theorem dropKeyword?_name {word name : String} {rest : List Token} :
    dropKeyword? word (.name name :: rest) = none := rfl

@[simp] theorem dropKeyword?_nil {word : String} : dropKeyword? word [] = none := rfl

section Lift

variable {ts : List Token} {e : Expr}

theorem Behind.mono {less more : List String} {rest : List Token} (h : Behind less rest)
    (sub : less ⊆ more) : Behind more rest := by
  obtain ⟨s, listed, tail, rfl⟩ := h
  exact ⟨s, sub listed, tail, rfl⟩

theorem Starts.length_pos {p : Token → Bool} (h : Starts p ts) : 0 < ts.length := by
  obtain ⟨t, more, rfl, -⟩ := h
  exact Nat.succ_pos _

theorem Starts.mono {p q : Token → Bool} (h : Starts p ts) (le : ∀ t, p t = true → q t = true) :
    Starts q ts := by
  obtain ⟨t, more, rfl, first⟩ := h
  exact ⟨t, more, rfl, le t first⟩

theorem Starts.append {p : Token → Bool} (h : Starts p ts) (ts' : List Token) :
    Starts p (ts ++ ts') := by
  obtain ⟨t, more, rfl, first⟩ := h
  exact ⟨t, more ++ ts', rfl, first⟩

theorem startsId_of_operand {t : Token} (h : startsOperand t = true) : startsId t = true := by
  simp [startsId, h]

/-- No keyword of a looser level starts an id. -/
theorem Starts.dropKeyword? (h : Starts startsId ts) (word : String)
    (other : word ∉ ["None", "True", "False"]) (rest : List Token) :
    dropKeyword? word (ts ++ rest) = none := by
  obtain ⟨t, more, rfl, first⟩ := h
  cases t with
  | keyword w =>
      have different : w ≠ word := by
        rintro rfl
        exact other (by simpa [startsId, startsOperand] using first)
      simp [Parser.dropKeyword?, different]
  | _ => rfl

theorem Starts.takeSign? (h : Starts startsOperand ts) (rest : List Token) :
    takeSign? (ts ++ rest) = none := by
  obtain ⟨t, more, rfl, first⟩ := h
  cases t with
  | symbol s =>
      obtain rfl : s = "(" := by simpa [startsOperand] using first
      rfl
  | _ => rfl

theorem Behind.dropSymbol?_eq_none {symbols : List String} {rest : List Token}
    (behind : Behind symbols rest) {s : String} (other : s ∉ symbols) :
    dropSymbol? s rest = none := by
  obtain ⟨s', listed, more, rfl⟩ := behind
  have different : s' ≠ s := by
    rintro rfl
    exact other listed
  simp [different]

theorem trailers_done {fuel : Nat} {rest : List Token} (behind : Behind (termEnds ++ ["**"]) rest) :
    trailers (fuel + 1) e rest = some (e, rest) := by
  obtain ⟨s, listed, more, rfl⟩ := behind
  simp only [termEnds, sumEnds, testEnds, List.cons_append, List.nil_append, List.mem_cons,
    List.not_mem_nil, or_false] at listed
  rcases listed with rfl | rfl | rfl | rfl | rfl | rfl | rfl | rfl | rfl | rfl <;> simp [trailers]

theorem ReadsPrimary.power (h : ReadsPrimary ts e) : ReadsPower ts e := by
  refine ⟨h.start, fun fuel rest behind enough => ?_⟩
  have some := h.start.length_pos
  obtain ⟨fuel, rfl⟩ : ∃ left, fuel = left + 1 := ⟨fuel - 1, by omega⟩
  obtain ⟨left, used, read⟩ := h.read fuel rest (behind.mono (by simp [primaryEnds])) (by omega)
  obtain ⟨left, rfl⟩ : ∃ more, left = more + 1 := ⟨left - 1, by omega⟩
  have noAwait := (h.start.mono fun _ => startsId_of_operand).dropKeyword? "await"
    (by decide) rest
  have done : primary fuel (ts ++ rest) = .some (e, rest) :=
    read.trans (trailers_done (behind.mono (by simp)))
  have noPower : dropSymbol? "**" rest = none := behind.dropSymbol?_eq_none (by decide)
  simp [Parser.power, noAwait, done, noPower]

theorem ReadsPower.factor (h : ReadsPower ts e) : ReadsFactor ts e := by
  refine ⟨h.start.mono fun _ => startsId_of_operand, fun fuel rest behind enough => ?_⟩
  have some := h.start.length_pos
  obtain ⟨fuel, rfl⟩ : ∃ left, fuel = left + 1 := ⟨fuel - 1, by omega⟩
  simp [Parser.factor, h.start.takeSign?, h.read fuel rest behind (by omega)]

theorem ReadsFactor.term (h : ReadsFactor ts e) : ReadsTerm ts e := by
  refine ⟨h.start, fun fuel rest behind enough => ?_⟩
  have some := h.start.length_pos
  obtain ⟨fuel, rfl⟩ : ∃ left, fuel = left + 2 := ⟨fuel - 2, by omega⟩
  refine ⟨fuel + 1, by omega, ?_⟩
  simp [binary, binaryLevels, h.read fuel rest behind (by omega)]

theorem binaryTail_done {fuel level : Nat} {rest : List Token}
    (behind : Behind testEnds rest ∨ level = 5 ∧ Behind sumEnds rest) :
    binaryTail (fuel + 1) level e rest = some (e, rest) := by
  have none : takeBinary? level rest = none := by
    rcases behind with ⟨s, listed, more, rfl⟩ | ⟨rfl, s, listed, more, rfl⟩
    · simp only [testEnds, List.mem_cons, List.not_mem_nil, or_false] at listed
      rcases listed with rfl | rfl | rfl <;> simp [takeBinary?, binaryOp?]
    · simp only [sumEnds, testEnds, List.cons_append, List.nil_append, List.mem_cons,
        List.not_mem_nil, or_false] at listed
      rcases listed with rfl | rfl | rfl | rfl | rfl <;> rfl
  simp [binaryTail, none]

theorem ReadsTerm.sum (h : ReadsTerm ts e) : ReadsSum ts e := by
  refine ⟨h.start, fun fuel rest behind enough => ?_⟩
  have some := h.start.length_pos
  obtain ⟨fuel, rfl⟩ : ∃ left, fuel = left + 1 := ⟨fuel - 1, by omega⟩
  obtain ⟨left, used, read⟩ := h.read fuel rest (behind.mono (by simp [termEnds])) (by omega)
  obtain ⟨left, rfl⟩ : ∃ more, left = more + 1 := ⟨left - 1, by omega⟩
  refine ⟨fuel, by omega, ?_⟩
  have done : binary fuel 5 (ts ++ rest) = .some (e, rest) :=
    read.trans (binaryTail_done (.inr ⟨rfl, behind⟩))
  simp [binary, binaryLevels, done]

theorem ReadsSum.test (h : ReadsSum ts e) : ReadsTest ts e := by
  refine ⟨h.start, fun fuel rest behind enough => ?_⟩
  have some := h.start.length_pos
  obtain ⟨fuel, rfl⟩ : ∃ left, fuel = left + 9 := ⟨fuel - 9, by omega⟩
  obtain ⟨left, used, read⟩ := h.read (fuel + 1) rest (behind.mono (by simp [sumEnds])) (by omega)
  obtain ⟨left, rfl⟩ : ∃ more, left = more + 1 := ⟨left - 1, by omega⟩
  have sum : binary (fuel + 1) 4 (ts ++ rest) = .some (e, rest) :=
    read.trans (binaryTail_done (.inl behind))
  have tail {fuel level : Nat} : binaryTail (fuel + 1) level e rest = .some (e, rest) :=
    binaryTail_done (.inl behind)
  have whole : binary (fuel + 5) 0 (ts ++ rest) = .some (e, rest) := by
    simp [binary, binaryLevels, sum, tail]
  have noKeyword {word : String} : dropKeyword? word rest = none := by
    obtain ⟨s, -, more, rfl⟩ := behind
    rfl
  have noComparison : takeComparison? rest = none := by
    obtain ⟨s, listed, more, rfl⟩ := behind
    simp only [testEnds, List.mem_cons, List.not_mem_nil, or_false] at listed
    rcases listed with rfl | rfl | rfl <;> simp [takeComparison?]
  have noNot := h.start.dropKeyword? "not" (by decide) rest
  have noLambda := h.start.dropKeyword? "lambda" (by decide) rest
  have inverted : inversion (fuel + 6) (ts ++ rest) = .some (e, rest) := by
    rw [inversion]
    simp [noNot, whole, comparisonTail, noComparison]
  have conjoined : conjunction (fuel + 7) (ts ++ rest) = .some (e, rest) := by
    rw [conjunction]
    simp [inverted, conjunctionTail, noKeyword]
  have disjoined : disjunction (fuel + 8) (ts ++ rest) = .some (e, rest) := by
    rw [disjunction]
    simp [conjoined, disjunctionTail, noKeyword]
  rw [expression]
  simp [noLambda, disjoined, noKeyword]

end Lift

/-- The symbols of ids. -/
def isIdSymbol (s : String) : Bool :=
  primaryEnds.contains s || s == "("

/-- The symbols among the tokens are those of ids. -/
def OnlyIdSymbols (ts : List Token) : Prop :=
  ∀ s, .symbol s ∈ ts → isIdSymbol s = true

section Symbols

variable {ts ts' : List Token}

@[simp] theorem onlyIdSymbols_nil : OnlyIdSymbols [] := nofun

@[simp] theorem onlyIdSymbols_cons {t : Token} : OnlyIdSymbols (t :: ts) ↔
    (∀ s, t = .symbol s → isIdSymbol s = true) ∧ OnlyIdSymbols ts := by
  simp only [OnlyIdSymbols, List.mem_cons]
  grind

@[simp] theorem onlyIdSymbols_append :
    OnlyIdSymbols (ts ++ ts') ↔ OnlyIdSymbols ts ∧ OnlyIdSymbols ts' := by
  simp only [OnlyIdSymbols, List.mem_append]
  grind

/-- No other symbol comes second. -/
theorem OnlyIdSymbols.second (h : OnlyIdSymbols ts) (some : 0 < ts.length) {rest more : List Token}
    (behind : Behind testEnds rest) {t : Token} {s : String}
    (same : ts ++ rest = t :: .symbol s :: more) : isIdSymbol s = true := by
  cases ts with
  | nil => cases some
  | cons first ts =>
      have tail : ts ++ rest = .symbol s :: more := (List.cons.inj same).2
      cases ts with
      | nil =>
          obtain ⟨s', listed, tail', rfl⟩ := behind
          obtain rfl : s' = s := by simpa using (List.cons.inj tail).1
          have all : ∀ s ∈ testEnds, isIdSymbol s = true := by decide
          exact all _ listed
      | cons second ts =>
          obtain rfl := (List.cons.inj tail).1
          exact h s (List.mem_cons_of_mem _ List.mem_cons_self)

end Symbols

section Brackets

variable {ts : List Token} {e : Expr} {rest : List Token} {fuel : Nat}

theorem ReadsTest.named (h : ReadsTest ts e) (symbols : OnlyIdSymbols ts) (fuel : Nat)
    (behind : Behind testEnds rest) (enough : 32 * ts.length ≤ fuel + 4) :
    named (fuel + 1) (ts ++ rest) = some (e, rest) := by
  have read := h.read fuel rest behind enough
  have noSymbol : atSymbol ":=" rest = false := by
    rw [atSymbol, behind.dropSymbol?_eq_none (by decide)]
    rfl
  unfold Parser.named
  split
  · rename_i same
    exact absurd (symbols.second h.start.length_pos behind same) (by decide)
  · simp [read, noSymbol]

theorem Starts.dropSymbol? (h : Starts startsId ts) {s : String} (other : s ∉ ["(", "+", "-"])
    (rest : List Token) :
    dropSymbol? s (ts ++ rest) = none := by
  obtain ⟨t, more, rfl, first⟩ := h
  cases t with
  | symbol s' =>
      have different : s' ≠ s := by
        rintro rfl
        exact other (by simpa [startsId, startsOperand] using first)
      simp [different]
  | _ => rfl

theorem ReadsTest.starNamed (h : ReadsTest ts e) (symbols : OnlyIdSymbols ts) (fuel : Nat)
    (behind : Behind testEnds rest) (enough : 32 * ts.length ≤ fuel + 4) :
    starNamed (fuel + 2) (ts ++ rest) = some (e, rest) := by
  simp [Parser.starNamed, h.start.dropSymbol? (s := "*") (by decide) rest,
    h.named symbols fuel behind enough]

/-- An expression in brackets is an operand. -/
theorem ReadsTest.bracketed (h : ReadsTest ts e) (symbols : OnlyIdSymbols ts)
    (unstarred : isStarred e = false) :
    ReadsPrimary (.symbol "(" :: ts ++ [.symbol ")"]) e := by
  refine ⟨⟨_, _, rfl, rfl⟩, fun fuel rest _ enough => ?_⟩
  simp only [List.cons_append, List.length_cons, List.length_append, List.length_nil] at enough ⊢
  obtain ⟨fuel, rfl⟩ : ∃ left, fuel = left + 5 := ⟨fuel - 5, by omega⟩
  have behind : Behind testEnds (.symbol ")" :: rest) := ⟨_, List.mem_cons_self, _, rfl⟩
  have first := h.starNamed symbols fuel behind (by omega)
  have noClosing := h.start.dropSymbol? (s := ")") (by decide) (.symbol ")" :: rest)
  have noYield := h.start.dropKeyword? "yield" (by decide) (.symbol ")" :: rest)
  have inside : round (fuel + 3) (ts ++ .symbol ")" :: rest) = some (e, rest) := by
    simp [round, noClosing, noYield, first, atSymbol, unstarred, atClause, atKeyword]
  refine ⟨fuel + 4, by omega, ?_⟩
  simp [primary, atom, inside]

end Brackets

section Items

open Printer (tokens testLevel furtherTokens)

variable {e : Expr} {es : List Expr} {rest : List Token} {fuel : Nat}

/-- An item of a sequence. -/
structure ReadsItem (ts : List Token) (e : Expr) : Prop where
  test : ReadsTest ts e
  symbols : OnlyIdSymbols ts
  unstarred : isStarred e = false

/-- An item as it is printed. -/
abbrev PrintedItem (e : Expr) : Prop :=
  ReadsItem (tokens testLevel e) e

/-- The tokens behind the first item of a tuple. -/
def tailTokens (es : List Expr) : List Token :=
  if es.isEmpty then [.symbol ","] else furtherTokens es

theorem behind_further (es : List Expr) (h : Behind testEnds rest) : Behind testEnds (furtherTokens es ++ rest) := by
  cases es with
  | nil => exact h
  | cons e es => exact ⟨",", by decide, _, rfl⟩

theorem itemsAfter_further (each : ∀ e ∈ es, PrintedItem e) (fuel : Nat)
    (enough : 32 * (furtherTokens es).length < fuel) :
    itemsAfter fuel ")" (furtherTokens es ++ .symbol ")" :: rest) = some (es, rest) := by
  induction es generalizing fuel with
  | nil =>
      obtain ⟨fuel, rfl⟩ : ∃ left, fuel = left + 1 := ⟨fuel - 1, by omega⟩
      simp [furtherTokens, itemsAfter]
  | cons e es ih =>
      obtain ⟨first, others⟩ := List.forall_mem_cons.mp each
      simp only [furtherTokens, List.cons_append, List.length_cons, List.length_append] at enough
      obtain ⟨fuel, rfl⟩ : ∃ left, fuel = left + 3 := ⟨fuel - 3, by omega⟩
      have closing : Behind testEnds (Token.symbol ")" :: rest) := ⟨_, List.mem_cons_self, _, rfl⟩
      have item := first.test.starNamed first.symbols fuel (behind_further es closing) (by omega)
      have more := ih others (fuel + 2) (by omega)
      have noClosing := first.test.start.dropSymbol? (s := ")") (by decide)
        (furtherTokens es ++ .symbol ")" :: rest)
      rw [itemsAfter]
      simp [furtherTokens, noClosing, item, more]

theorem itemsAfter_tail (each : ∀ e ∈ es, PrintedItem e) (fuel : Nat) (rest : List Token)
    (enough : 32 * (tailTokens es).length < fuel) :
    itemsAfter fuel ")" (tailTokens es ++ .symbol ")" :: rest) = some (es, rest) := by
  cases es with
  | nil =>
      obtain ⟨fuel, rfl⟩ : ∃ left, fuel = left + 1 := ⟨fuel - 1, by omega⟩
      simp [tailTokens, itemsAfter]
  | cons e es => exact itemsAfter_further each fuel enough

/-- The items of a tuple in brackets. -/
theorem reads_tuple (first : PrintedItem e) (each : ∀ e ∈ es, PrintedItem e) :
    ReadsPrimary (.symbol "(" :: (tokens testLevel e ++ tailTokens es) ++ [.symbol ")"])
      (.tuple (e :: es)) := by
  refine ⟨⟨_, _, rfl, rfl⟩, fun fuel rest _ enough => ?_⟩
  simp only [List.cons_append, List.length_cons, List.length_append, List.length_nil] at enough ⊢
  obtain ⟨fuel, rfl⟩ : ∃ left, fuel = left + 5 := ⟨fuel - 5, by omega⟩
  have comma : ∃ more, tailTokens es ++ Token.symbol ")" :: rest = .symbol "," :: more := by
    cases es <;> exact ⟨_, rfl⟩
  obtain ⟨more, shown⟩ := comma
  have behind : Behind testEnds (tailTokens es ++ Token.symbol ")" :: rest) :=
    ⟨",", by decide, more, shown⟩
  have read := first.test.starNamed first.symbols fuel behind (by omega)
  have items := itemsAfter_tail each (fuel + 2) rest (by omega)
  have noClosing := first.test.start.dropSymbol? (s := ")") (by decide)
    (tailTokens es ++ Token.symbol ")" :: rest)
  have noYield := first.test.start.dropKeyword? "yield" (by decide)
    (tailTokens es ++ .symbol ")" :: rest)
  have inside : round (fuel + 3) (tokens testLevel e ++ (tailTokens es ++ .symbol ")" :: rest)) =
      some (.tuple (e :: es), rest) := by
    rw [shown] at items noClosing noYield read ⊢
    simp [round, noClosing, noYield, read, atSymbol, items]
  refine ⟨fuel + 4, by omega, ?_⟩
  simp [primary, atom, inside]

theorem ReadsItem.subscriptItem {ts : List Token} (h : ReadsItem ts e) (fuel : Nat)
    (behind : Behind [",", "]"] rest) (enough : 32 * ts.length ≤ fuel + 4) :
    subscriptItem (fuel + 1) (ts ++ rest) = some (e, rest) := by
  have inTest : Behind testEnds rest := behind.mono (by simp [testEnds])
  have read := h.test.read fuel rest inTest enough
  have noStar := h.test.start.dropSymbol? (s := "*") (by decide) rest
  have noColon := h.test.start.dropSymbol? (s := ":") (by decide) rest
  obtain ⟨s, listed, more, rfl⟩ := behind
  unfold Parser.subscriptItem
  split
  · rename_i same
    rw [same] at noStar
    simp at noStar
  · rename_i same
    rw [same] at noColon
    simp at noColon
  · rename_i same
    exact absurd (h.symbols.second h.test.start.length_pos inTest same) (by decide)
  · rw [read]
    simp only [List.mem_cons, List.not_mem_nil, or_false] at listed
    rcases listed with rfl | rfl <;> rfl

theorem subscriptTail_further (each : ∀ e ∈ es, PrintedItem e) (fuel : Nat)
    (enough : 32 * (furtherTokens es).length < fuel) :
    subscriptTail fuel (furtherTokens es ++ .symbol "]" :: rest) = some (es, .symbol "]" :: rest) := by
  induction es generalizing fuel with
  | nil =>
      obtain ⟨fuel, rfl⟩ : ∃ left, fuel = left + 1 := ⟨fuel - 1, by omega⟩
      simp [furtherTokens, subscriptTail]
  | cons e es ih =>
      obtain ⟨first, others⟩ := List.forall_mem_cons.mp each
      simp only [furtherTokens, List.cons_append, List.length_cons, List.length_append] at enough
      obtain ⟨fuel, rfl⟩ : ∃ left, fuel = left + 2 := ⟨fuel - 2, by omega⟩
      have behind : Behind [",", "]"] (furtherTokens es ++ Token.symbol "]" :: rest) := by
        cases es with
        | nil => exact ⟨"]", by decide, _, rfl⟩
        | cons => exact ⟨",", by decide, _, rfl⟩
      have item := first.subscriptItem fuel behind (by omega)
      have more := ih others (fuel + 1) (by omega)
      have noClosing := first.test.start.dropSymbol? (s := "]") (by decide)
        (furtherTokens es ++ .symbol "]" :: rest)
      rw [subscriptTail]
      simp [furtherTokens, atSymbol, noClosing, item, more]

theorem subscriptTail_tail (each : ∀ e ∈ es, PrintedItem e) (fuel : Nat) (rest : List Token)
    (enough : 32 * (tailTokens es).length < fuel) :
    subscriptTail fuel (tailTokens es ++ .symbol "]" :: rest) = some (es, .symbol "]" :: rest) := by
  cases es with
  | nil =>
      obtain ⟨fuel, rfl⟩ : ∃ left, fuel = left + 1 := ⟨fuel - 1, by omega⟩
      simp [tailTokens, subscriptTail, atSymbol]
  | cons e es => exact subscriptTail_further each fuel enough

/-- The tokens of what stands in a subscript. -/
def ReadsIndex (ts : List Token) (index : Expr) : Prop :=
  ∀ (fuel : Nat) (rest : List Token), 32 * ts.length ≤ fuel →
    subscripts (fuel + 2) (ts ++ .symbol "]" :: rest) = some (index, .symbol "]" :: rest)

theorem ReadsItem.index {ts : List Token} (h : ReadsItem ts e) : ReadsIndex ts e := by
  intro fuel rest enough
  have behind : Behind [",", "]"] (.symbol "]" :: rest) := ⟨"]", by decide, _, rfl⟩
  have read := h.subscriptItem fuel behind (by omega)
  rw [subscripts]
  simp [read, atSymbol, h.unstarred]

/-- One item alone is the index itself, and several are a tuple. -/
theorem reads_index {index : Expr} (alone : PrintedItem index)
    (each : ∀ list, index = .tuple list → ∀ e ∈ list, PrintedItem e) :
    ReadsIndex (Printer.indexTokens index) index := by
  have whole := alone.index
  cases index with
  | tuple list =>
      cases list with
      | nil => exact whole
      | cons e es =>
          obtain ⟨first, others⟩ := List.forall_mem_cons.mp (each _ rfl)
          intro fuel rest enough
          have shown : Printer.indexTokens (.tuple (e :: es)) =
              tokens testLevel e ++ tailTokens es := rfl
          rw [shown, List.length_append] at enough
          have comma : ∃ more, tailTokens es ++ Token.symbol "]" :: rest = .symbol "," :: more := by
            cases es <;> exact ⟨_, rfl⟩
          obtain ⟨more, tail⟩ := comma
          have behind : Behind [",", "]"] (.symbol "," :: more) := ⟨",", by decide, _, rfl⟩
          have read := first.subscriptItem fuel behind (by omega)
          have some := first.test.start.length_pos
          have items := subscriptTail_tail others (fuel + 1) rest (by omega)
          rw [tail] at items
          rw [shown, List.append_assoc, tail, subscripts]
          simp [read, atSymbol, items]
  | _ => exact whole

end Items

section Trailers

variable {ts : List Token} {base : Expr}

theorem ReadsPrimary.member (h : ReadsPrimary ts base) (part : String) :
    ReadsPrimary (ts ++ [.symbol ".", .name part]) (.attribute base part) := by
  refine ⟨h.start.append _, fun fuel rest _ enough => ?_⟩
  rw [List.length_append] at enough ⊢
  simp only [List.length_cons, List.length_nil] at enough ⊢
  obtain ⟨left, used, read⟩ := h.read fuel (.symbol "." :: .name part :: rest)
    ⟨".", by decide, _, rfl⟩ (by omega)
  obtain ⟨left, rfl⟩ : ∃ more, left = more + 1 := ⟨left - 1, by omega⟩
  refine ⟨left, by omega, ?_⟩
  rw [List.append_assoc]
  exact read.trans (by simp [trailers])

theorem ReadsPrimary.subscript {indexTs : List Token} {index : Expr} (h : ReadsPrimary ts base)
    (inside : ReadsIndex indexTs index) :
    ReadsPrimary (ts ++ (.symbol "[" :: indexTs ++ [.symbol "]"])) (.subscript base index) := by
  refine ⟨h.start.append _, fun fuel rest _ enough => ?_⟩
  simp only [List.length_append, List.length_cons, List.length_nil] at enough ⊢
  obtain ⟨left, used, read⟩ := h.read fuel (.symbol "[" :: (indexTs ++ .symbol "]" :: rest))
    ⟨"[", by decide, _, rfl⟩ (by omega)
  obtain ⟨left, rfl⟩ : ∃ more, left = more + 3 := ⟨left - 3, by omega⟩
  have index := inside left rest (by omega)
  refine ⟨left + 2, by omega, ?_⟩
  have whole : ts ++ (.symbol "[" :: indexTs ++ [.symbol "]"]) ++ rest =
      ts ++ .symbol "[" :: (indexTs ++ .symbol "]" :: rest) := by simp
  rw [whole, read, trailers]
  simp [index]

end Trailers

section Operators

variable {lefts rights : List Token} {left right : Expr}

theorem ReadsPrimary.pow (hleft : ReadsPrimary lefts left) (hright : ReadsFactor rights right) :
    ReadsPower (lefts ++ .symbol "**" :: rights) (.binary .pow left right) := by
  refine ⟨hleft.start.append _, fun fuel rest behind enough => ?_⟩
  simp only [List.length_append, List.length_cons] at enough
  have some := hright.start.length_pos
  obtain ⟨fuel, rfl⟩ : ∃ more, fuel = more + 1 := ⟨fuel - 1, by omega⟩
  obtain ⟨spare, used, read⟩ := hleft.read fuel (.symbol "**" :: (rights ++ rest))
    ⟨"**", by decide, _, rfl⟩ (by omega)
  obtain ⟨spare, rfl⟩ : ∃ more, spare = more + 1 := ⟨spare - 1, by omega⟩
  have base : primary fuel (lefts ++ .symbol "**" :: (rights ++ rest)) =
      .some (left, .symbol "**" :: (rights ++ rest)) :=
    read.trans (trailers_done ⟨"**", by decide, _, rfl⟩)
  have noAwait := (hleft.start.mono fun _ => startsId_of_operand).dropKeyword? "await"
    (by decide) (.symbol "**" :: (rights ++ rest))
  have exponent := hright.read fuel rest behind (by omega)
  rw [List.append_assoc, List.cons_append, Parser.power]
  simp [noAwait, base, exponent]

theorem ReadsFactor.sign (op : UnaryOp) (signed : op.isSign = true) (h : ReadsFactor rights right) :
    ReadsFactor (.symbol op.symbol :: rights) (.unary op right) := by
  refine ⟨⟨_, _, rfl, by cases op <;> first | rfl | cases signed⟩, fun fuel rest behind enough => ?_⟩
  rw [List.length_cons] at enough
  obtain ⟨fuel, rfl⟩ : ∃ more, fuel = more + 1 := ⟨fuel - 1, by omega⟩
  have operand := h.read fuel rest behind (by omega)
  have taken : takeSign? (.symbol op.symbol :: (rights ++ rest)) = some (op, rights ++ rest) := by
    cases op with
    | plus => simp [takeSign?, UnaryOp.symbol]
    | minus => simp [takeSign?, UnaryOp.symbol]
    | invert | not => cases signed
  rw [List.cons_append, Parser.factor]
  simp [taken, operand]

/-- A further operand of a term. -/
theorem ReadsTerm.operator (op : BinaryOp) (arithmetic : op.isArithmetic = true)
    (taken : binaryOp? 5 op.symbol = some op)
    (hleft : ReadsTerm lefts left) (hright : ReadsFactor rights right) :
    ReadsTerm (lefts ++ .symbol op.symbol :: rights) (.binary op left right) := by
  refine ⟨hleft.start.append _, fun fuel rest behind enough => ?_⟩
  simp only [List.length_append, List.length_cons] at enough ⊢
  have symbol : op.symbol ∈ termEnds := by
    revert taken arithmetic
    cases op <;> decide
  obtain ⟨left', used, read⟩ := hleft.read fuel (.symbol op.symbol :: (rights ++ rest))
    ⟨op.symbol, symbol, _, rfl⟩ (by omega)
  obtain ⟨left', rfl⟩ : ∃ more, left' = more + 2 := ⟨left' - 2, by omega⟩
  have operand := hright.read left' rest behind (by omega)
  have tight : binary (left' + 1) 6 (rights ++ rest) = some (right, rest) := by
    simpa [binary, binaryLevels] using operand
  refine ⟨left' + 1, by omega, ?_⟩
  rw [List.append_assoc, List.cons_append, read, binaryTail]
  simp [takeBinary?, taken, tight]

/-- A further operand of a sum. -/
theorem ReadsSum.operator (op : BinaryOp) (taken : binaryOp? 4 op.symbol = some op)
    (hleft : ReadsSum lefts left) (hright : ReadsTerm rights right) :
    ReadsSum (lefts ++ .symbol op.symbol :: rights) (.binary op left right) := by
  refine ⟨hleft.start.append _, fun fuel rest behind enough => ?_⟩
  simp only [List.length_append, List.length_cons] at enough ⊢
  have symbol : op.symbol ∈ sumEnds := by
    revert taken
    cases op <;> decide
  obtain ⟨left', used, read⟩ := hleft.read fuel (.symbol op.symbol :: (rights ++ rest))
    ⟨op.symbol, symbol, _, rfl⟩ (by omega)
  obtain ⟨left', rfl⟩ : ∃ more, left' = more + 1 := ⟨left' - 1, by omega⟩
  obtain ⟨spare, used', operand⟩ := hright.read left' rest (behind.mono (by simp [termEnds]))
    (by omega)
  obtain ⟨spare, rfl⟩ : ∃ more, spare = more + 1 := ⟨spare - 1, by omega⟩
  have tight : binary left' 5 (rights ++ rest) = some (right, rest) :=
    operand.trans (binaryTail_done (.inr ⟨rfl, behind⟩))
  refine ⟨left', by omega, ?_⟩
  rw [List.append_assoc, List.cons_append, read, binaryTail]
  simp [takeBinary?, taken, tight]

end Operators

section Levels

open Printer

variable {e : Expr} {ts : List Token} {own asked : Nat}

/-- The tokens are read back where a level is asked for. -/
def ReadsAt (asked : Nat) (ts : List Token) (e : Expr) : Prop :=
  if asked ≤ testLevel then ReadsTest ts e
  else if asked ≤ sumLevel then ReadsSum ts e
  else if asked ≤ termLevel then ReadsTerm ts e
  else if asked ≤ factorLevel then ReadsFactor ts e
  else if asked ≤ powerLevel then ReadsPower ts e
  else ReadsPrimary ts e

theorem levels_ascend : testLevel < sumLevel ∧ sumLevel < termLevel ∧ termLevel < factorLevel ∧
    factorLevel < powerLevel ∧ powerLevel < atomLevel := by
  decide

theorem ReadsAt.primary (h : ReadsAt own ts e) (tight : powerLevel < own) : ReadsPrimary ts e := by
  have ascend := levels_ascend
  rwa [ReadsAt, if_neg (by omega), if_neg (by omega), if_neg (by omega), if_neg (by omega),
    if_neg (by omega)] at h

theorem ReadsAt.power (h : ReadsAt own ts e) (tight : factorLevel < own) : ReadsPower ts e := by
  have ascend := levels_ascend
  by_cases more : powerLevel < own
  · exact (h.primary more).power
  · rwa [ReadsAt, if_neg (by omega), if_neg (by omega), if_neg (by omega), if_neg (by omega),
      if_pos (by omega)] at h

theorem ReadsAt.factor (h : ReadsAt own ts e) (tight : termLevel < own) : ReadsFactor ts e := by
  have ascend := levels_ascend
  by_cases more : factorLevel < own
  · exact (h.power more).factor
  · rwa [ReadsAt, if_neg (by omega), if_neg (by omega), if_neg (by omega), if_pos (by omega)] at h

theorem ReadsAt.term (h : ReadsAt own ts e) (tight : sumLevel < own) : ReadsTerm ts e := by
  have ascend := levels_ascend
  by_cases more : termLevel < own
  · exact (h.factor more).term
  · rwa [ReadsAt, if_neg (by omega), if_neg (by omega), if_pos (by omega)] at h

theorem ReadsAt.sum (h : ReadsAt own ts e) (tight : testLevel < own) : ReadsSum ts e := by
  by_cases more : sumLevel < own
  · exact (h.term more).sum
  · rwa [ReadsAt, if_neg (by omega), if_pos (by omega)] at h

theorem ReadsAt.test (h : ReadsAt own ts e) : ReadsTest ts e := by
  by_cases more : testLevel < own
  · exact (h.sum more).test
  · rwa [ReadsAt, if_pos (by omega)] at h

/-- What is read on a level is read on the looser ones. -/
theorem ReadsAt.loosen (h : ReadsAt own ts e) (loose : asked ≤ own) : ReadsAt asked ts e := by
  unfold ReadsAt
  split_ifs with h₁ h₂ h₃ h₄ h₅
  · exact h.test
  · exact h.sum (by omega)
  · exact h.term (by omega)
  · exact h.factor (by omega)
  · exact h.power (by omega)
  · exact h.primary (by omega)

/-- Operands are read on every level. -/
theorem ReadsPrimary.at (h : ReadsPrimary ts e) (asked : Nat) : ReadsAt asked ts e := by
  have ascend := levels_ascend
  have tightest : ReadsAt (max atomLevel asked) ts e := by
    rwa [ReadsAt, if_neg (by omega), if_neg (by omega), if_neg (by omega), if_neg (by omega),
      if_neg (by omega)]
  exact tightest.loosen (Nat.le_max_right _ _)

/-- On the tighter levels it is read with brackets around it. -/
theorem ReadsAt.bracketed (h : ReadsAt own ts e) (symbols : OnlyIdSymbols ts)
    (unstarred : isStarred e = false) (asked : Nat) :
    ReadsAt asked (bracketedTokens asked own ts) e := by
  unfold bracketedTokens
  split
  · exact (h.test.bracketed symbols unstarred).at asked
  · exact h.loosen (by omega)

theorem onlyIdSymbols_bracketed (h : OnlyIdSymbols ts) :
    OnlyIdSymbols (bracketedTokens asked own ts) := by
  have brackets : isIdSymbol "(" = true ∧ isIdSymbol ")" = true := by decide
  unfold bracketedTokens
  split <;> simp [h, brackets]

theorem isStarred_of_spelled (spelled : e.Spelled) : isStarred e = false := by
  cases spelled <;> rfl

theorem onlyIdSymbols_items {e : Expr} {es : List Expr}
    (each : ∀ e' ∈ e :: es, OnlyIdSymbols (tokens testLevel e')) :
    OnlyIdSymbols (tokens testLevel e ++ tailTokens es) := by
  have comma : isIdSymbol "," = true := by decide
  obtain ⟨first, others⟩ := List.forall_mem_cons.mp each
  have further : OnlyIdSymbols (furtherTokens es) := by
    induction es with
    | nil => exact onlyIdSymbols_nil
    | cons e' es ih =>
        obtain ⟨second, rest⟩ := List.forall_mem_cons.mp others
        have more := ih (List.forall_mem_cons.mpr ⟨first, rest⟩) rest
        simp [furtherTokens, comma, second, more]
  unfold tailTokens
  split <;> simp [first, further, comma]

/-- The tokens of an id hold no symbol that is none of ids. -/
theorem onlyIdSymbols_tokens (spelled : e.Spelled) (asked : Nat) :
    OnlyIdSymbols (tokens asked e) := by
  have signs : isIdSymbol "(" = true ∧ isIdSymbol ")" = true ∧ isIdSymbol "[" = true ∧
      isIdSymbol "]" = true ∧ isIdSymbol "." = true := by decide
  induction spelled using Expr.Spelled.parts generalizing asked with
  | constant h =>
      cases h with
      | truth b => cases b <;> simp [tokens, constantTokens]
      | _ => simp [tokens, constantTokens]
  | name own => simp [tokens]
  | @tuple list _ ih =>
      cases list with
      | nil => simp [tokens, signs]
      | cons e es =>
          rw [tokens]
          exact onlyIdSymbols_bracketed (onlyIdSymbols_items fun e he => ih e he testLevel)
  | @subscript _ index _ _ ihBase ihIndex ihParts =>
      have inside : OnlyIdSymbols (indexTokens index) := by
        cases index with
        | tuple list =>
            cases list with
            | nil => exact ihIndex testLevel
            | cons e es =>
                refine onlyIdSymbols_items fun e he => ?_
                obtain ⟨_, ih⟩ := ihParts _ rfl e he
                exact ih _
        | _ => exact ihIndex testLevel
      rw [tokens_subscript]
      simp [ihBase, inside, signs]
  | member own _ ih => simp [tokens, ih, signs]
  | @binary op _ _ arithmetic _ _ ihLeft ihRight =>
      have symbol : isIdSymbol op.symbol = true := by
        revert arithmetic
        cases op <;> decide
      rw [tokens]
      exact onlyIdSymbols_bracketed (by simp [ihLeft, ihRight, symbol])
  | @unary op _ signed _ ih =>
      have symbol : isIdSymbol op.symbol = true := by
        revert signed
        cases op <;> decide
      rw [tokens]
      exact onlyIdSymbols_bracketed (by simp [ih, symbol])

theorem readsPrimary_single {t : Token} (operand : startsOperand t = true)
    (read : ∀ fuel rest, Behind primaryEnds rest → atom (fuel + 2) (t :: rest) = some (e, rest)) :
    ReadsPrimary [t] e := by
  refine ⟨⟨t, [], rfl, operand⟩, fun fuel rest behind enough => ?_⟩
  rw [List.length_singleton] at enough ⊢
  obtain ⟨fuel, rfl⟩ : ∃ more, fuel = more + 3 := ⟨fuel - 3, by omega⟩
  refine ⟨fuel + 2, by omega, ?_⟩
  simp [primary, read fuel rest behind]

theorem reads_constant {value : Value} {marked : Bool}
    (spelled : (Expr.constant value marked).Spelled) :
    ReadsPrimary (constantTokens value marked) (.constant value marked) := by
  cases spelled with
  | null => exact readsPrimary_single rfl fun _ _ _ => by simp [atom]
  | truth b => cases b <;> exact readsPrimary_single rfl fun _ _ _ => by simp [atom]
  | integer short => exact readsPrimary_single rfl fun _ _ _ => by simp [atom]
  | text s marked =>
      refine readsPrimary_single rfl fun fuel rest behind => ?_
      have body := Escape.text?_quoted s.toList (Token.isQuote_quoteFor s.toList)
      have single : takeLiterals rest = ([], rest) := by
        obtain ⟨s, -, more, rfl⟩ := behind
        rfl
      simp [atom, takeLiterals, single, constants, joinConstants?, Escape.part?, body]

theorem reads_emptyTuple : ReadsPrimary [.symbol "(", .symbol ")"] (.tuple []) := by
  refine ⟨⟨_, _, rfl, rfl⟩, fun fuel rest behind enough => ?_⟩
  simp only [List.length_cons, List.length_nil] at enough ⊢
  obtain ⟨fuel, rfl⟩ : ∃ more, fuel = more + 3 := ⟨fuel - 3, by omega⟩
  refine ⟨fuel + 2, by omega, ?_⟩
  simp [primary, atom, round]

theorem readsAt_binary {op : BinaryOp} {left right : Expr} {lefts rights : List Token}
    (arithmetic : op.isArithmetic = true) (hleft : ReadsAt (leftLevel op) lefts left)
    (hright : ReadsAt (rightLevel op) rights right) :
    ReadsAt (binaryLevel op) (lefts ++ .symbol op.symbol :: rights) (.binary op left right) := by
  cases op with
  | add => exact (hleft.sum (by decide)).operator .add rfl (hright.term (by decide))
  | sub => exact (hleft.sum (by decide)).operator .sub rfl (hright.term (by decide))
  | mul => exact (hleft.term (by decide)).operator .mul rfl rfl (hright.factor (by decide))
  | div => exact (hleft.term (by decide)).operator .div rfl rfl (hright.factor (by decide))
  | floorDiv =>
      exact (hleft.term (by decide)).operator .floorDiv rfl rfl (hright.factor (by decide))
  | mod => exact (hleft.term (by decide)).operator .mod rfl rfl (hright.factor (by decide))
  | pow => exact (hleft.primary (by decide)).pow (hright.factor (by decide))
  | matMul | bitOr | bitXor | bitAnd | shiftLeft | shiftRight => cases arithmetic

theorem readsAt_unary {op : UnaryOp} {operand : Expr} (signed : op.isSign = true)
    (h : ReadsAt (unaryLevel op) ts operand) :
    ReadsAt (unaryLevel op) (.symbol op.symbol :: ts) (.unary op operand) := by
  cases op with
  | plus => exact (h.factor (by decide)).sign .plus signed
  | minus => exact (h.factor (by decide)).sign .minus signed
  | invert | not => cases signed

/-- An id that can be read back is read back from its tokens on every level. -/
theorem readsAt_tokens (spelled : e.Spelled) {asked : Nat} (tight : tupleLevel < asked) :
    ReadsAt asked (tokens asked e) e := by
  have item {e : Expr} (spelled : e.Spelled)
      (h : ∀ {asked}, tupleLevel < asked → ReadsAt asked (tokens asked e) e) : PrintedItem e :=
    ⟨(h (by decide)).test, onlyIdSymbols_tokens spelled _, isStarred_of_spelled spelled⟩
  -- without brackets the symbols are those on the loosest level
  have loose {e : Expr} {own : Nat} {ts : List Token} (spelled : e.Spelled)
      (shown : tokens 0 e = bracketedTokens 0 own ts) : OnlyIdSymbols ts := by
    have symbols := onlyIdSymbols_tokens spelled 0
    rwa [shown] at symbols
  induction spelled using Expr.Spelled.parts generalizing asked with
  | constant h =>
      rw [tokens]
      exact (reads_constant h).at asked
  | name own =>
      rw [tokens]
      exact (readsPrimary_single rfl fun _ _ _ => by simp [atom]).at asked
  | @tuple list spelled ih =>
      cases list with
      | nil =>
          rw [tokens]
          exact reads_emptyTuple.at asked
      | cons e es =>
          obtain ⟨first, others⟩ := List.forall_mem_cons.mp fun e he => item (spelled e he) (ih e he)
          rw [tokens, bracketedTokens, if_pos tight]
          exact (reads_tuple first others).at asked
  | @subscript _ index hbase hindex ihBase ihIndex ihParts =>
      have inside : ReadsIndex (indexTokens index) index := by
        refine reads_index (item hindex ihIndex) fun list same e he => ?_
        obtain ⟨spelled, ih⟩ := ihParts list same e he
        exact item spelled ih
      rw [tokens_subscript]
      exact (((ihBase (by decide)).primary (by decide)).subscript inside).at asked
  | @member _ part own _ ih =>
      rw [tokens]
      exact (((ih (by decide)).primary (by decide)).member part).at asked
  | @binary op left right arithmetic hleft hright ihLeft ihRight =>
      have levels : tupleLevel < leftLevel op ∧ tupleLevel < rightLevel op := by
        cases op <;> decide
      have inner := readsAt_binary arithmetic (ihLeft levels.1) (ihRight levels.2)
      have symbols := loose (.binary arithmetic hleft hright) (by rw [tokens])
      rw [tokens]
      exact inner.bracketed symbols rfl asked
  | @unary op operand signed spelled ih =>
      have level : tupleLevel < unaryLevel op := by cases op <;> decide
      have inner := readsAt_unary signed (ih level)
      have symbols := loose (.unary signed spelled) (by rw [tokens])
      rw [tokens]
      exact inner.bracketed symbols rfl asked

theorem readsTest_tokens (spelled : e.Spelled) : ReadsTest (tokens testLevel e) e := by
  have tight : tupleLevel < testLevel := by decide
  exact (readsAt_tokens spelled tight).test

theorem printedItem_of_spelled (spelled : e.Spelled) : PrintedItem e :=
  ⟨readsTest_tokens spelled, onlyIdSymbols_tokens spelled _, isStarred_of_spelled spelled⟩

/-- The index of a subscript is read back from its tokens. -/
theorem readsIndex_tokens {index : Expr} (spelled : index.Spelled) :
    ReadsIndex (indexTokens index) index := by
  refine reads_index (printedItem_of_spelled spelled) fun list same e he => ?_
  subst same
  cases spelled with
  | tuple each => exact printedItem_of_spelled (each e he)

end Levels

section Whole

variable {e : Expr} {ts : List Token} {fuel : Nat}

/-- Nothing is joined to an operand at the end of the tokens. -/
theorem binary_end {fuel level : Nat} {tokens : List Token} {e : Expr}
    (h : binary (fuel + 1) (level + 1) tokens = some (e, [])) (loose : level < binaryLevels) :
    binary (fuel + 2) level tokens = some (e, []) := by
  rw [binary, if_neg (Nat.not_le.mpr loose)]
  simp [h, binaryTail, takeBinary?]

/-- An operand that starts with a name and takes all the tokens is the whole expression. -/
theorem whole?_of_primary {name : String}
    (read : primary fuel (.name name :: ts) = some (e, [])) :
    whole? (fuel + 13) (.name name :: ts) = some e := by
  have powered : power (fuel + 1) (.name name :: ts) = some (e, []) := by
    rw [power]
    simp [read, dropSymbol?]
  have factored : binary (fuel + 3) 6 (.name name :: ts) = some (e, []) := by
    rw [binary, factor]
    simp [binaryLevels, takeSign?, powered]
  have summed : binary (fuel + 9) 0 (.name name :: ts) = some (e, []) :=
    binary_end (binary_end (binary_end (binary_end (binary_end (binary_end factored
      (by decide)) (by decide)) (by decide)) (by decide)) (by decide)) (by decide)
  have inverted : inversion (fuel + 10) (.name name :: ts) = some (e, []) := by
    have noComparison : takeComparison? [] = none := rfl
    rw [inversion]
    simp [summed, comparisonTail, noComparison]
  have conjoined : conjunction (fuel + 11) (.name name :: ts) = some (e, []) := by
    rw [conjunction]
    simp [inverted, conjunctionTail]
  have disjoined : disjunction (fuel + 12) (.name name :: ts) = some (e, []) := by
    rw [disjunction]
    simp [conjoined, disjunctionTail]
  have expressed : expression (fuel + 13) (.name name :: ts) = some (e, []) := by
    rw [expression]
    simp [disjoined]
  simp [whole?, expressed, atSymbol, dropSymbol?, atEnd]

/-- A call with one id as its argument is read whole. -/
theorem whole?_call {function : String} (h : ReadsTest ts e) (symbols : OnlyIdSymbols ts)
    (enough : 32 * (ts.length + 3) ≤ fuel) :
    whole? fuel (.name function :: .symbol "(" :: ts ++ [.symbol ")"]) =
      some (.call (.name function) [e] []) := by
  obtain ⟨fuel, rfl⟩ : ∃ left, fuel = left + 33 := ⟨fuel - 33, by omega⟩
  have behind : Behind testEnds [.symbol ")"] := ⟨_, List.mem_cons_self, _, rfl⟩
  have argument := h.named symbols (fuel + 16) behind (by omega)
  have noClosing := h.start.dropSymbol? (s := ")") (by decide) [.symbol ")"]
  have noStar := h.start.dropSymbol? (s := "*") (by decide) [.symbol ")"]
  have noStars := h.start.dropSymbol? (s := "**") (by decide) [.symbol ")"]
  have list : argumentList (fuel + 18) .first (ts ++ [.symbol ")"]) = some (([e], []), []) := by
    unfold argumentList
    simp only [noClosing]
    split
    · rename_i same
      rw [same] at noStar
      simp at noStar
    · rename_i same
      rw [same] at noStars
      simp at noStars
    · rename_i same
      exact absurd (symbols.second h.start.length_pos behind same)
        (by decide)
    · simp [argument, atClause, atKeyword, argumentsAfter]
  have called : primary (fuel + 20) (.name function :: .symbol "(" :: (ts ++ [.symbol ")"])) =
      some (.call (.name function) [e] [], []) := by
    rw [primary, atom]
    simp only [Option.bind_eq_bind, Option.bind_some]
    rw [trailers]
    simp only [list, Option.bind_eq_bind, Option.bind_some]
    rw [trailers]
    all_goals simp
  exact whole?_of_primary called

theorem whole?_name {name : String} (enough : 32 ≤ fuel) :
    whole? fuel [.name name] = some (.name name) := by
  obtain ⟨fuel, rfl⟩ : ∃ left, fuel = left + 32 := ⟨fuel - 32, by omega⟩
  refine whole?_of_primary ?_
  simp [primary, atom, trailers]

/-- A name with a subscript is read whole. -/
theorem whole?_subscript {name : String} {index : Expr} (inside : ReadsIndex ts index)
    (enough : 32 * (ts.length + 3) ≤ fuel) :
    whole? fuel (.name name :: .symbol "[" :: ts ++ [.symbol "]"]) =
      some (.subscript (.name name) index) := by
  obtain ⟨fuel, rfl⟩ : ∃ left, fuel = left + 33 := ⟨fuel - 33, by omega⟩
  have between := inside (fuel + 16) [] (by omega)
  have read : primary (fuel + 20) (.name name :: .symbol "[" :: (ts ++ [.symbol "]"])) =
      some (.subscript (.name name) index, []) := by
    simp [primary, atom, trailers, between]
  exact whole?_of_primary read

end Whole

end BlockAngular.Rule.Parser
