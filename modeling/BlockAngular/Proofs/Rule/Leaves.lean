import BlockAngular.Proofs.Rule.Spelling
import BlockAngular.Proofs.Rule.Compiled

/-! # The constants that the parser gives

Numbers are read without a sign, and only a text carries a mark. What the parser makes of tokens
keeps to this as far as rules can accept it, so that every constant of an accepted id is one that
its own text gives back.
-/

namespace BlockAngular.Rule

/-- Whether a token stands for a number that can be read. -/
def Token.isRead : Token → Bool
  | .number value => Expr.isRead (.constant value false)
  | _ => true

/-- Whether an expression calls a function. -/
def Expr.isCall : Expr → Bool
  | .call _ _ _ => true
  | _ => false

namespace Parser

open BlockAngular.Rule.Expr (isAllowed isRead)

/-- If rules accept the expression, its constants are ones that can be read. -/
def CleanId (e : Expr) : Prop :=
  e.all (isAllowed fun _ => true) = true → e.all isRead = true

/-- The same for the arguments of a call. -/
structure Clean (e : Expr) : Prop where
  id : CleanId e
  arguments : ∀ {function arguments keywords}, e = .call function arguments keywords →
    ∀ a ∈ arguments, CleanId a

/-- All tokens that are left can be read. -/
def Left (ts : List Token) : Prop :=
  ∀ t ∈ ts, t.isRead = true

/-- What is read has a property, and what is left can be read. -/
def Keeps {α : Type} (P : α → Prop) (result : Option (α × List Token)) : Prop :=
  ∀ a rest, result = some (a, rest) → P a ∧ Left rest

section Clean

variable {e base index left right operand : Expr} {es : List Expr}

theorem CleanId.refused (h : e.isAllowed (fun _ => true) = false) : CleanId e := by
  intro allowed
  rw [Expr.all.eq_def, h, Bool.false_and] at allowed
  cases allowed

theorem Clean.refused (h : e.isAllowed (fun _ => true) = false) (noCall : e.isCall = false) :
    Clean e := by
  refine ⟨.refused h, fun same => ?_⟩
  rw [same] at noCall
  cases noCall

theorem Clean.call {function : Expr} {arguments : List Expr}
    {keywords : List (Option String × Expr)} (h : ∀ a ∈ arguments, Clean a) :
    Clean (.call function arguments keywords) := by
  refine ⟨.refused rfl, fun same a ha => ?_⟩
  obtain ⟨-, rfl, -⟩ := Expr.call.inj same
  exact (h a ha).id

theorem Clean.constant {value : Value} {marked : Bool}
    (h : isRead (.constant value marked) = true) : Clean (.constant value marked) :=
  ⟨fun _ => by simpa [Expr.all] using h, nofun⟩

theorem Clean.name {id : String} : Clean (.name id) :=
  ⟨fun _ => rfl, nofun⟩

theorem Clean.tuple (h : ∀ e ∈ es, Clean e) : Clean (.tuple es) := by
  refine ⟨fun allowed => ?_, nofun⟩
  simp only [Expr.all, isAllowed, isRead, Bool.true_and, Expr.allItems_iff] at allowed ⊢
  exact fun e he => (h e he).id (allowed e he)

theorem Clean.subscript (hbase : Clean base) (hindex : Clean index) :
    Clean (.subscript base index) := by
  refine ⟨fun allowed => ?_, nofun⟩
  simp only [Expr.all, isAllowed, isRead, Bool.true_and, Bool.and_eq_true] at allowed ⊢
  exact ⟨hbase.id allowed.1, hindex.id allowed.2⟩

theorem Clean.member {part : String} (h : Clean base) : Clean (.attribute base part) := by
  refine ⟨fun allowed => ?_, nofun⟩
  simp only [Expr.all, isRead, Bool.true_and, Bool.and_eq_true] at allowed ⊢
  exact h.id allowed.2

theorem Clean.binary {op : BinaryOp} (hleft : Clean left) (hright : Clean right) :
    Clean (.binary op left right) := by
  refine ⟨fun allowed => ?_, nofun⟩
  simp only [Expr.all, isRead, Bool.true_and, Bool.and_eq_true] at allowed ⊢
  exact ⟨hleft.id allowed.2.1, hright.id allowed.2.2⟩

theorem Clean.unary {op : UnaryOp} (h : Clean operand) : Clean (.unary op operand) := by
  refine ⟨fun allowed => ?_, nofun⟩
  simp only [Expr.all, isRead, Bool.true_and, Bool.and_eq_true] at allowed ⊢
  exact h.id allowed.2

end Clean

section Keeps

variable {α β : Type} {P : α → Prop} {R : β → Prop} {ts rest : List Token}

theorem Keeps.none : Keeps P none := nofun

theorem Keeps.some {a : α} (h : P a) (left : Left rest) : Keeps P (some (a, rest)) := by
  rintro _ _ ⟨⟩
  exact ⟨h, left⟩

theorem Keeps.bind {x : Option (α × List Token)} {f : α × List Token → Option (β × List Token)}
    (hx : Keeps P x) (hf : ∀ a rest, P a → Left rest → Keeps R (f (a, rest))) :
    Keeps R (x >>= f) := by
  intro b rest h
  obtain ⟨⟨a, between⟩, read, h⟩ := Option.bind_eq_some_iff.mp h
  obtain ⟨ha, left⟩ := hx a between read
  exact hf a between ha left b rest h

theorem Keeps.map {x : Option (α × List Token)} {f : α × List Token → β × List Token}
    (hx : Keeps P x) (hf : ∀ a rest, P a → Left rest → R (f (a, rest)).1 ∧ Left (f (a, rest)).2) :
    Keeps R (x.map f) := by
  intro b rest h
  obtain ⟨⟨a, between⟩, read, same⟩ := Option.map_eq_some_iff.mp h
  obtain ⟨ha, left⟩ := hx a between read
  have kept := hf a between ha left
  rwa [same] at kept

theorem Left.nil : Left [] :=
  List.forall_mem_nil _

theorem Left.tail {t : Token} (h : Left (t :: ts)) : Left ts :=
  fun t' ht' => h t' (List.mem_cons_of_mem _ ht')

theorem Left.symbol {s : String} (h : Left ts) (dropped : dropSymbol? s ts = .some rest) :
    Left rest := by
  unfold dropSymbol? at dropped
  split at dropped
  · split at dropped
    · cases dropped
      exact h.tail
    · cases dropped
  · cases dropped

theorem Left.keyword {word : String} (h : Left ts) (dropped : dropKeyword? word ts = .some rest) :
    Left rest := by
  unfold dropKeyword? at dropped
  split at dropped
  · split at dropped
    · cases dropped
      exact h.tail
    · cases dropped
  · cases dropped

theorem Keeps.symbol {s : String} {f : List Token → Option (β × List Token)} (h : Left ts)
    (hf : ∀ rest, Left rest → Keeps R (f rest)) : Keeps R (dropSymbol? s ts >>= f) := by
  intro b rest found
  obtain ⟨between, dropped, found⟩ := Option.bind_eq_some_iff.mp found
  exact hf between (h.symbol dropped) b rest found

theorem Keeps.keyword {word : String} {f : List Token → Option (β × List Token)} (h : Left ts)
    (hf : ∀ rest, Left rest → Keeps R (f rest)) : Keeps R (dropKeyword? word ts >>= f) := by
  intro b rest found
  obtain ⟨between, dropped, found⟩ := Option.bind_eq_some_iff.mp found
  exact hf between (h.keyword dropped) b rest found

end Keeps

/-- Anything. -/
def Any {α : Type} (_ : α) : Prop := True

/-- All items are clean. -/
def AllClean (es : List Expr) : Prop := ∀ e ∈ es, Clean e

theorem AllClean.nil : AllClean [] :=
  List.forall_mem_nil _

theorem AllClean.cons {e : Expr} {es : List Expr} (rest : AllClean es) (first : Clean e) :
    AllClean (e :: es) :=
  List.forall_mem_cons.mpr ⟨first, rest⟩

/-- What the functions of the parser keep with so much fuel. -/
structure Sound (fuel : Nat) : Prop where
  expression : ∀ {ts}, Left ts → Keeps Clean (expression fuel ts)
  disjunction : ∀ {ts}, Left ts → Keeps Clean (disjunction fuel ts)
  disjunctionTail : ∀ {ts}, Left ts → Keeps Any (disjunctionTail fuel ts)
  conjunction : ∀ {ts}, Left ts → Keeps Clean (conjunction fuel ts)
  conjunctionTail : ∀ {ts}, Left ts → Keeps Any (conjunctionTail fuel ts)
  inversion : ∀ {ts}, Left ts → Keeps Clean (inversion fuel ts)
  comparisonTail : ∀ {ts}, Left ts → Keeps Any (comparisonTail fuel ts)
  binary : ∀ {level ts}, Left ts → Keeps Clean (binary fuel level ts)
  binaryTail : ∀ {level e ts}, Clean e → Left ts → Keeps Clean (binaryTail fuel level e ts)
  factor : ∀ {ts}, Left ts → Keeps Clean (factor fuel ts)
  power : ∀ {ts}, Left ts → Keeps Clean (power fuel ts)
  primary : ∀ {ts}, Left ts → Keeps Clean (primary fuel ts)
  trailers : ∀ {e ts}, Clean e → Left ts → Keeps Clean (trailers fuel e ts)
  argumentList : ∀ {stage ts}, Left ts → Keeps (AllClean ·.1) (argumentList fuel stage ts)
  argumentsAfter : ∀ {stage ts}, Left ts → Keeps (AllClean ·.1) (argumentsAfter fuel stage ts)
  subscripts : ∀ {ts}, Left ts → Keeps Clean (subscripts fuel ts)
  subscriptTail : ∀ {ts}, Left ts → Keeps AllClean (subscriptTail fuel ts)
  subscriptItem : ∀ {ts}, Left ts → Keeps Clean (subscriptItem fuel ts)
  sliceRest : ∀ {lower ts}, Left ts → Keeps Clean (sliceRest fuel lower ts)
  slicePart : ∀ {ts}, Left ts → Keeps Any (slicePart fuel ts)
  named : ∀ {ts}, Left ts → Keeps Clean (named fuel ts)
  starNamed : ∀ {ts}, Left ts → Keeps Clean (starNamed fuel ts)
  itemsAfter : ∀ {closing ts}, Left ts → Keeps AllClean (itemsAfter fuel closing ts)
  starExpressions : ∀ {ts}, Left ts → Keeps Clean (starExpressions fuel ts)
  starExpressionTail : ∀ {ts}, Left ts → Keeps AllClean (starExpressionTail fuel ts)
  starExpression : ∀ {ts}, Left ts → Keeps Clean (starExpression fuel ts)
  yieldRest : ∀ {ts}, Left ts → Keeps Clean (yieldRest fuel ts)
  atom : ∀ {ts}, Left ts → Keeps Clean (atom fuel ts)
  round : ∀ {ts}, Left ts → Keeps Clean (round fuel ts)
  square : ∀ {ts}, Left ts → Keeps Clean (square fuel ts)
  braces : ∀ {ts}, Left ts → Keeps Clean (braces fuel ts)
  entryList : ∀ {ts}, Left ts → Keeps Any (entryList fuel ts)
  entriesAfter : ∀ {ts}, Left ts → Keeps Any (entriesAfter fuel ts)
  clauseList : ∀ {ts}, Left ts → Keeps Any (clauseList fuel ts)
  conditionList : ∀ {ts}, Left ts → Keeps Any (conditionList fuel ts)
  targets : ∀ {ts}, Left ts → Keeps Any (targets fuel ts)
  targetTail : ∀ {ts}, Left ts → Keeps Any (targetTail fuel ts)
  target : ∀ {ts}, Left ts → Keeps Any (target fuel ts)
  parameterList : ∀ {stage ts}, Left ts → Keeps Any (parameterList fuel stage ts)
  parametersAfter : ∀ {stage ts}, Left ts → Keeps Any (parametersAfter fuel stage ts)

theorem sound_zero : Sound 0 := by
  constructor <;> intros <;> intro _ _ read <;>
    simp [Parser.expression, Parser.disjunction, Parser.disjunctionTail, Parser.conjunction,
      Parser.conjunctionTail, Parser.inversion, Parser.comparisonTail, Parser.binary,
      Parser.binaryTail, Parser.factor, Parser.power, Parser.primary, Parser.trailers,
      Parser.argumentList, Parser.argumentsAfter, Parser.subscripts, Parser.subscriptTail,
      Parser.subscriptItem, Parser.sliceRest, Parser.slicePart, Parser.named,
      Parser.starNamed, Parser.itemsAfter, Parser.starExpressions,
      Parser.starExpressionTail, Parser.starExpression, Parser.yieldRest, Parser.atom,
      Parser.round, Parser.square, Parser.braces, Parser.entryList, Parser.entriesAfter,
      Parser.clauseList, Parser.conditionList, Parser.targets, Parser.targetTail,
      Parser.target, Parser.parameterList, Parser.parametersAfter] at read

section Step

variable {fuel : Nat} {ts : List Token}

theorem expression_keeps (h : Sound fuel) (left : Left ts) :
    Keeps Clean (expression (fuel + 1) ts) := by
  rw [expression]
  split
  · rename_i dropped
    refine (h.parameterList (left.keyword dropped)).bind fun _ _ _ left => ?_
    exact (h.expression left).bind fun _ _ _ left => .some (.refused rfl rfl) left
  · refine (h.disjunction left).bind fun _ rest clean left => ?_
    dsimp only
    split
    · exact .some clean left
    · rename_i dropped
      refine (h.disjunction (left.keyword dropped)).bind fun _ _ _ left => ?_
      refine Keeps.keyword left fun _ left => ?_
      exact (h.expression left).bind fun _ _ _ left => .some (.refused rfl rfl) left

theorem disjunction_keeps (h : Sound fuel) (left : Left ts) :
    Keeps Clean (disjunction (fuel + 1) ts) := by
  rw [disjunction]
  refine (h.conjunction left).bind fun _ _ clean left => ?_
  refine (h.disjunctionTail left).bind fun _ _ _ left => ?_
  refine .some ?_ left
  split
  · exact clean
  · exact .refused rfl rfl

theorem disjunctionTail_keeps (h : Sound fuel) (left : Left ts) :
    Keeps Any (disjunctionTail (fuel + 1) ts) := by
  rw [disjunctionTail]
  split
  · exact .some trivial left
  · rename_i dropped
    refine (h.conjunction (left.keyword dropped)).bind fun _ _ _ left => ?_
    exact (h.disjunctionTail left).bind fun _ _ _ left => .some trivial left

theorem conjunction_keeps (h : Sound fuel) (left : Left ts) :
    Keeps Clean (conjunction (fuel + 1) ts) := by
  rw [conjunction]
  refine (h.inversion left).bind fun _ _ clean left => ?_
  refine (h.conjunctionTail left).bind fun _ _ _ left => ?_
  refine .some ?_ left
  split
  · exact clean
  · exact .refused rfl rfl

theorem conjunctionTail_keeps (h : Sound fuel) (left : Left ts) :
    Keeps Any (conjunctionTail (fuel + 1) ts) := by
  rw [conjunctionTail]
  split
  · exact .some trivial left
  · rename_i dropped
    refine (h.inversion (left.keyword dropped)).bind fun _ _ _ left => ?_
    exact (h.conjunctionTail left).bind fun _ _ _ left => .some trivial left

theorem inversion_keeps (h : Sound fuel) (left : Left ts) :
    Keeps Clean (inversion (fuel + 1) ts) := by
  rw [inversion]
  split
  · rename_i dropped
    exact (h.inversion (left.keyword dropped)).bind fun _ _ clean left => .some clean.unary left
  · refine (h.binary left).bind fun _ _ clean left => ?_
    refine (h.comparisonTail left).bind fun _ _ _ left => ?_
    refine .some ?_ left
    split
    · exact clean
    · exact .refused rfl rfl

theorem Left.comparison {op : CompareOp} {rest : List Token} (h : Left ts)
    (taken : takeComparison? ts = some (op, rest)) : Left rest := by
  unfold takeComparison? at taken
  split at taken
  · split at taken <;> first | (cases taken; exact h.tail) | cases taken
  · cases taken
    exact h.tail
  · cases taken
    exact h.tail.tail
  · cases taken
    exact h.tail.tail
  · cases taken
    exact h.tail
  · cases taken

theorem comparisonTail_keeps (h : Sound fuel) (left : Left ts) :
    Keeps Any (comparisonTail (fuel + 1) ts) := by
  rw [comparisonTail]
  split
  · exact .some trivial left
  · rename_i taken
    refine (h.binary (left.comparison taken)).bind fun _ _ _ left => ?_
    exact (h.comparisonTail left).bind fun _ _ _ left => .some trivial left

theorem binary_keeps (h : Sound fuel) {level : Nat} (left : Left ts) :
    Keeps Clean (binary (fuel + 1) level ts) := by
  rw [binary]
  split
  · exact h.factor left
  · exact (h.binary left).bind fun _ _ clean left => h.binaryTail clean left

theorem Left.binary {level : Nat} {op : BinaryOp} {rest : List Token} (h : Left ts)
    (taken : takeBinary? level ts = some (op, rest)) : Left rest := by
  unfold takeBinary? at taken
  split at taken
  · obtain ⟨_, _, same⟩ := Option.map_eq_some_iff.mp taken
    cases same
    exact h.tail
  · cases taken

theorem binaryTail_keeps (h : Sound fuel) {level : Nat} {e : Expr} (clean : Clean e)
    (left : Left ts) : Keeps Clean (binaryTail (fuel + 1) level e ts) := by
  rw [binaryTail]
  split
  · exact .some clean left
  · rename_i taken
    refine (h.binary (left.binary taken)).bind fun _ _ clean' left => ?_
    exact h.binaryTail (clean.binary clean') left

theorem Left.sign {op : UnaryOp} {rest : List Token} (h : Left ts)
    (taken : takeSign? ts = some (op, rest)) : Left rest := by
  unfold takeSign? at taken
  split at taken
  · split_ifs at taken <;>
      · cases taken
        exact h.tail
  · cases taken

theorem factor_keeps (h : Sound fuel) (left : Left ts) :
    Keeps Clean (factor (fuel + 1) ts) := by
  rw [factor]
  split
  · rename_i taken
    exact (h.factor (left.sign taken)).bind fun _ _ clean left => .some clean.unary left
  · exact h.power left

theorem power_keeps (h : Sound fuel) (left : Left ts) :
    Keeps Clean (power (fuel + 1) ts) := by
  rw [power]
  split
  on_goal 1 =>
    rename_i dropped
    have awaited := (h.primary (left.keyword dropped)).map (R := Clean)
      (f := fun read => (Expr.await read.1, read.2)) fun _ _ _ left => ⟨.refused rfl rfl, left⟩
    refine awaited.bind fun _ _ clean left => ?_
  on_goal 2 => refine (h.primary left).bind fun _ _ clean left => ?_
  all_goals
    dsimp only
    split
    · exact .some clean left
    · rename_i dropped
      exact (h.factor (left.symbol dropped)).bind fun _ _ clean' left =>
        .some (clean.binary clean') left

theorem primary_keeps (h : Sound fuel) (left : Left ts) :
    Keeps Clean (primary (fuel + 1) ts) := by
  rw [primary]
  exact (h.atom left).bind fun _ _ clean left => h.trailers clean left

theorem trailers_keeps (h : Sound fuel) {e : Expr} (clean : Clean e) (left : Left ts) :
    Keeps Clean (trailers (fuel + 1) e ts) := by
  unfold trailers
  split
  · exact h.trailers clean.member left.tail.tail
  · exact .none
  · exact (h.argumentList left.tail).bind fun _ _ clean left => h.trailers (.call clean) left
  · refine (h.subscripts left.tail).bind fun _ _ clean' left => ?_
    exact Keeps.symbol left fun _ left => h.trailers (clean.subscript clean') left
  · exact .some clean left

theorem argumentsAfter_keeps (h : Sound fuel) {stage : ArgumentStage} (left : Left ts) :
    Keeps (AllClean ·.1) (argumentsAfter (fuel + 1) stage ts) := by
  rw [argumentsAfter]
  split
  · rename_i dropped
    exact .some AllClean.nil (left.symbol dropped)
  · exact Keeps.symbol left fun _ left => h.argumentList left

theorem argumentList_keeps (h : Sound fuel) {stage : ArgumentStage} (left : Left ts) :
    Keeps (AllClean ·.1) (argumentList (fuel + 1) stage ts) := by
  unfold argumentList
  split
  · rename_i dropped
    exact .some AllClean.nil (left.symbol dropped)
  · split
    · split
      · exact .none
      · refine (h.expression left.tail).bind fun _ _ _ left => ?_
        exact (h.argumentsAfter left).bind fun _ _ more left =>
          .some (more.cons (.refused rfl rfl)) left
    · refine (h.expression left.tail).bind fun _ _ _ left => ?_
      exact (h.argumentsAfter left).bind fun _ _ more left => .some more left
    · refine (h.expression left.tail.tail).bind fun _ _ _ left => ?_
      exact (h.argumentsAfter left).bind fun _ _ more left => .some more left
    · split
      · exact .none
      · refine (h.named left).bind fun _ _ clean left => ?_
        dsimp only
        split
        · refine (h.clauseList left).bind fun _ _ _ left => ?_
          exact Keeps.symbol left fun _ left =>
            .some (AllClean.cons AllClean.nil (.refused rfl rfl)) left
        · exact (h.argumentsAfter left).bind fun _ _ more left => .some (more.cons clean) left

theorem subscripts_keeps (h : Sound fuel) (left : Left ts) :
    Keeps Clean (subscripts (fuel + 1) ts) := by
  rw [subscripts]
  refine (h.subscriptItem left).bind fun _ _ clean left => ?_
  dsimp only
  split
  · exact (h.subscriptTail left).bind fun _ _ more left => .some (.tuple (more.cons clean)) left
  · split
    · exact .some (.tuple (AllClean.cons AllClean.nil clean)) left
    · exact .some clean left

theorem subscriptTail_keeps (h : Sound fuel) (left : Left ts) :
    Keeps AllClean (subscriptTail (fuel + 1) ts) := by
  rw [subscriptTail]
  split
  · exact .some AllClean.nil left
  · rename_i dropped
    split
    · exact .some AllClean.nil (left.symbol dropped)
    · refine (h.subscriptItem (left.symbol dropped)).bind fun _ _ clean left => ?_
      exact (h.subscriptTail left).bind fun _ _ more left => .some (more.cons clean) left

theorem subscriptItem_keeps (h : Sound fuel) (left : Left ts) :
    Keeps Clean (subscriptItem (fuel + 1) ts) := by
  unfold subscriptItem
  split
  · exact (h.expression left.tail).bind fun _ _ _ left => .some (.refused rfl rfl) left
  · exact h.sliceRest left.tail
  · exact h.named left
  · refine (h.expression left).bind fun _ _ clean left => ?_
    dsimp only
    split
    · exact h.sliceRest left.tail
    · exact .none
    · exact .some clean left

theorem sliceRest_keeps (h : Sound fuel) {lower : Option Expr} (left : Left ts) :
    Keeps Clean (sliceRest (fuel + 1) lower ts) := by
  rw [sliceRest]
  refine (h.slicePart left).bind fun _ _ _ left => ?_
  dsimp only
  split
  · exact .some (.refused rfl rfl) left
  · rename_i dropped
    exact (h.slicePart (left.symbol dropped)).bind fun _ _ _ left => .some (.refused rfl rfl) left

theorem slicePart_keeps (h : Sound fuel) (left : Left ts) :
    Keeps Any (slicePart (fuel + 1) ts) := by
  rw [slicePart]
  split
  · exact .some trivial left
  · exact (h.expression left).bind fun _ _ _ left => .some trivial left

theorem named_keeps (h : Sound fuel) (left : Left ts) : Keeps Clean (named (fuel + 1) ts) := by
  unfold named
  split
  · exact (h.expression left.tail.tail).bind fun _ _ _ left => .some (.refused rfl rfl) left
  · refine (h.expression left).bind fun _ _ clean left => ?_
    dsimp only
    split
    · exact .none
    · exact .some clean left

theorem starNamed_keeps (h : Sound fuel) (left : Left ts) :
    Keeps Clean (starNamed (fuel + 1) ts) := by
  rw [starNamed]
  split
  · rename_i dropped
    exact (h.binary (left.symbol dropped)).bind fun _ _ _ left => .some (.refused rfl rfl) left
  · exact h.named left

theorem itemsAfter_keeps (h : Sound fuel) {closing : String} (left : Left ts) :
    Keeps AllClean (itemsAfter (fuel + 1) closing ts) := by
  rw [itemsAfter]
  split
  · rename_i dropped
    exact .some AllClean.nil (left.symbol dropped)
  · refine Keeps.symbol left fun _ left => ?_
    split
    · rename_i dropped
      exact .some AllClean.nil (left.symbol dropped)
    · refine (h.starNamed left).bind fun _ _ clean left => ?_
      exact (h.itemsAfter left).bind fun _ _ more left => .some (more.cons clean) left

theorem starExpressions_keeps (h : Sound fuel) (left : Left ts) :
    Keeps Clean (starExpressions (fuel + 1) ts) := by
  rw [starExpressions]
  refine (h.starExpression left).bind fun _ _ clean left => ?_
  dsimp only
  split
  · exact (h.starExpressionTail left).bind fun _ _ more left => .some (.tuple (more.cons clean)) left
  · exact .some clean left

theorem starExpressionTail_keeps (h : Sound fuel) (left : Left ts) :
    Keeps AllClean (starExpressionTail (fuel + 1) ts) := by
  rw [starExpressionTail]
  split
  · exact .some AllClean.nil left
  · rename_i dropped
    split
    · exact .some AllClean.nil (left.symbol dropped)
    · rename_i read
      obtain ⟨clean, left⟩ := h.starExpression (left.symbol dropped) _ _ read
      exact (h.starExpressionTail left).bind fun _ _ more left => .some (more.cons clean) left

theorem starExpression_keeps (h : Sound fuel) (left : Left ts) :
    Keeps Clean (starExpression (fuel + 1) ts) := by
  rw [starExpression]
  split
  · rename_i dropped
    exact (h.binary (left.symbol dropped)).bind fun _ _ _ left => .some (.refused rfl rfl) left
  · exact h.expression left

theorem yieldRest_keeps (h : Sound fuel) (left : Left ts) :
    Keeps Clean (yieldRest (fuel + 1) ts) := by
  rw [yieldRest]
  split
  · rename_i dropped
    exact (h.expression (left.keyword dropped)).bind fun _ _ _ left => .some (.refused rfl rfl) left
  · split
    · exact .some (.refused rfl rfl) left
    · exact (h.starExpressions left).bind fun _ _ _ left => .some (.refused rfl rfl) left

theorem Left.literals (h : Left ts) : Left (takeLiterals ts).2 := by
  fun_induction takeLiterals ts with
  | case1 content rest more after shown ih =>
      have after := ih h.tail
      rwa [shown] at after
  | case2 ts _ => exact h

theorem clean_constants {contents : List Literal} {e : Expr}
    (read : constants fuel contents = some e) : Clean e := by
  cases fuel with
  | zero => simp [constants] at read
  | succ fuel =>
      rw [constants] at read
      split at read
      · cases read
      · split at read
        · obtain ⟨_, _, same⟩ := Option.bind_eq_some_iff.mp read
          cases same
          exact .refused rfl rfl
        · obtain ⟨first, -, read⟩ := Option.bind_eq_some_iff.mp read
          split at read
          · obtain ⟨_, -, same⟩ := Option.bind_eq_some_iff.mp read
            cases same
            exact .constant rfl
          · obtain ⟨_, -, same⟩ := Option.bind_eq_some_iff.mp read
            cases same
            exact .constant rfl

theorem atom_keeps (h : Sound fuel) (left : Left ts) : Keeps Clean (atom (fuel + 1) ts) := by
  unfold atom
  split
  · exact .some .name left.tail
  · exact .some (.constant (left _ List.mem_cons_self)) left.tail
  · exact .some (.constant rfl) left.tail
  · exact .some (.constant rfl) left.tail
  · exact .some (.constant rfl) left.tail
  · exact .some (.constant rfl) left.tail
  · intro e rest read
    obtain ⟨e', constant, same⟩ := Option.bind_eq_some_iff.mp read
    cases same
    exact ⟨clean_constants constant, left.literals⟩
  · exact h.round left.tail
  · exact h.square left.tail
  · exact h.braces left.tail
  · exact .none

theorem round_keeps (h : Sound fuel) (left : Left ts) : Keeps Clean (round (fuel + 1) ts) := by
  rw [round]
  split
  · rename_i dropped
    exact .some (.tuple AllClean.nil) (left.symbol dropped)
  · split
    · rename_i dropped
      refine (h.yieldRest (left.keyword dropped)).bind fun _ _ clean left => ?_
      exact Keeps.symbol left fun _ left => .some clean left
    · refine (h.starNamed left).bind fun _ _ clean left => ?_
      dsimp only
      split
      · exact (h.itemsAfter left).bind fun _ _ more left => .some (.tuple (more.cons clean)) left
      · split
        · exact .none
        · split
          · refine (h.clauseList left).bind fun _ _ _ left => ?_
            exact Keeps.symbol left fun _ left => .some (.refused rfl rfl) left
          · exact Keeps.symbol left fun _ left => .some clean left

theorem square_keeps (h : Sound fuel) (left : Left ts) : Keeps Clean (square (fuel + 1) ts) := by
  rw [square]
  split
  · rename_i dropped
    exact .some (.refused rfl rfl) (left.symbol dropped)
  · refine (h.starNamed left).bind fun _ _ _ left => ?_
    dsimp only
    split
    · split
      · exact .none
      · refine (h.clauseList left).bind fun _ _ _ left => ?_
        exact Keeps.symbol left fun _ left => .some (.refused rfl rfl) left
    · exact (h.itemsAfter left).bind fun _ _ _ left => .some (.refused rfl rfl) left

theorem braces_keeps (h : Sound fuel) (left : Left ts) : Keeps Clean (braces (fuel + 1) ts) := by
  rw [braces]
  split
  · rename_i dropped
    exact .some (.refused rfl rfl) (left.symbol dropped)
  · split
    · exact (h.entryList left).bind fun _ _ _ left => .some (.refused rfl rfl) left
    · refine (h.starNamed left).bind fun _ _ _ left => ?_
      dsimp only
      split
      · rename_i dropped
        split
        · exact .none
        · split
          · exact .none
          · refine (h.expression (left.symbol dropped)).bind fun _ _ _ left => ?_
            dsimp only
            split
            · refine (h.clauseList left).bind fun _ _ _ left => ?_
              exact Keeps.symbol left fun _ left => .some (.refused rfl rfl) left
            · exact (h.entriesAfter left).bind fun _ _ _ left => .some (.refused rfl rfl) left
      · split
        · split
          · exact .none
          · refine (h.clauseList left).bind fun _ _ _ left => ?_
            exact Keeps.symbol left fun _ left => .some (.refused rfl rfl) left
        · exact (h.itemsAfter left).bind fun _ _ _ left => .some (.refused rfl rfl) left

theorem entryList_keeps (h : Sound fuel) (left : Left ts) :
    Keeps Any (entryList (fuel + 1) ts) := by
  rw [entryList]
  split
  · rename_i dropped
    refine (h.binary (left.symbol dropped)).bind fun _ _ _ left => ?_
    exact (h.entriesAfter left).bind fun _ _ _ left => .some trivial left
  · refine (h.expression left).bind fun _ _ _ left => ?_
    refine Keeps.symbol left fun _ left => ?_
    refine (h.expression left).bind fun _ _ _ left => ?_
    exact (h.entriesAfter left).bind fun _ _ _ left => .some trivial left

theorem entriesAfter_keeps (h : Sound fuel) (left : Left ts) :
    Keeps Any (entriesAfter (fuel + 1) ts) := by
  rw [entriesAfter]
  split
  · rename_i dropped
    exact .some trivial (left.symbol dropped)
  · refine Keeps.symbol left fun _ left => ?_
    split
    · rename_i dropped
      exact .some trivial (left.symbol dropped)
    · exact h.entryList left

theorem clauseList_keeps (h : Sound fuel) (left : Left ts) :
    Keeps Any (clauseList (fuel + 1) ts) := by
  rw [clauseList]
  cases async : dropKeyword? "async" ts
  on_goal 2 => have left := left.keyword async
  all_goals
    dsimp only
    refine Keeps.keyword left fun _ left => ?_
    refine (h.targets left).bind fun _ _ _ left => ?_
    refine Keeps.keyword left fun _ left => ?_
    refine (h.disjunction left).bind fun _ _ _ left => ?_
    refine (h.conditionList left).bind fun _ _ _ left => ?_
    dsimp only
    split
    · exact (h.clauseList left).bind fun _ _ _ left => .some trivial left
    · exact .some trivial left

theorem conditionList_keeps (h : Sound fuel) (left : Left ts) :
    Keeps Any (conditionList (fuel + 1) ts) := by
  rw [conditionList]
  split
  · exact .some trivial left
  · rename_i dropped
    refine (h.disjunction (left.keyword dropped)).bind fun _ _ _ left => ?_
    exact (h.conditionList left).bind fun _ _ _ left => .some trivial left

theorem targets_keeps (h : Sound fuel) (left : Left ts) : Keeps Any (targets (fuel + 1) ts) := by
  rw [targets]
  refine (h.target left).bind fun _ _ _ left => ?_
  dsimp only
  split
  · exact (h.targetTail left).bind fun _ _ _ left => .some trivial left
  · exact .some trivial left

theorem targetTail_keeps (h : Sound fuel) (left : Left ts) :
    Keeps Any (targetTail (fuel + 1) ts) := by
  rw [targetTail]
  split
  · exact .some trivial left
  · rename_i dropped
    split
    · exact .some trivial (left.symbol dropped)
    · refine (h.target (left.symbol dropped)).bind fun _ _ _ left => ?_
      exact (h.targetTail left).bind fun _ _ _ left => .some trivial left

theorem target_keeps (h : Sound fuel) (left : Left ts) : Keeps Any (target (fuel + 1) ts) := by
  rw [target]
  split
  · rename_i dropped
    refine (h.primary (left.symbol dropped)).bind fun _ _ _ left => ?_
    dsimp only
    split
    · exact .some trivial left
    · exact .none
  · refine (h.primary left).bind fun _ _ _ left => ?_
    dsimp only
    split
    · exact .some trivial left
    · exact .none

theorem parametersAfter_keeps (h : Sound fuel) {stage : ParameterStage} (left : Left ts) :
    Keeps Any (parametersAfter (fuel + 1) stage ts) := by
  rw [parametersAfter]
  split
  · exact h.parameterList left
  · exact Keeps.symbol left fun _ left => h.parameterList left

theorem parameterList_keeps (h : Sound fuel) {stage : ParameterStage} (left : Left ts) :
    Keeps Any (parameterList (fuel + 1) stage ts) := by
  unfold parameterList
  split
  · split
    · exact .none
    · exact .some trivial left.tail
  · split
    · exact .none
    · exact h.parametersAfter left.tail
  · split
    · exact .none
    · exact h.parametersAfter left.tail.tail
  · split
    · exact .none
    · exact h.parameterList left.tail.tail
  · split
    · exact .none
    · cases comma : dropSymbol? "," _
      on_goal 1 => have left := left.tail.tail
      on_goal 2 => have left := left.tail.tail.symbol comma
      all_goals exact Keeps.symbol left fun _ left => .some trivial left
  · rename_i id rest
    cases assigned : dropSymbol? "=" rest
    on_goal 1 =>
      refine Keeps.bind (P := Any) (.some trivial left.tail) fun _ _ _ left => ?_
    on_goal 2 =>
      have read := (h.expression (left.tail.symbol assigned)).map (R := Any)
        (f := fun read => (some read.1, read.2)) fun _ _ _ left => ⟨trivial, left⟩
      refine read.bind fun _ _ _ left => ?_
    all_goals
      dsimp only
      split
      · exact h.parametersAfter left
      · split
        · exact .none
        · exact h.parametersAfter left
  · exact .none

theorem sound_succ (h : Sound fuel) : Sound (fuel + 1) where
  expression := expression_keeps h
  disjunction := disjunction_keeps h
  disjunctionTail := disjunctionTail_keeps h
  conjunction := conjunction_keeps h
  conjunctionTail := conjunctionTail_keeps h
  inversion := inversion_keeps h
  comparisonTail := comparisonTail_keeps h
  binary := binary_keeps h
  binaryTail := binaryTail_keeps h
  factor := factor_keeps h
  power := power_keeps h
  primary := primary_keeps h
  trailers := trailers_keeps h
  argumentList := argumentList_keeps h
  argumentsAfter := argumentsAfter_keeps h
  subscripts := subscripts_keeps h
  subscriptTail := subscriptTail_keeps h
  subscriptItem := subscriptItem_keeps h
  sliceRest := sliceRest_keeps h
  slicePart := slicePart_keeps h
  named := named_keeps h
  starNamed := starNamed_keeps h
  itemsAfter := itemsAfter_keeps h
  starExpressions := starExpressions_keeps h
  starExpressionTail := starExpressionTail_keeps h
  starExpression := starExpression_keeps h
  yieldRest := yieldRest_keeps h
  atom := atom_keeps h
  round := round_keeps h
  square := square_keeps h
  braces := braces_keeps h
  entryList := entryList_keeps h
  entriesAfter := entriesAfter_keeps h
  clauseList := clauseList_keeps h
  conditionList := conditionList_keeps h
  targets := targets_keeps h
  targetTail := targetTail_keeps h
  target := target_keeps h
  parameterList := parameterList_keeps h
  parametersAfter := parametersAfter_keeps h

/-- However much fuel there is, what the parser makes of tokens that can be read can be read. -/
theorem sound (fuel : Nat) : Sound fuel := by
  induction fuel with
  | zero => exact sound_zero
  | succ fuel ih => exact sound_succ ih

end Step

section Whole

variable {bound fuel : Nat} {ts : List Token}

theorem expressionTail_keeps (left : Left ts) :
    Keeps AllClean (expressionTail bound fuel ts) := by
  induction fuel generalizing ts with
  | zero => exact .none
  | succ fuel ih =>
      rw [expressionTail]
      split
      · exact .some AllClean.nil left
      · rename_i dropped
        split
        · exact .some AllClean.nil (left.symbol dropped)
        · rename_i read
          obtain ⟨clean, left⟩ := (sound bound).expression (left.symbol dropped) _ _ read
          exact (ih left).bind fun _ _ more left => .some (more.cons clean) left

theorem clean_whole {e : Expr} (left : Left ts) (read : whole? bound ts = some e) : Clean e := by
  have first := (sound bound).expression left
  unfold whole? at read
  obtain ⟨⟨e', rest⟩, read', read⟩ := Option.bind_eq_some_iff.mp read
  obtain ⟨clean, left⟩ := first e' rest read'
  simp only [Option.bind_eq_bind, Option.bind_some] at read
  split at read
  · obtain ⟨⟨more, rest⟩, read', read⟩ := Option.bind_eq_some_iff.mp read
    obtain ⟨cleans, -⟩ := expressionTail_keeps left _ _ read'
    simp only at read
    split at read
    · cases read
      exact .tuple (cleans.cons clean)
    · cases read
  · split at read
    · cases read
      exact clean
    · cases read

end Whole

end Parser

namespace Token

section Numbers

variable {cs rest : List Char} {v : Value}

theorem isRead_basedInteger {base : Nat} {isDigit : Char → Bool}
    (read : basedInteger? base isDigit cs = some (v, rest)) :
    Expr.isRead (.constant v false) = true := by
  obtain ⟨⟨ds, after⟩, -, read⟩ := Option.bind_eq_some_iff.mp read
  dsimp only at read
  split at read
  · cases read
  · cases read
    simp [Expr.isRead]

theorem isRead_finish {hasPoint : Bool} {whole : List Char} {exponent : Option Int}
    {double : Float} (read : decimal?.finish hasPoint whole exponent double cs = some (v, rest)) :
    Expr.isRead (.constant v false) = true := by
  unfold decimal?.finish at read
  split_ifs at read <;>
    · cases read
      simp [Expr.isRead]

theorem isRead_decimal (read : decimal? cs = some (v, rest)) :
    Expr.isRead (.constant v false) = true := by
  unfold decimal? at read
  obtain ⟨⟨whole, after⟩, -, read⟩ := Option.bind_eq_some_iff.mp read
  dsimp only at read
  split at read
  on_goal 1 => split at read
  all_goals
    obtain ⟨_, -, read⟩ := Option.bind_eq_some_iff.mp read
    obtain ⟨_, -, read⟩ := Option.bind_eq_some_iff.mp read
    split at read
    · split_ifs at read
      · cases read
        rfl
      · exact isRead_finish read
    · exact isRead_finish read

/-- No number is read with a sign. -/
theorem isRead_number (read : number? cs = some (v, rest)) :
    Expr.isRead (.constant v false) = true := by
  unfold number? at read
  split at read
  · split_ifs at read
    · exact isRead_basedInteger read
    · exact isRead_basedInteger read
    · exact isRead_basedInteger read
    · exact isRead_decimal read
  · exact isRead_decimal read

end Numbers

section Scan

variable {fuel : Nat} {opened cs : List Char} {fresh : Bool} {ts : List Token}

theorem isRead_word {word : List Char} {t : Token} (read : ofWord? word = some t) :
    t.isRead = true := by
  simp only [ofWord?] at read
  split_ifs at read <;>
    · cases read
      rfl

/-- Every token takes a step, and numbers can be read. -/
theorem scan_read (h : scan fuel opened fresh cs = some ts) :
    ts.length < fuel ∧ Parser.Left ts := by
  induction fuel generalizing opened fresh cs ts with
  | zero => cases h
  | succ fuel ih =>
      have more {opened cs : List Char} {fresh : Bool} {t : Token} (read : t.isRead = true)
          (h : (scan fuel opened fresh cs).map (t :: ·) = some ts) :
          ts.length < fuel + 1 ∧ Parser.Left ts := by
        obtain ⟨rest, found, rfl⟩ := Option.map_eq_some_iff.mp h
        obtain ⟨short, left⟩ := ih found
        exact ⟨Nat.succ_lt_succ short, List.forall_mem_cons.mpr ⟨read, left⟩⟩
      have same {opened cs : List Char} {fresh : Bool} (h : scan fuel opened fresh cs = some ts) :
          ts.length < fuel + 1 ∧ Parser.Left ts := by
        obtain ⟨short, left⟩ := ih h
        exact ⟨Nat.lt_succ_of_lt short, left⟩
      rw [scan] at h
      -- the text is cut in the same way whether or not a line starts
      cases fresh
      all_goals
        simp only [Bool.false_eq_true, if_false, if_true, Option.bind_eq_bind] at h
        obtain ⟨start, -, h⟩ := Option.bind_eq_some_iff.mp h
        obtain ⟨column, rest⟩ := start
        simp only at h
        split at h
        · cases h
          exact ⟨Nat.succ_pos _, Parser.Left.nil⟩
        · exact same h
        · split at h
          · exact same h
          · exact more rfl h
        · split at h
          · cases h
          · exact same h
        · split at h
          · cases h
          · split at h
            · obtain ⟨_, -, h⟩ := Option.bind_eq_some_iff.mp h
              exact more rfl h
            · split at h
              · obtain ⟨_, number, h⟩ := Option.bind_eq_some_iff.mp h
                exact more (t := .number _) (isRead_number number) h
              · split at h
                · obtain ⟨_, word, h⟩ := Option.bind_eq_some_iff.mp h
                  exact more (isRead_word word) h
                · obtain ⟨_, -, h⟩ := Option.bind_eq_some_iff.mp h
                  obtain ⟨_, -, h⟩ := Option.bind_eq_some_iff.mp h
                  exact more rfl h

end Scan

end Token

namespace Expr

variable {known : String → Bool} {e : Expr}

theorem Accepted.any (h : e.Accepted known) : e.all (isAllowed fun _ => true) = true := by
  induction h with
  | constant _ => rfl
  | name _ => rfl
  | tuple _ ih =>
      simp only [all, isAllowed, Bool.true_and]
      exact allItems_iff.mpr ih
  | subscript _ _ ihBase ihIndex => simp [all, isAllowed, ihBase, ihIndex]
  | member hidden _ ih => simp [all, isAllowed, hidden, ih]
  | binary arithmetic _ _ ihLeft ihRight => simp [all, isAllowed, arithmetic, ihLeft, ihRight]
  | unary signed _ ih => simp [all, isAllowed, signed, ih]

/-- The constants of an accepted id that was read are those that its text gives back. -/
theorem Accepted.all_isRead {text : String} (accepted : e.Accepted known)
    (reads : Destination.Reads text e) : e.all isRead = true := by
  obtain ⟨shown, read⟩ := reads
  simp only [readTrimmed] at read
  split at read
  · cases read
  · split at read
    · rename_i whole
      obtain ⟨-, rfl⟩ := Prod.mk.inj (Except.ok.inj read)
      obtain ⟨ts, cut, parsed⟩ := Option.bind_eq_some_iff.mp whole
      have clean := Parser.clean_whole (Token.scan_read cut).2 parsed
      exact clean.arguments rfl e (List.mem_singleton_self e) accepted.any
    · cases read

end Expr

end BlockAngular.Rule
