import BlockAngular.Proofs.Rule.Checking

/-! # The variables of ids

The names in an id stand for what the scope holds under them. With other names for them an id is
accepted, and has the same value or error, where its names are known and the new scope holds under
the new names what the old one does under theirs.
-/

namespace BlockAngular.Rule

mutual

/-- The expression with other names for its variables. Attributes and keywords keep theirs. -/
def Expr.rename (f : String → String) : Expr → Expr
  | .constant value marked => .constant value marked
  | .name id => .name (f id)
  | .tuple items => .tuple (renameItems f items)
  | .list items => .list (renameItems f items)
  | .set items => .set (renameItems f items)
  | .dict entries => .dict (renameEntries f entries)
  | .binary op left right => .binary op (left.rename f) (right.rename f)
  | .unary op operand => .unary op (operand.rename f)
  | .boolean op operands => .boolean op (renameItems f operands)
  | .compare first rest => .compare (first.rename f) (renameCompared f rest)
  | .conditional test body otherwise =>
    .conditional (test.rename f) (body.rename f) (otherwise.rename f)
  | .lambda parameters body => .lambda (renameParameters f parameters) (body.rename f)
  | .call function arguments keywords =>
    .call (function.rename f) (renameItems f arguments) (renameKeywords f keywords)
  | .attribute base part => .attribute (base.rename f) part
  | .subscript base index => .subscript (base.rename f) (index.rename f)
  | .slice lower upper step =>
    .slice (renamePresent f lower) (renamePresent f upper) (renamePresent f step)
  | .starred operand => .starred (operand.rename f)
  | .binding target value => .binding (f target) (value.rename f)
  | .await operand => .await (operand.rename f)
  | .yield operand => .yield (renamePresent f operand)
  | .yieldFrom operand => .yieldFrom (operand.rename f)
  | .generator element clauses => .generator (element.rename f) (renameClauses f clauses)
  | .listOf element clauses => .listOf (element.rename f) (renameClauses f clauses)
  | .setOf element clauses => .setOf (element.rename f) (renameClauses f clauses)
  | .dictOf key value clauses => .dictOf (key.rename f) (value.rename f) (renameClauses f clauses)
  | .template pieces => .template (renamePieces f pieces)

/-- `Expr.rename` for an expression that may be absent. -/
def Expr.renamePresent (f : String → String) : Option Expr → Option Expr
  | none => none
  | some e => some (e.rename f)

/-- `Expr.rename` for expressions in a row. -/
def Expr.renameItems (f : String → String) : List Expr → List Expr
  | [] => []
  | e :: rest => e.rename f :: renameItems f rest

/-- `Expr.rename` for the entries of a table. -/
def Expr.renameEntries (f : String → String) : List (Option Expr × Expr) → List (Option Expr × Expr)
  | [] => []
  | (key, value) :: rest => (renamePresent f key, value.rename f) :: renameEntries f rest

/-- `Expr.rename` for the further operands of a comparison. -/
def Expr.renameCompared (f : String → String) : List (CompareOp × Expr) → List (CompareOp × Expr)
  | [] => []
  | (op, e) :: rest => (op, e.rename f) :: renameCompared f rest

/-- `Expr.rename` for keyword arguments. -/
def Expr.renameKeywords (f : String → String) :
    List (Option String × Expr) → List (Option String × Expr)
  | [] => []
  | (keyword, e) :: rest => (keyword, e.rename f) :: renameKeywords f rest

/-- `Expr.rename` for parameters. -/
def Expr.renameParameters (f : String → String) : List Parameter → List Parameter
  | [] => []
  | .mk kind parameter default :: rest =>
    .mk kind (f parameter) (renamePresent f default) :: renameParameters f rest

/-- `Expr.rename` for the clauses of a comprehension. -/
def Expr.renameClauses (f : String → String) : List Clause → List Clause
  | [] => []
  | .mk isAsync target source conditions :: rest =>
    .mk isAsync (target.rename f) (source.rename f) (renameItems f conditions) ::
      renameClauses f rest

/-- `Expr.rename` for the pieces of a template. -/
def Expr.renamePieces (f : String → String) : List Piece → List Piece
  | [] => []
  | .text content :: rest => .text content :: renamePieces f rest
  | .field value conversion none :: rest =>
    .field (value.rename f) conversion none :: renamePieces f rest
  | .field value conversion (some format) :: rest =>
    .field (value.rename f) conversion (some (renamePieces f format)) :: renamePieces f rest

end

namespace Expr

/-- Whether a node is the variable of a name. -/
def isOther (name : String) : Expr → Bool
  | .name id => id != name
  | _ => true

/-- Whether a name stands for a value in an expression. -/
def mentions (name : String) (e : Expr) : Bool :=
  !e.all (isOther name)

/-- Whether a name stands for a value in one of the expressions. -/
def anyMentions (name : String) (es : List Expr) : Bool :=
  !allItems (isOther name) es

theorem renameItems_eq_map (f : String → String) (es : List Expr) :
    renameItems f es = es.map (rename f) := by
  induction es with
  | nil => rfl
  | cons e es ih => simp [renameItems, ih]

section Mentions

variable {n : String} {e base index left right : Expr} {es : List Expr} {op : BinaryOp}
  {sign : UnaryOp} {part : String}

theorem mentions_name {id : String} : (Expr.name id).mentions n = true ↔ id = n := by
  simp [mentions, all, isOther]

theorem mentions_tuple : (Expr.tuple es).mentions n = anyMentions n es := by
  simp [mentions, anyMentions, all, isOther]

theorem anyMentions_cons :
    anyMentions n (e :: es) = (e.mentions n || anyMentions n es) := by
  simp [mentions, anyMentions, allItems, Bool.not_and]

theorem anyMentions_of_mem (listed : e ∈ es) (h : e.mentions n = true) :
    anyMentions n es = true := by
  induction es with
  | nil => cases listed
  | cons first es ih =>
      rw [anyMentions_cons, Bool.or_eq_true]
      rcases List.mem_cons.mp listed with rfl | later
      · exact .inl h
      · exact .inr (ih later)

theorem mentions_subscript :
    (Expr.subscript base index).mentions n = (base.mentions n || index.mentions n) := by
  simp [mentions, all, isOther, Bool.not_and]

theorem mentions_attribute : (Expr.attribute base part).mentions n = base.mentions n := by
  simp [mentions, all, isOther]

theorem mentions_binary :
    (Expr.binary op left right).mentions n = (left.mentions n || right.mentions n) := by
  simp [mentions, all, isOther, Bool.not_and]

theorem mentions_unary : (Expr.unary sign e).mentions n = e.mentions n := by
  simp [mentions, all, isOther]

end Mentions

section Rename

variable {f : String → String} {known known' : String → Bool}

mutual

/-- An expression is allowed under other names where these are known if the old ones were. -/
theorem all_isAllowed_rename : (e : Expr) →
    (∀ n, e.mentions n = true → known' (f n) = known n) →
      (e.rename f).all (isAllowed known') = e.all (isAllowed known)
  | .constant _ _, _ => rfl
  | .name id, agree => by simp [rename, all, isAllowed, agree id (mentions_name.mpr rfl)]
  | .tuple items, agree => by
      simp only [rename, all, isAllowed, Bool.true_and]
      exact allItems_isAllowed_rename items fun n h => agree n (by rwa [mentions_tuple])
  | .subscript base index, agree => by
      have left := all_isAllowed_rename base fun n h => agree n (by simp [mentions_subscript, h])
      have right := all_isAllowed_rename index fun n h => agree n (by simp [mentions_subscript, h])
      simp [rename, all, isAllowed, left, right]
  | .attribute base part, agree => by
      have inner := all_isAllowed_rename base fun n h => agree n (by rwa [mentions_attribute])
      simp [rename, all, isAllowed, inner]
  | .binary op left right, agree => by
      have first := all_isAllowed_rename left fun n h => agree n (by simp [mentions_binary, h])
      have second := all_isAllowed_rename right fun n h => agree n (by simp [mentions_binary, h])
      simp [rename, all, isAllowed, first, second]
  | .unary op operand, agree => by
      have inner := all_isAllowed_rename operand fun n h => agree n (by rwa [mentions_unary])
      simp [rename, all, isAllowed, inner]
  | .list _, _ | .set _, _ | .dict _, _ | .boolean _ _, _ | .compare _ _, _
  | .conditional _ _ _, _ | .lambda _ _, _ | .call _ _ _, _ | .slice _ _ _, _ | .starred _, _
  | .binding _ _, _ | .await _, _ | .yield _, _ | .yieldFrom _, _ | .generator _ _, _
  | .listOf _ _, _ | .setOf _ _, _ | .dictOf _ _ _, _ | .template _, _ => by
      simp [rename, all, isAllowed]

theorem allItems_isAllowed_rename : (es : List Expr) →
    (∀ n, anyMentions n es = true → known' (f n) = known n) →
      allItems (isAllowed known') (renameItems f es) = allItems (isAllowed known) es
  | [], _ => rfl
  | e :: es, agree => by
      have first := all_isAllowed_rename e fun n h => agree n (by simp [anyMentions_cons, h])
      have others := allItems_isAllowed_rename es fun n h => agree n (by simp [anyMentions_cons, h])
      simp [renameItems, allItems, first, others]

end

variable {e : Expr} {es : List Expr} {scope scope' : Scope}

theorem allItems_renameItems {p : Expr → Bool} (each : ∀ e ∈ es, (e.rename f).all p = e.all p) :
    allItems p (renameItems f es) = allItems p es := by
  induction es with
  | nil => rfl
  | cons e es ih =>
      obtain ⟨first, others⟩ := List.forall_mem_cons.mp each
      simp [renameItems, allItems, first, ih others]

/-- Other names have no part in whether an accepted expression has a text. -/
theorem Accepted.all_isWritableHere_rename (h : e.Accepted known) :
    (e.rename f).all isWritableHere = e.all isWritableHere := by
  induction h with
  | constant value => rfl
  | name => rfl
  | tuple _ ih => simp [rename, all, isWritableHere, allItems_renameItems ih]
  | subscript _ _ ihBase ihIndex => simp [rename, all, isWritableHere, ihBase, ihIndex]
  | member _ _ ih => simp [rename, all, isWritableHere, ih]
  | binary _ _ _ ihLeft ihRight => simp [rename, all, isWritableHere, ihLeft, ihRight]
  | unary _ _ ih => simp [rename, all, isWritableHere, ih]

theorem evaluateAll_renameItems
    (each : ∀ e ∈ es, (e.rename f).evaluate scope' = e.evaluate scope) :
    evaluateAll scope' (renameItems f es) = evaluateAll scope es := by
  induction es with
  | nil => rfl
  | cons e es ih =>
      obtain ⟨first, others⟩ := List.forall_mem_cons.mp each
      simp only [renameItems, evaluateAll, first, ih others]

/-- An accepted expression has the same value or error in a scope that holds the same under the
new names. -/
theorem Accepted.evaluate_rename (h : e.Accepted known)
    (agree : ∀ n, e.mentions n = true → scope'.value? (f n) = scope.value? n) :
    (e.rename f).evaluate scope' = e.evaluate scope := by
  induction h with
  | constant value => rfl
  | name => simp only [rename, evaluate, agree _ (mentions_name.mpr rfl)]
  | @tuple items _ ih =>
      have each : ∀ e ∈ items, (e.rename f).evaluate scope' = e.evaluate scope := by
        intro e he
        refine ih e he fun n h => agree n ?_
        rw [mentions_tuple]
        exact anyMentions_of_mem he h
      simp only [rename, evaluate, evaluateAll_renameItems each]
  | subscript _ _ ihBase ihIndex =>
      have base := ihBase fun n h => agree n (by simp [mentions_subscript, h])
      have index := ihIndex fun n h => agree n (by simp [mentions_subscript, h])
      simp only [rename, evaluate, base, index]
  | member _ _ ih =>
      have base := ih fun n h => agree n (by rwa [mentions_attribute])
      simp only [rename, evaluate, base]
  | binary _ _ _ ihLeft ihRight =>
      have left := ihLeft fun n h => agree n (by simp [mentions_binary, h])
      have right := ihRight fun n h => agree n (by simp [mentions_binary, h])
      simp only [rename, evaluate, left, right]
  | unary _ _ ih =>
      have operand := ih fun n h => agree n (by rwa [mentions_unary])
      simp only [rename, evaluate, operand]

end Rename

mutual

theorem rename_self : (e : Expr) → e.rename (fun n => n) = e
  | .constant _ _ | .name _ => rfl
  | .tuple items | .list items | .set items => by simp [rename, renameItems_self items]
  | .dict entries => by simp [rename, renameEntries_self entries]
  | .binary _ left right => by simp [rename, rename_self left, rename_self right]
  | .unary _ operand | .attribute operand _ | .starred operand | .binding _ operand
  | .await operand | .yieldFrom operand => by simp [rename, rename_self operand]
  | .boolean _ operands => by simp [rename, renameItems_self operands]
  | .compare first rest => by simp [rename, rename_self first, renameCompared_self rest]
  | .conditional test body otherwise => by
      simp [rename, rename_self test, rename_self body, rename_self otherwise]
  | .lambda parameters body => by
      simp [rename, renameParameters_self parameters, rename_self body]
  | .call function arguments keywords => by
      simp [rename, rename_self function, renameItems_self arguments, renameKeywords_self keywords]
  | .subscript base index => by simp [rename, rename_self base, rename_self index]
  | .slice lower upper step => by
      simp [rename, renamePresent_self lower, renamePresent_self upper, renamePresent_self step]
  | .yield operand => by simp [rename, renamePresent_self operand]
  | .generator element clauses | .listOf element clauses | .setOf element clauses => by
      simp [rename, rename_self element, renameClauses_self clauses]
  | .dictOf key value clauses => by
      simp [rename, rename_self key, rename_self value, renameClauses_self clauses]
  | .template pieces => by simp [rename, renamePieces_self pieces]

theorem renamePresent_self : (e : Option Expr) → renamePresent (fun n => n) e = e
  | none => rfl
  | some e => by simp [renamePresent, rename_self e]

theorem renameItems_self : (es : List Expr) → renameItems (fun n => n) es = es
  | [] => rfl
  | e :: es => by simp [renameItems, rename_self e, renameItems_self es]

theorem renameEntries_self :
    (es : List (Option Expr × Expr)) → renameEntries (fun n => n) es = es
  | [] => rfl
  | (key, value) :: es => by
      simp [renameEntries, renamePresent_self key, rename_self value, renameEntries_self es]

theorem renameCompared_self : (es : List (CompareOp × Expr)) → renameCompared (fun n => n) es = es
  | [] => rfl
  | (_, e) :: es => by simp [renameCompared, rename_self e, renameCompared_self es]

theorem renameKeywords_self :
    (es : List (Option String × Expr)) → renameKeywords (fun n => n) es = es
  | [] => rfl
  | (_, e) :: es => by simp [renameKeywords, rename_self e, renameKeywords_self es]

theorem renameParameters_self : (ps : List Parameter) → renameParameters (fun n => n) ps = ps
  | [] => rfl
  | .mk _ _ default :: ps => by
      simp [renameParameters, renamePresent_self default, renameParameters_self ps]

theorem renameClauses_self : (cs : List Clause) → renameClauses (fun n => n) cs = cs
  | [] => rfl
  | .mk _ target source conditions :: cs => by
      simp [renameClauses, rename_self target, rename_self source, renameItems_self conditions,
        renameClauses_self cs]

theorem renamePieces_self : (ps : List Piece) → renamePieces (fun n => n) ps = ps
  | [] => rfl
  | .text _ :: ps => by simp [renamePieces, renamePieces_self ps]
  | .field value _ none :: ps => by simp [renamePieces, rename_self value, renamePieces_self ps]
  | .field value _ (some format) :: ps => by
      simp [renamePieces, rename_self value, renamePieces_self format, renamePieces_self ps]

end

end Expr

end BlockAngular.Rule
