import BlockAngular.Rule.Classifier
import BlockAngular.Proofs.Success
import BlockAngular.Proofs.Verdict

/-! # What the checker accepts, the evaluator can evaluate

The checker of ids and their evaluator are two recursions with tables of their own. The
checker accepts an id by what stands at its nodes, and a scope that has the names of the
rule leaves the evaluator nothing to fail on but the data.
-/

namespace BlockAngular.Rule

/-- The operators `+ - * / // % **`. -/
def BinaryOp.isArithmetic : BinaryOp → Bool
  | .add | .sub | .mul | .div | .floorDiv | .mod | .pow => true
  | .matMul | .bitOr | .bitXor | .bitAnd | .shiftLeft | .shiftRight => false

/-- The signs `+ -`. -/
def UnaryOp.isSign : UnaryOp → Bool
  | .plus | .minus => true
  | .invert | .not => false

namespace Expr

/-- What rules accept at a node of an id. -/
def isAllowed (known : String → Bool) : Expr → Bool
  | .constant _ _ | .tuple _ | .subscript _ _ => true
  | .name id => known id
  | .attribute _ part => !isPrivate part
  | .binary op _ _ => op.isArithmetic
  | .unary op _ => op.isSign
  | _ => false

/-- What the evaluator can take at a node: a name with a value, an operator of its tables,
or a kind of expression that has values. -/
def isReady (scope : Scope) : Expr → Bool
  | .constant _ _ | .tuple _ | .subscript _ _ | .attribute _ _ => true
  | .name id => scope.has id
  | .binary op _ _ => op.apply?.isSome
  | .unary op _ => op.apply?.isSome
  | _ => false

/-- An operator, a subscript or an attribute fails on the values of its operands, in the
expression itself or in a part of it. -/
inductive FailsOnData (scope : Scope) : Expr → Fault → Prop where
  | item {base index : Expr} {b i : Value} {fault : Fault} :
      base.evaluate scope = .ok b → index.evaluate scope = .ok i → b.item i = .error fault →
      FailsOnData scope (.subscript base index) fault
  | attributeOf {base : Expr} {part : String} {b : Value} {fault : Fault} :
      base.evaluate scope = .ok b → b.attributeOf part = .error fault →
      FailsOnData scope (.attribute base part) fault
  | binary {op : BinaryOp} {apply : Value → Value → Except Fault Value} {left right : Expr}
      {l r : Value} {fault : Fault} :
      op.apply? = some apply → left.evaluate scope = .ok l → right.evaluate scope = .ok r →
      apply l r = .error fault → FailsOnData scope (.binary op left right) fault
  | unary {op : UnaryOp} {apply : Value → Except Fault Value} {operand : Expr} {v : Value}
      {fault : Fault} :
      op.apply? = some apply → operand.evaluate scope = .ok v → apply v = .error fault →
      FailsOnData scope (.unary op operand) fault
  | inItem {items : List Expr} {e : Expr} {fault : Fault} :
      e ∈ items → FailsOnData scope e fault → FailsOnData scope (.tuple items) fault
  | inBase {base index : Expr} {fault : Fault} :
      FailsOnData scope base fault → FailsOnData scope (.subscript base index) fault
  | inIndex {base index : Expr} {fault : Fault} :
      FailsOnData scope index fault → FailsOnData scope (.subscript base index) fault
  | inOwner {base : Expr} {part : String} {fault : Fault} :
      FailsOnData scope base fault → FailsOnData scope (.attribute base part) fault
  | inLeft {op : BinaryOp} {left right : Expr} {fault : Fault} :
      FailsOnData scope left fault → FailsOnData scope (.binary op left right) fault
  | inRight {op : BinaryOp} {left right : Expr} {fault : Fault} :
      FailsOnData scope right fault → FailsOnData scope (.binary op left right) fault
  | inOperand {op : UnaryOp} {operand : Expr} {fault : Fault} :
      FailsOnData scope operand fault → FailsOnData scope (.unary op operand) fault

/-- Evaluating gives a value or fails on the data. -/
def RunsOnData (scope : Scope) (e : Expr) : Prop :=
  (∃ v, e.evaluate scope = .ok v) ∨
    ∃ fault, e.FailsOnData scope fault ∧ e.evaluate scope = .error (.fault fault)

end Expr

namespace Expr

/-- An expression of which every node is allowed, by what it is made of. -/
inductive Accepted (known : String → Bool) : Expr → Prop where
  | constant (value : Value) {marked : Bool} : Accepted known (.constant value marked)
  | name {id : String} : known id = true → Accepted known (.name id)
  | tuple {items : List Expr} : (∀ e ∈ items, Accepted known e) → Accepted known (.tuple items)
  | subscript {base index : Expr} :
      Accepted known base → Accepted known index → Accepted known (.subscript base index)
  | member {base : Expr} {part : String} :
      isPrivate part = false → Accepted known base → Accepted known (.attribute base part)
  | binary {op : BinaryOp} {left right : Expr} : op.isArithmetic = true →
      Accepted known left → Accepted known right → Accepted known (.binary op left right)
  | unary {op : UnaryOp} {operand : Expr} :
      op.isSign = true → Accepted known operand → Accepted known (.unary op operand)

theorem allItems_iff {p : Expr → Bool} {es : List Expr} :
    allItems p es = true ↔ ∀ e ∈ es, e.all p = true := by
  induction es with
  | nil => simp [allItems]
  | cons e rest ih => simp [allItems, ih]

mutual

theorem accepted_of_all {known : String → Bool} : (e : Expr) →
    e.all (isAllowed known) = true → e.Accepted known
  | .constant value _, _ => .constant value
  | .name id, h => .name (by simpa [all, isAllowed] using h)
  | .tuple items, h => .tuple (accepted_of_allItems items (by simpa [all, isAllowed] using h))
  | .subscript base index, h => by
      simp only [all, isAllowed, Bool.true_and, Bool.and_eq_true] at h
      exact .subscript (accepted_of_all base h.1) (accepted_of_all index h.2)
  | .attribute base part, h => by
      simp only [all, isAllowed, Bool.and_eq_true, Bool.not_eq_true'] at h
      exact .member h.1 (accepted_of_all base h.2)
  | .binary op left right, h => by
      simp only [all, isAllowed, Bool.and_eq_true] at h
      exact .binary h.1 (accepted_of_all left h.2.1) (accepted_of_all right h.2.2)
  | .unary op operand, h => by
      simp only [all, isAllowed, Bool.and_eq_true] at h
      exact .unary h.1 (accepted_of_all operand h.2)
  | .list _, h | .set _, h | .dict _, h | .boolean _ _, h | .compare _ _, h
  | .conditional _ _ _, h | .lambda _ _, h | .call _ _ _, h | .slice _ _ _, h | .starred _, h
  | .binding _ _, h | .await _, h | .yield _, h | .yieldFrom _, h | .generator _ _, h
  | .listOf _ _, h | .setOf _ _, h | .dictOf _ _ _, h | .template _, h => by
      simp [all, isAllowed] at h

theorem accepted_of_allItems {known : String → Bool} : (es : List Expr) →
    allItems (isAllowed known) es = true → ∀ e ∈ es, e.Accepted known
  | [], _ => nofun
  | e :: rest, h => by
      simp only [allItems, Bool.and_eq_true] at h
      exact List.forall_mem_cons.mpr ⟨accepted_of_all e h.1, accepted_of_allItems rest h.2⟩

end

end Expr

theorem BinaryOp.apply?_isSome (op : BinaryOp) : op.apply?.isSome = op.isArithmetic := by
  cases op <;> rfl

theorem UnaryOp.apply?_isSome (op : UnaryOp) : op.apply?.isSome = op.isSign := by
  cases op <;> rfl

@[simp] theorem refuse_ok {shown : String} {e : Expr} : refuse shown e = .ok () ↔ False := by
  simp [refuse]

theorem Scope.has_eq_isSome (scope : Scope) (name : String) :
    scope.has name = (scope.value? name).isSome := by
  rw [Bool.eq_iff_iff, value?, List.lookup_isSome_iff, has, List.any_eq_true]
  exact exists_congr fun entry => and_congr_right fun _ => by rw [beq_iff_eq, beq_iff_eq, eq_comm]

theorem Scope.exists_value {scope : Scope} {name : String} (h : scope.has name = true) :
    ∃ v, scope.value? name = some v :=
  Option.isSome_iff_exists.mp (by rwa [← has_eq_isSome])

namespace Expr

section Check

variable {known : String → Bool} {shown : String}

mutual

/-- The checker accepts an expression if every node of it is allowed. -/
theorem check_ok : (e : Expr) → (e.check known shown = .ok () ↔ e.all (isAllowed known) = true)
  | .constant _ _ => by simp [check, all, isAllowed]
  | .name id => by by_cases h : known id <;> simp [check, all, isAllowed, h]
  | .tuple items => by
      simp only [check, all, isAllowed, Bool.true_and]
      exact checkAll_ok items
  | .subscript base index => by
      simp [check, all, isAllowed, check_ok base, check_ok index]
  | .attribute base part => by
      by_cases h : isPrivate part <;> simp [check, all, isAllowed, h, check_ok base]
  | .binary op left right => by
      cases h : op.isArithmetic <;>
        simp [check, all, isAllowed, BinaryOp.apply?_isSome, h, check_ok left, check_ok right]
  | .unary op operand => by
      cases h : op.isSign <;>
        simp [check, all, isAllowed, UnaryOp.apply?_isSome, h, check_ok operand]
  | .list _ | .set _ | .dict _ | .boolean _ _ | .compare _ _ | .conditional _ _ _ | .lambda _ _
  | .call _ _ _ | .slice _ _ _ | .starred _ | .binding _ _ | .await _ | .yield _ | .yieldFrom _
  | .generator _ _ | .listOf _ _ | .setOf _ _ | .dictOf _ _ _ | .template _ => by
      simp [check, all, isAllowed]

theorem checkAll_ok : (es : List Expr) →
    (checkAll known shown es = .ok () ↔ allItems (isAllowed known) es = true)
  | [] => by simp [checkAll, allItems]
  | e :: rest => by simp [checkAll, allItems, check_ok e, checkAll_ok rest]

end

end Check

theorem written_ok {e : Expr} {text : String} :
    e.written = .ok text ↔ e.all isWritableHere = true ∧ String.ofList e.text = text := by
  unfold written
  split <;> rename_i h <;> simp [h]

section Evaluate

variable {scope : Scope}

theorem RunsOnData.subscript {base index : Expr} (hbase : base.RunsOnData scope)
    (hindex : index.RunsOnData scope) : (Expr.subscript base index).RunsOnData scope := by
  obtain ⟨b, hb⟩ | ⟨fault, failed, hb⟩ := hbase
  · obtain ⟨i, hi⟩ | ⟨fault, failed, hi⟩ := hindex
    · cases found : b.item i with
      | ok v => exact .inl ⟨v, by simp [evaluate, hb, hi, found, orFault, bind, Except.bind]⟩
      | error fault =>
          exact .inr ⟨fault, .item hb hi found,
            by simp [evaluate, hb, hi, found, orFault, bind, Except.bind]⟩
    · exact .inr ⟨fault, .inIndex failed, by simp [evaluate, hb, hi, bind, Except.bind]⟩
  · exact .inr ⟨fault, .inBase failed, by simp [evaluate, hb, bind, Except.bind]⟩

theorem RunsOnData.member {base : Expr} {part : String} (h : base.RunsOnData scope) :
    (Expr.attribute base part).RunsOnData scope := by
  obtain ⟨b, hb⟩ | ⟨fault, failed, hb⟩ := h
  · cases found : b.attributeOf part with
    | ok v => exact .inl ⟨v, by simp [evaluate, hb, found, orFault, bind, Except.bind]⟩
    | error fault =>
        exact .inr ⟨fault, .attributeOf hb found,
          by simp [evaluate, hb, found, orFault, bind, Except.bind]⟩
  · exact .inr ⟨fault, .inOwner failed, by simp [evaluate, hb, bind, Except.bind]⟩

theorem RunsOnData.binary {op : BinaryOp} {left right : Expr} (supported : op.apply?.isSome = true)
    (hleft : left.RunsOnData scope) (hright : right.RunsOnData scope) :
    (Expr.binary op left right).RunsOnData scope := by
  obtain ⟨apply, named⟩ := Option.isSome_iff_exists.mp supported
  obtain ⟨l, hl⟩ | ⟨fault, failed, hl⟩ := hleft
  · obtain ⟨r, hr⟩ | ⟨fault, failed, hr⟩ := hright
    · cases applied : apply l r with
      | ok v => exact .inl ⟨v, by simp [evaluate, named, hl, hr, applied, orFault, bind, Except.bind]⟩
      | error fault =>
          exact .inr ⟨fault, .binary named hl hr applied,
            by simp [evaluate, named, hl, hr, applied, orFault, bind, Except.bind]⟩
    · exact .inr ⟨fault, .inRight failed, by simp [evaluate, named, hl, hr, bind, Except.bind]⟩
  · exact .inr ⟨fault, .inLeft failed, by simp [evaluate, named, hl, bind, Except.bind]⟩

theorem RunsOnData.unary {op : UnaryOp} {operand : Expr} (supported : op.apply?.isSome = true)
    (h : operand.RunsOnData scope) : (Expr.unary op operand).RunsOnData scope := by
  obtain ⟨apply, named⟩ := Option.isSome_iff_exists.mp supported
  obtain ⟨v, hv⟩ | ⟨fault, failed, hv⟩ := h
  · cases applied : apply v with
    | ok w => exact .inl ⟨w, by simp [evaluate, named, hv, applied, orFault, bind, Except.bind]⟩
    | error fault =>
        exact .inr ⟨fault, .unary named hv applied,
          by simp [evaluate, named, hv, applied, orFault, bind, Except.bind]⟩
  · exact .inr ⟨fault, .inOperand failed, by simp [evaluate, named, hv, bind, Except.bind]⟩

/-- The items of a tuple have values, or one of them fails on the data. -/
theorem RunsOnData.tuple {items : List Expr} (each : ∀ e ∈ items, e.RunsOnData scope) :
    (Expr.tuple items).RunsOnData scope := by
  have run : (∃ vs, evaluateAll scope items = .ok vs) ∨ ∃ e ∈ items, ∃ fault,
      e.FailsOnData scope fault ∧ evaluateAll scope items = .error (.fault fault) := by
    induction items with
    | nil => exact .inl ⟨[], rfl⟩
    | cons e rest ih =>
        obtain ⟨v, hv⟩ | ⟨fault, failed, hv⟩ := each e List.mem_cons_self
        · obtain ⟨vs, hvs⟩ | ⟨e', listed, fault, failed, hvs⟩ :=
            ih fun e he => each e (List.mem_cons_of_mem _ he)
          · exact .inl ⟨v :: vs, by simp [evaluateAll, hv, hvs]⟩
          · exact .inr ⟨e', List.mem_cons_of_mem _ listed, fault, failed,
              by simp [evaluateAll, hv, hvs, bind, Except.bind]⟩
        · exact .inr ⟨e, List.mem_cons_self, fault, failed,
            by simp [evaluateAll, hv, bind, Except.bind]⟩
  obtain ⟨vs, hvs⟩ | ⟨e, listed, fault, failed, hvs⟩ := run
  · exact .inl ⟨.tuple vs, by simp [evaluate, hvs]⟩
  · exact .inr ⟨fault, .inItem listed failed, by simp [evaluate, hvs, bind, Except.bind]⟩

variable {known : String → Bool} {e : Expr}

/-- An accepted expression has a value or fails on the data if its names are in scope. -/
theorem Accepted.runsOnData (h : e.Accepted known)
    (names : ∀ name, known name = true → scope.has name = true) : e.RunsOnData scope := by
  induction h with
  | constant value => exact .inl ⟨value, rfl⟩
  | name found =>
      obtain ⟨v, found⟩ := Scope.exists_value (names _ found)
      exact .inl ⟨v, by simp [evaluate, found]⟩
  | tuple _ ih => exact .tuple ih
  | subscript _ _ ihBase ihIndex => exact ihBase.subscript ihIndex
  | member _ _ ih => exact ih.member
  | binary supported _ _ ihLeft ihRight =>
      exact ihLeft.binary ((BinaryOp.apply?_isSome _).trans supported) ihRight
  | unary supported _ ih => exact ih.unary ((UnaryOp.apply?_isSome _).trans supported)

/-- The evaluator can take every node of an accepted expression. -/
theorem Accepted.all_isReady (h : e.Accepted known)
    (names : ∀ name, known name = true → scope.has name = true) :
    e.all (isReady scope) = true := by
  induction h with
  | constant value => rfl
  | name found => simpa [all, isReady] using names _ found
  | tuple _ ih =>
      simp only [all, isReady, Bool.true_and]
      exact allItems_iff.mpr ih
  | subscript _ _ ihBase ihIndex => simp [all, isReady, ihBase, ihIndex]
  | member _ _ ih => simp [all, isReady, ih]
  | binary supported _ _ ihLeft ihRight =>
      simp [all, isReady, BinaryOp.apply?_isSome, supported, ihLeft, ihRight]
  | unary supported _ ih => simp [all, isReady, UnaryOp.apply?_isSome, supported, ih]

end Evaluate

end Expr

end BlockAngular.Rule
