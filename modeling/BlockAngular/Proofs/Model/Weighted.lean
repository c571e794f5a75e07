import BlockAngular.Proofs.Affine.Linear
import BlockAngular.Proofs.Model.Fresh

/-! # Weighted sums of variables

Models that are built in loops have sums of products of numbers and variables in their
constraints and objectives. Such a sum is given by the keys of its variables with their
coefficients, and it is read as the form with these.
-/

namespace BlockAngular

open Collected (realTerms plainZero)

theorem Success.mapM_of_ok {ε α β : Type} {f : α → Except ε β} {g : α → β} {as : List α}
    (each : ∀ a ∈ as, f a = .ok (g a)) : as.mapM f = .ok (as.map g) := by
  rw [mapM_ok, List.forall₂_map_right_iff, List.forall₂_same]
  exact each

/-- The sum of expressions, of which there is one. -/
theorem Operand.sum_exprs {es : List Expression} (some : es ≠ []) :
    Operand.sum (es.map .expr) = .ok (.expr (Expression.sumOf es)) := by
  have rest (e : Expression) (es : List Expression) :
      (es.map Operand.expr).foldlM Operand.add (.expr e) =
        .ok (.expr (es.foldl Expression.plus e)) := by
    induction es generalizing e with
    | nil => rfl
    | cons first es ih => exact ih _
  cases es with
  | nil => exact absurd rfl some
  | cons e es => exact rest e es

/-- The double of a value that is a number in an expression. -/
def Value.double? (v : Value) : Option Float :=
  v.literal?.bind fun k => k.real.toOption

/-- The number of a value that is one, and zero of another one. -/
def Value.number (v : Value) : Numeric :=
  v.literal?.getD (.int 0)

theorem Value.literal?_of_double? {v : Value} {y : Float} (h : v.double? = some y) :
    v.literal? = some v.number ∧ v.number.real = .ok y := by
  obtain ⟨k, literal, double⟩ := Option.bind_eq_some_iff.mp h
  have number : v.number = k := by simp [Value.number, literal]
  exact ⟨number ▸ literal, number ▸ Success.toOption_eq_some.mp double⟩

/-- Products with one for a factor. -/
def units (keys : List Key) : List (Key × Numeric) :=
  keys.map fun key => (key, .int 1)

/-- Factors as they are in products. -/
def coefficients (terms : List (Key × Numeric)) : List (Key × Numeric) :=
  terms.map fun (key, k) => (key, k.coefficient)

@[simp] theorem units_keys (keys : List Key) : (units keys).map (·.1) = keys := by
  simp [units, Function.comp_def]

@[simp] theorem coefficients_keys (terms : List (Key × Numeric)) :
    (coefficients terms).map (·.1) = terms.map (·.1) := by
  simp [coefficients, Function.comp_def]

theorem Numeric.real_one : (Numeric.int 1).real = .ok 1.0 := by
  have one : Binary64.ofInt? 1 = some 1.0 := by decide +kernel
  simp only [real, asDouble, toDouble, one]

theorem Numeric.real_zero : (Numeric.int 0).real = .ok 0.0 :=
  rfl

theorem Numeric.real_neg_one : (Numeric.int 1).neg.real = .ok (-1.0) := by
  have found : Binary64.ofInt? (-1) = some (-1.0) := by decide +kernel
  simp only [neg, real, asDouble, toDouble]
  rw [found]

theorem units_real (keys : List Key) : ∀ term ∈ units keys, ∃ y, term.2.real = .ok y :=
  List.forall_mem_map.mpr fun _ _ => ⟨1.0, Numeric.real_one⟩

theorem realTerms_coefficients {terms : List (Key × Numeric)}
    (real : ∀ term ∈ terms, ∃ y, term.2.real = .ok y) :
    realTerms (coefficients terms) = realTerms terms := by
  simp only [realTerms, coefficients, List.map_map]
  refine congrArg (List.filter _) (List.map_congr_left fun term ht => ?_)
  simp [Numeric.double_coefficient (real term ht)]

theorem coefficients_real {terms : List (Key × Numeric)}
    (real : ∀ term ∈ terms, ∃ y, term.2.real = .ok y) :
    ∀ term ∈ coefficients terms, ∃ y, term.2.real = .ok y :=
  List.forall_mem_map.mpr fun term ht =>
    ⟨_, Numeric.real_coefficient (Numeric.real_of_double (real term ht))⟩

theorem realTerms_units (keys : List Key) :
    realTerms (units keys) = keys.map fun key => (key, 1.0) := by
  have one : (Numeric.int 1).double = 1.0 := Numeric.double_of_real Numeric.real_one
  have nonzero : Binary64.isZero 1.0 = false := by decide +kernel
  simp [realTerms, units, Function.comp_def, one, nonzero]

/-- Units less one further variable, as doubles. -/
theorem realTerms_difference (keys : List Key) (key : Key) :
    realTerms (units keys ++ [(key, (Numeric.int 1).neg)]) = keys.map (·, 1.0) ++ [(key, -1.0)] := by
  have nonzero : Binary64.isZero (-1.0) = false := by decide +kernel
  have last : realTerms [(key, (Numeric.int 1).neg)] = [(key, -1.0)] := by
    simp [realTerms, Numeric.double_of_real Numeric.real_neg_one, nonzero]
  rw [← realTerms_units, ← last]
  simp [realTerms]

namespace Model

variable {m : Model} {key : Key} {keys : List Key} {terms : List (Key × Numeric)}

/-- The sum of the products of some numbers and the variables of some keys. -/
def weighted (m : Model) (terms : List (Key × Numeric)) : Expression :=
  Expression.sumOf (terms.map fun (key, k) =>
    (Expression.number k).times (.variable (m.preimageOf key)))

theorem weighted_units (keys : List Key) : m.weighted (units keys) =
    Expression.sumOf (keys.map fun key => .variable (m.preimageOf key)) := by
  simp [weighted, units, Function.comp_def, Expression.times, Expression.isLiteralOne,
    Expression.number?, Numeric.isOne]

/-- An expression adds the products of some numbers and the variables of some keys. -/
def Collects (m : Model) (n : Numeric) (x : Option Numeric) (terms : List (Key × Numeric))
    (e : Expression) : Prop :=
  e.Collects (World.freeReading [m]) n x (terms.map fun (key, k) => (m.preimageOf key, k))

theorem variable_collects {n : Numeric} (nonzero : n.isZero = false) (key : Key) :
    m.Collects n none [(key, n)] (.variable (m.preimageOf key)) :=
  .ofVariable (fun _ => rfl) nonzero _

theorem weighted_collects (some : terms ≠ []) :
    m.Collects (.int 1) none (coefficients terms) (m.weighted terms) := by
  have each : ∀ term ∈ terms, Expression.Collects (World.freeReading [m]) (.int 1) none
      [(m.preimageOf term.1, term.2.coefficient)]
      ((Expression.number term.2).times (.variable (m.preimageOf term.1))) ∧
        [(m.preimageOf term.1, term.2.coefficient)] ≠ [] := fun term _ =>
    ⟨.times (List.cons_ne_nil (m.preimageOf term.1) [])
      (fun n nonzero => .ofVariable (fun _ => rfl) nonzero _) term.2, by simp⟩
  have sum := Expression.Collects.sumOf (fun _ => rfl) some each
  rw [← List.map_eq_flatMap] at sum
  simpa [Collects, weighted, coefficients, Function.comp_def] using sum

/-- A sum of variables times a number that is not zero. -/
theorem units_collects {n : Numeric} (nonzero : n.isZero = false) (some : keys ≠ []) :
    m.Collects n none (keys.map (·, n)) (m.weighted (units keys)) := by
  have each : ∀ key ∈ keys, Expression.Collects (World.freeReading [m]) n none
      [(m.preimageOf key, n)] (.variable (m.preimageOf key)) ∧ [(m.preimageOf key, n)] ≠ [] :=
    fun key _ => ⟨.ofVariable (fun _ => rfl) nonzero _, by simp⟩
  have sum := Expression.Collects.sumOf (fun _ => rfl) some each
  rw [← List.map_eq_flatMap] at sum
  simpa [Collects, weighted_units, Function.comp_def] using sum

/-- The product of a number and a sum of variables. -/
theorem units_times_collects (some : keys ≠ []) (k : Numeric) :
    m.Collects (.int 1) none (keys.map (·, k.coefficient))
      ((Expression.number k).times (m.weighted (units keys))) := by
  have there : keys.map m.preimageOf ≠ [] := by simpa using some
  have each (n : Numeric) (nonzero : n.isZero = false) : Expression.Collects (World.freeReading [m]) n
      none ((keys.map m.preimageOf).map (·, n)) (m.weighted (units keys)) := by
    simpa [Collects, Function.comp_def] using units_collects (m := m) nonzero some
  have product := Expression.Collects.times there each k
  simpa [Collects, Function.comp_def] using product

namespace Collects

variable {n : Numeric} {x y : Option Numeric} {s t : List (Key × Numeric)} {a b : Expression}

theorem plus (ha : m.Collects n x s a) (hb : m.Collects n y t b) (one : x = none ∨ y = none)
    (some : s ≠ []) (others : t ≠ []) : m.Collects n (x.or y) (s ++ t) (a.plus b) := by
  have withVariables : b.hasVariables = true := hb.withVariables (by simpa using others)
  have nonzero : b.isLiteralZero = false := by
    simp [Expression.isLiteralZero, Expression.number?_of_hasVariables withVariables]
  have sum := Expression.Collects.plus (fun _ => rfl) ha hb one (by simpa using some) nonzero
  rw [← List.map_append] at sum
  exact sum

/-- A number at the end, of which a zero leaves no trace. -/
theorem plusNumber (ha : m.Collects (.int 1) none s a) (some : s ≠ []) (k : Numeric) :
    m.Collects (.int 1) (if k.isZero then none else .some k) s (a.plus (.number k)) := by
  have left : a.isLiteralZero = false := by
    simp [Expression.isLiteralZero, Expression.number?_of_hasVariables
      (ha.withVariables (by simpa using some))]
  cases zero : k.isZero with
  | true =>
      have same : a.plus (.number k) = a := by
        have last : (Expression.number k).isLiteralZero = true := by
          simp [Expression.isLiteralZero, Expression.number?, zero]
        simp [Expression.plus, left, last]
      simpa [same] using ha
  | false =>
      have number : Expression.Collects (World.freeReading [m]) (.int 1) (.some k) [] (.number k) :=
        .ofNumber rfl
      have sum := Expression.Collects.plus (fun _ => rfl) ha number (.inl rfl) (by simpa using some)
        (by simp [Expression.isLiteralZero, Expression.number?, zero])
      simpa [Collects] using sum

/-- A number at the front, of which a zero leaves no trace. -/
theorem numberPlus (hb : m.Collects n none t b) (some : t ≠ []) {k k' : Numeric}
    (multiple : Collected.scaled n k = .ok k') :
    m.Collects n (if k.isZero then none else .some k') t (Expression.plus (.number k) b) := by
  cases zero : k.isZero with
  | true =>
      have same : Expression.plus (.number k) b = b := by
        simp [Expression.plus, Expression.isLiteralZero, Expression.number?, zero]
      simpa [same] using hb
  | false =>
      exact Expression.Collects.numberPlus (fun _ => rfl) multiple zero hb (by simpa using some)

theorem minus (ha : m.Collects n none s a) (hb : m.Collects n.neg y t b) (some : s ≠ []) :
    m.Collects n y (s ++ t) (.sub a b) := by
  have difference := Expression.Collects.minus (fun _ => rfl) ha hb (by simp [some])
  rw [← List.map_append] at difference
  exact difference

/-- The form of what is collected. -/
theorem formOf (h : m.Collects (.int 1) x terms a) (wf : m.WellFormed)
    (declared : ∀ key ∈ terms.map (·.1), key ∈ m.variableKeys) (nodup : (terms.map (·.1)).Nodup)
    (real : ∀ term ∈ terms, ∃ y, term.2.real = .ok y)
    (constant : ∃ y, (x.getD (.int 0)).real = .ok y) (context : String) : m.formOf context a =
      .ok (m.formBy (plainZero (x.getD (.int 0)).double) (realTerms terms)) :=
  formOf_eq_formBy wf h (List.forall_mem_map.mp declared) nodup real constant context

/-- Without a number the constant is zero. -/
theorem formOf_terms (h : m.Collects (.int 1) none terms a) (wf : m.WellFormed)
    (declared : ∀ key ∈ terms.map (·.1), key ∈ m.variableKeys) (nodup : (terms.map (·.1)).Nodup)
    (real : ∀ term ∈ terms, ∃ y, term.2.real = .ok y) (context : String) :
    m.formOf context a = .ok (m.formBy 0.0 (realTerms terms)) := by
  have zero : (Numeric.int 0).real = .ok 0.0 := rfl
  rw [h.formOf wf declared nodup real ⟨0.0, zero⟩, Option.getD_none, Numeric.double_of_real zero,
    Collected.plainZero_zero]

/-- A number at the end is the constant; a zero loses its sign. -/
theorem formOf_plusNumber (h : m.Collects (.int 1) none terms a) (wf : m.WellFormed)
    (some : terms ≠ []) (declared : ∀ key ∈ terms.map (·.1), key ∈ m.variableKeys)
    (nodup : (terms.map (·.1)).Nodup) (real : ∀ term ∈ terms, ∃ y, term.2.real = .ok y)
    {k : Numeric} {y : Float} (constant : k.real = .ok y) (context : String) :
    m.formOf context (a.plus (.number k)) =
      .ok (m.formBy (plainZero y) (realTerms terms)) := by
  have formed := (h.plusNumber some k).formOf wf declared nodup real
  cases zero : k.isZero with
  | true =>
      have none : (Numeric.int 0).real = .ok 0.0 := rfl
      have double : Binary64.isZero y = true := by
        rw [← Numeric.double_of_real constant, Numeric.isZero_double constant, zero]
      rw [zero] at formed
      rw [formed ⟨0.0, none⟩, if_pos rfl, Option.getD_none, Numeric.double_of_real none,
        Collected.plainZero_zero, Collected.plainZero_eq, double, if_pos rfl]
  | false =>
      rw [zero] at formed
      rw [formed ⟨y, constant⟩, if_neg Bool.false_ne_true, Option.getD_some,
        Numeric.double_of_real constant]

end Collects

/-- The form of a sum of products. -/
theorem formOf_weighted (wf : m.WellFormed) (some : terms ≠ [])
    (declared : ∀ key ∈ terms.map (·.1), key ∈ m.variableKeys) (nodup : (terms.map (·.1)).Nodup)
    (real : ∀ term ∈ terms, ∃ y, term.2.real = .ok y) (context : String) :
    m.formOf context (m.weighted terms) = .ok (m.formBy 0.0 (realTerms terms)) := by
  rw [← realTerms_coefficients real]
  exact (weighted_collects some).formOf_terms wf (by rwa [coefficients_keys])
    (by rwa [coefficients_keys]) (coefficients_real real) context

/-- The form of units less one further variable. -/
theorem formOf_difference (wf : m.WellFormed) {x : Option Numeric} {e : Expression}
    (collects : m.Collects (.int 1) x (units keys ++ [(key, (Numeric.int 1).neg)]) e)
    (declared : ∀ k ∈ keys ++ [key], k ∈ m.variableKeys) (nodup : (keys ++ [key]).Nodup)
    (constant : ∃ y, (x.getD (.int 0)).real = .ok y) (context : String) : m.formOf context e =
      .ok (m.formBy (plainZero (x.getD (.int 0)).double) (keys.map (·, 1.0) ++ [(key, -1.0)])) := by
  have own : (units keys ++ [(key, (Numeric.int 1).neg)]).map (·.1) = keys ++ [key] := by simp
  rw [← realTerms_difference]
  refine collects.formOf wf (by rwa [own]) (by rwa [own]) ?_ constant context
  exact List.forall_mem_append.mpr ⟨units_real keys, by
    simpa using ⟨_, Numeric.real_neg_one⟩⟩

end Model

end BlockAngular
