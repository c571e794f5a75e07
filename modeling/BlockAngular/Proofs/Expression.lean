import BlockAngular.Affine.Substitute
import BlockAngular.Proofs.Success

/-! # What expressions mention

The variables of an expression can be given other names. Where the new names are read as
the old ones were, the expression has the same value.
-/

namespace BlockAngular

namespace Expression

mutual

/-- The variables of an expression, from left to right. -/
def vars : Expression → List Handle
  | .number _ | .parameter _ => []
  | .variable h => [h]
  | .sum parts => varsOfAll parts
  | .sub a b | .mul a b | .div a b | .pow a b => vars a ++ vars b
  | .neg a | .function _ a | .named _ a => vars a
  | .linear _ terms => terms.map (·.1)

/-- The variables of all parts. -/
def varsOfAll : List Expression → List Handle
  | [] => []
  | part :: rest => vars part ++ varsOfAll rest

end

mutual

/-- An expression with other names for its variables. -/
def rename (f : Handle → Handle) : Expression → Expression
  | .number x => .number x
  | .parameter h => .parameter h
  | .variable h => .variable (f h)
  | .sum parts => .sum (renameAll f parts)
  | .sub a b => .sub (rename f a) (rename f b)
  | .neg a => .neg (rename f a)
  | .mul a b => .mul (rename f a) (rename f b)
  | .div a b => .div (rename f a) (rename f b)
  | .pow a b => .pow (rename f a) (rename f b)
  | .function g a => .function g (rename f a)
  | .linear constant terms => .linear constant (terms.map fun (h, k) => (f h, k))
  | .named name body => .named name (rename f body)

/-- All parts with other names for their variables. -/
def renameAll (f : Handle → Handle) : List Expression → List Expression
  | [] => []
  | part :: rest => rename f part :: renameAll f rest

end

@[simp] theorem ofTerms_vars (constant : Float) (terms : List (Handle × Float)) :
    (ofTerms constant terms).vars = terms.map (·.1) := by
  simp [ofTerms, vars, Function.comp_def]

theorem number?_of_hasVariables {e : Expression} (some : e.hasVariables = true) :
    e.number? = none := by
  cases e <;> first | rfl | cases some

mutual

/-- An expression without variables mentions none. -/
theorem vars_of_plain {e : Expression} (plain : e.hasVariables = false) : e.vars = [] := by
  cases e with
  | number | parameter => rfl
  | «variable» | linear | named => simp [hasVariables] at plain
  | sum parts => exact varsOfAll_of_plain (by simpa [hasVariables] using plain)
  | sub a b | mul a b | div a b | pow a b =>
      simp only [hasVariables, Bool.or_eq_false_iff] at plain
      simp [vars, vars_of_plain plain.1, vars_of_plain plain.2]
  | neg a | function _ a => exact vars_of_plain (e := a) (by simpa [hasVariables] using plain)
termination_by sizeOf e

theorem varsOfAll_of_plain {parts : List Expression} (plain : anyHasVariables parts = false) :
    varsOfAll parts = [] := by
  cases parts with
  | nil => rfl
  | cons part rest =>
      simp only [anyHasVariables, Bool.or_eq_false_iff] at plain
      simp [varsOfAll, vars_of_plain plain.1, varsOfAll_of_plain plain.2]
termination_by sizeOf parts

end

mutual

/-- An expression without variables stays as it is. -/
theorem rename_of_plain (f : Handle → Handle) {e : Expression} (plain : e.hasVariables = false) :
    e.rename f = e := by
  cases e with
  | number | parameter => rfl
  | «variable» | linear | named => simp [hasVariables] at plain
  | sum parts =>
      exact congrArg Expression.sum (renameAll_of_plain f (by simpa [hasVariables] using plain))
  | sub a b | mul a b | div a b | pow a b =>
      simp only [hasVariables, Bool.or_eq_false_iff] at plain
      simp [rename, rename_of_plain f plain.1, rename_of_plain f plain.2]
  | neg a | function _ a =>
      simp [rename, rename_of_plain f (e := a) (by simpa [hasVariables] using plain)]
termination_by sizeOf e

theorem renameAll_of_plain (f : Handle → Handle) {parts : List Expression}
    (plain : anyHasVariables parts = false) : renameAll f parts = parts := by
  cases parts with
  | nil => rfl
  | cons part rest =>
      simp only [anyHasVariables, Bool.or_eq_false_iff] at plain
      simp [renameAll, rename_of_plain f plain.1, renameAll_of_plain f plain.2]
termination_by sizeOf parts

end

mutual

/-- A new name is a variable where an old one is. -/
@[simp] theorem hasVariables_rename (f : Handle → Handle) (e : Expression) :
    (e.rename f).hasVariables = e.hasVariables := by
  cases e with
  | number | parameter | «variable» | linear | named => rfl
  | sum parts => exact anyHasVariables_renameAll f parts
  | sub a b | mul a b | div a b | pow a b =>
      simp [rename, hasVariables, hasVariables_rename f a, hasVariables_rename f b]
  | neg a | function _ a => exact hasVariables_rename f a
termination_by sizeOf e

@[simp] theorem anyHasVariables_renameAll (f : Handle → Handle) (parts : List Expression) :
    anyHasVariables (renameAll f parts) = anyHasVariables parts := by
  cases parts with
  | nil => rfl
  | cons part rest =>
      simp [renameAll, anyHasVariables, hasVariables_rename f part, anyHasVariables_renameAll f rest]
termination_by sizeOf parts

end

/-- A reading `s` takes the new names of some variables as `r` takes the old ones. -/
structure Reading.Renamed (r : Reading) (f : Handle → Handle) (known : Handle → Prop)
    (s : Reading) : Prop where
  parameter : ∀ h, s.parameter h = r.parameter h
  current : ∀ h, known h → s.current (f h) = r.current h
  isFixed : ∀ h, known h → s.isFixed (f h) = r.isFixed h

section Renamed

variable {r s : Reading} {f : Handle → Handle} {known : Handle → Prop}

theorem evaluateTerms_rename (agree : r.Renamed f known s) {terms : List (Handle × Numeric)}
    (within : ∀ term ∈ terms, known term.1) (total : Numeric) :
    (terms.map fun (h, k) => (f h, k)).foldlM (fun total (h, k) => do
        Numeric.add total (← Numeric.mul k (← readNumber (s.current h)))) total =
      terms.foldlM (fun total (h, k) => do
        Numeric.add total (← Numeric.mul k (← readNumber (r.current h)))) total := by
  induction terms generalizing total with
  | nil => rfl
  | cons term rest ih =>
      obtain ⟨known_first, known_rest⟩ := List.forall_mem_cons.mp within
      simp only [List.map_cons, List.foldlM_cons, agree.current _ known_first, ih known_rest]

mutual

/-- An expression with new names has the value that it has with the old ones. -/
theorem evaluate_rename (agree : r.Renamed f known s) {e : Expression}
    (within : ∀ h ∈ e.vars, known h) : (e.rename f).evaluate s = e.evaluate r := by
  cases e with
  | number => rfl
  | parameter h => simp [rename, evaluate, agree.parameter]
  | «variable» h => simp [rename, evaluate, agree.current h (within h (by simp [vars]))]
  | sum parts => exact evaluateSum_rename agree (by simpa [vars] using within) _
  | sub a b | mul a b | div a b | pow a b =>
      simp only [vars, List.forall_mem_append] at within
      simp [rename, evaluate, evaluate_rename agree within.1, evaluate_rename agree within.2]
  | neg a | function _ a =>
      simp [rename, evaluate, evaluate_rename agree (e := a) (by simpa [vars] using within)]
  | linear constant terms =>
      exact evaluateTerms_rename agree (fun term ht =>
        within term.1 (List.mem_map_of_mem (f := (·.1)) ht)) constant
  | named name body => exact evaluate_rename agree (e := body) (by simpa [vars] using within)
termination_by sizeOf e

theorem evaluateSum_rename (agree : r.Renamed f known s) {parts : List Expression}
    (within : ∀ h ∈ varsOfAll parts, known h) (total : Numeric) :
    evaluateSum s total (renameAll f parts) = evaluateSum r total parts := by
  cases parts with
  | nil => rfl
  | cons part rest =>
      simp only [varsOfAll, List.forall_mem_append] at within
      simp [renameAll, evaluateSum, evaluate_rename agree within.1,
        evaluateSum_rename agree within.2]
termination_by sizeOf parts

end

theorem isFixedZero_rename (agree : r.Renamed f known s) {e : Expression}
    (within : ∀ h ∈ e.vars, known h) (fixed : Bool) :
    isFixedZero s (e.rename f) fixed = isFixedZero r e fixed := by
  simp [isFixedZero, evaluate_rename agree within]

mutual

/-- An expression with new names is fixed if it is with the old ones. -/
theorem isFixed_rename (agree : r.Renamed f known s) {e : Expression}
    (within : ∀ h ∈ e.vars, known h) : (e.rename f).isFixed s = e.isFixed r := by
  cases e with
  | number | parameter => rfl
  | «variable» h => simp [rename, isFixed, agree.isFixed h (within h (by simp [vars]))]
  | sum parts => exact allFixed_rename agree (by simpa [vars] using within)
  | sub a b | div a b =>
      simp only [vars, List.forall_mem_append] at within
      simp [rename, isFixed, isFixed_rename agree within.1, isFixed_rename agree within.2]
  | mul a b | pow a b =>
      simp only [vars, List.forall_mem_append] at within
      simp [rename, isFixed, isFixed_rename agree within.1, isFixed_rename agree within.2,
        isFixedZero_rename agree within.1, isFixedZero_rename agree within.2]
  | neg a | function _ a | named _ a =>
      exact isFixed_rename agree (e := a) (by simpa [vars] using within)
  | linear constant terms =>
      simp only [rename, isFixed, List.all_map, Function.comp_def, Except.ok.injEq]
      rw [Bool.eq_iff_iff, List.all_eq_true, List.all_eq_true]
      refine forall₂_congr fun term ht => ?_
      rw [agree.isFixed term.1 (within term.1 (List.mem_map_of_mem (f := (·.1)) ht))]
termination_by sizeOf e

theorem allFixed_rename (agree : r.Renamed f known s) {parts : List Expression}
    (within : ∀ h ∈ varsOfAll parts, known h) : allFixed s (renameAll f parts) = allFixed r parts := by
  cases parts with
  | nil => rfl
  | cons part rest =>
      simp only [varsOfAll, List.forall_mem_append] at within
      simp [renameAll, allFixed, isFixed_rename agree within.1, allFixed_rename agree within.2]
termination_by sizeOf parts

end

end Renamed

/-- The value of an expression without variables depends on the parameters alone. -/
theorem evaluate_of_plain {r s : Reading} (parameters : ∀ h, s.parameter h = r.parameter h)
    {e : Expression} (plain : e.hasVariables = false) : e.evaluate s = e.evaluate r := by
  have agree : r.Renamed id (fun _ => False) s := ⟨parameters, by simp, by simp⟩
  have renamed := evaluate_rename agree (e := e) (by simp [vars_of_plain plain])
  rwa [rename_of_plain id plain] at renamed

theorem isFixed_of_plain {r s : Reading} (parameters : ∀ h, s.parameter h = r.parameter h)
    {e : Expression} (plain : e.hasVariables = false) : e.isFixed s = e.isFixed r := by
  have agree : r.Renamed id (fun _ => False) s := ⟨parameters, by simp, by simp⟩
  have renamed := isFixed_rename agree (e := e) (by simp [vars_of_plain plain])
  rwa [rename_of_plain id plain] at renamed

end Expression

end BlockAngular
