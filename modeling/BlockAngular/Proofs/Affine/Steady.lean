import BlockAngular.Proofs.Affine.Mapped

/-! # Forms and current values

Where no variable is fixed, collecting has a single use for current values: the base of a power
whose exponent is a number counts as a number if it is fixed, and a base can be fixed without
its variables being so, since a factor of zero hides the others. Two readings that agree on such
bases give the same form.
-/

namespace BlockAngular

namespace Expression

mutual

/-- The powers in an expression, each as its base and its exponent. -/
def powers : Expression → List (Expression × Expression)
  | .number _ | .parameter _ | .variable _ | .linear _ _ => []
  | .sum parts => powersOfAll parts
  | .sub a b | .mul a b | .div a b => powers a ++ powers b
  | .pow a b => (a, b) :: (powers a ++ powers b)
  | .neg a | .function _ a | .named _ a => powers a

/-- The powers in all parts. -/
def powersOfAll : List Expression → List (Expression × Expression)
  | [] => []
  | part :: rest => powers part ++ powersOfAll rest

end

/-- Whether an exponent is a number for which it matters if the base is one: any but zero and
one. -/
def asksForBase (r : Reading) (exponent : Expression) : Bool :=
  match Collected.add r (.int 1) exponent .empty with
  | .ok x => x.isConstant && !x.constant.isZero && !x.constant.isOne
  | .error _ => false

/-- Two readings under which an expression is fixed at the same number, or is not fixed. -/
structure FixedAlike (r s : Reading) (e : Expression) : Prop where
  isFixed : e.isFixed s = e.isFixed r
  value : e.isFixed r = .ok true → e.evaluate s = e.evaluate r

/-- Two readings that agree on the bases of the powers in an expression, as far as these are
asked for. -/
def Steady (r s : Reading) (e : Expression) : Prop :=
  ∀ power ∈ e.powers, power.2.asksForBase r = true → FixedAlike r s power.1

/-- The same of an expression whose parts may have names: these are dissolved first. -/
def HasSteadyPowers (r s : Reading) (e : Expression) : Prop :=
  ∀ plain, e.substitute some = .ok plain → plain.Steady r s

/-- Two readings with the same parameters in which no variable is fixed. -/
structure Reading.Alike (r s : Reading) : Prop where
  parameter : ∀ h, s.parameter h = r.parameter h
  free : ∀ h, r.isFixed h = false
  free' : ∀ h, s.isFixed h = false

/-- An expression without variables is fixed alike. -/
theorem FixedAlike.of_plain {r s : Reading} (alike : r.Alike s) {e : Expression}
    (plain : e.hasVariables = false) : FixedAlike r s e where
  isFixed := isFixed_of_plain alike.parameter plain
  value _ := evaluate_of_plain alike.parameter plain

end Expression

namespace Collected

variable {r s : Expression.Reading}

theorem isVoidVariable_of_free (free : ∀ h, r.isFixed h = false) (h : Handle) :
    isVoidVariable r h = false := by
  unfold isVoidVariable
  split
  · exact free h
  · rfl

theorem addVariable_alike (alike : r.Alike s) (c : Collected) (k : Numeric) (h : Handle) :
    c.addVariable s k h = c.addVariable r k h := by
  simp [addVariable, alike.free h, alike.free' h]

theorem addTerms_alike (alike : r.Alike s) (m : Numeric) (terms : List (Handle × Numeric))
    (c : Collected) : addTerms s m terms c = addTerms r m terms c := by
  induction terms generalizing c with
  | nil => rfl
  | cons term rest ih =>
      simp only [addTerms, isVoidVariable_of_free alike.free, isVoidVariable_of_free alike.free',
        addVariable_alike alike, ih]

theorem isVoid_alike (alike : r.Alike s) (e : Expression) : isVoid s e = isVoid r e := by
  cases e with
  | number | parameter | sum | sub | pow | function | linear | named => rfl
  | «variable» h =>
      simp [isVoid, isVoidVariable_of_free alike.free, isVoidVariable_of_free alike.free']
  | neg a => exact isVoid_alike alike a
  | div a b => simp [isVoid, isVoid_alike alike a]
  | mul a b =>
      simp only [isVoid, isVoid_alike alike a, isVoid_alike alike b]
      split
      · rename_i plain
        rw [Expression.evaluate_of_plain alike.parameter (by simpa using plain)]
      · split
        · rename_i plain
          rw [Expression.evaluate_of_plain alike.parameter (by simpa using plain)]
        · rfl
termination_by sizeOf e

mutual

/-- Collecting gives the same under two readings that agree on the bases of powers. -/
theorem add_steady (alike : r.Alike s) {e : Expression} (steady : e.Steady r s) (m : Numeric)
    (c : Collected) : add s m e c = add r m e c := by
  rw [add.eq_def s, add.eq_def r]
  split
  · rename_i plain
    rw [Expression.evaluate_of_plain alike.parameter (by simpa using plain)]
  · cases e with
    | number | parameter => rfl
    | «variable» h => exact addVariable_alike alike c m h
    | linear constant terms => exact bind_congr fun c => addTerms_alike alike m terms c
    | named name body => exact add_steady alike (e := body) steady m c
    | neg a => exact add_steady alike (e := a) steady _ c
    | sum parts => exact addAll_steady alike steady m c
    | sub a b =>
        obtain ⟨left, right⟩ := List.forall_mem_append.mp steady
        simp only [isVoid_alike alike, add_steady alike left, add_steady alike right]
    | mul a b =>
        obtain ⟨left, right⟩ := List.forall_mem_append.mp steady
        simp only [add_steady alike left, add_steady alike right]
        split
        · rename_i plain
          rw [Expression.evaluate_of_plain alike.parameter (by simpa using plain)]
        · split
          · rename_i plain
            rw [Expression.evaluate_of_plain alike.parameter (by simpa using plain)]
          · rfl
    | div a b =>
        obtain ⟨left, right⟩ := List.forall_mem_append.mp steady
        simp only [add_steady alike left, add_steady alike right]
    | function f a =>
        simp only [add_steady alike (e := a) steady]
    | pow a b =>
        obtain ⟨base, inner⟩ := List.forall_mem_cons.mp steady
        obtain ⟨left, right⟩ := List.forall_mem_append.mp inner
        simp only [add_steady alike left, add_steady alike right]
        cases collected : add r (.int 1) b empty with
        | error => rfl
        | ok exponent =>
            simp only [bind, Except.bind]
            by_cases asked : b.asksForBase r = true
            · obtain ⟨isFixed, value⟩ := base asked
              simp only at isFixed value
              rw [isFixed]
              cases fixed : a.isFixed r with
              | error => rfl
              | ok fixed? =>
                  cases fixed? with
                  | false => rfl
                  | true => rw [value fixed]
            · -- the exponent is zero, one or no number, and the base is not asked for
              simp only [Expression.asksForBase, collected] at asked
              revert asked
              cases exponent.isConstant <;> cases exponent.constant.isZero <;>
                cases exponent.constant.isOne <;> simp
termination_by sizeOf e

theorem addAll_steady (alike : r.Alike s) {parts : List Expression}
    (steady : ∀ power ∈ Expression.powersOfAll parts, power.2.asksForBase r = true →
      Expression.FixedAlike r s power.1) (m : Numeric) (c : Collected) :
    addAll s m parts c = addAll r m parts c := by
  rw [addAll.eq_def s, addAll.eq_def r]
  cases parts with
  | nil => rfl
  | cons part rest =>
      obtain ⟨first, others⟩ := List.forall_mem_append.mp steady
      simp only [isVoid_alike alike, add_steady alike first, addAll_steady alike others]
termination_by sizeOf parts

end

end Collected

namespace Expression

variable {r s : Reading}

theorem affine?_steady (alike : r.Alike s) {e : Expression} (steady : e.Steady r s) :
    e.affine? s = e.affine? r := by
  cases e <;> simp [affine?, alike.free, alike.free', Collected.add_steady alike steady]

/-- The form of an expression does not depend on the current values, if the bases of powers
do not. -/
theorem mapped_steady (alike : r.Alike s) {e : Expression} (context : String)
    (steady : e.HasSteadyPowers r s) :
    e.mapped s some context = e.mapped r some context := by
  unfold mapped
  split
  · rename_i plain dissolved
    rw [affine, affine, affine?_steady alike (steady plain dissolved)]
  · rfl

end Expression

end BlockAngular
