import BlockAngular.Proofs.Affine.Steady

/-! # Dissolving names

Substituting images dissolves the names of parts. A part with a name counts as one with
variables, so dissolving can turn a part into one without variables, which is evaluated as it is
and not collected. Where every name stands for something with variables, nothing is lost: both
expressions have the same form, or none.
-/

namespace BlockAngular

namespace Expression

mutual

/-- The expression with the bodies of the named parts in their places. -/
def dissolve : Expression → Expression
  | .number x => .number x
  | .parameter h => .parameter h
  | .variable h => .variable h
  | .sum parts => .sum (dissolveAll parts)
  | .sub a b => .sub (dissolve a) (dissolve b)
  | .neg a => .neg (dissolve a)
  | .mul a b => .mul (dissolve a) (dissolve b)
  | .div a b => .div (dissolve a) (dissolve b)
  | .pow a b => .pow (dissolve a) (dissolve b)
  | .function f a => .function f (dissolve a)
  | .linear constant terms => .linear constant terms
  | .named _ body => dissolve body

/-- All parts with the names dissolved. -/
def dissolveAll : List Expression → List Expression
  | [] => []
  | part :: rest => dissolve part :: dissolveAll rest

end

mutual

/-- Whether every named part has variables, once the names inside are dissolved. -/
def namesVariables : Expression → Bool
  | .number _ | .parameter _ | .variable _ | .linear _ _ => true
  | .sum parts => allNameVariables parts
  | .sub a b | .mul a b | .div a b | .pow a b => namesVariables a && namesVariables b
  | .neg a | .function _ a => namesVariables a
  | .named _ body => body.dissolve.hasVariables && namesVariables body

/-- The same of all parts. -/
def allNameVariables : List Expression → Bool
  | [] => true
  | part :: rest => namesVariables part && allNameVariables rest

end

mutual

/-- Substituting every variable for itself dissolves the names. -/
theorem substitute_some (e : Expression) : e.substitute some = .ok e.dissolve := by
  cases e with
  | number | parameter | «variable» => rfl
  | sum parts => simp [substitute, dissolve, substituteAll_some parts, bind, Except.bind, pure,
      Except.pure]
  | sub a b | mul a b | div a b | pow a b =>
      simp [substitute, dissolve, substitute_some a, substitute_some b, bind, Except.bind, pure,
        Except.pure]
  | neg a | function _ a =>
      simp [substitute, dissolve, substitute_some a, bind, Except.bind, pure, Except.pure]
  | linear constant terms =>
      simp [substitute, dissolve, substituteTerms_some, bind, Except.bind, pure, Except.pure]
  | named name body => simpa [substitute, dissolve] using substitute_some body
termination_by sizeOf e

theorem substituteAll_some (parts : List Expression) :
    substituteAll some parts = .ok (dissolveAll parts) := by
  cases parts with
  | nil => rfl
  | cons part rest =>
      simp [substituteAll, dissolveAll, substitute_some part, substituteAll_some rest, bind,
        Except.bind, pure, Except.pure]
termination_by sizeOf parts

end

theorem mapped_some (r : Reading) (e : Expression) (context : String) :
    e.mapped r some context = e.dissolve.affine r context := by
  rw [mapped, substitute_some]

section Values

variable (r : Reading)

mutual

/-- Names have no influence on values. -/
theorem evaluate_dissolve (e : Expression) : e.dissolve.evaluate r = e.evaluate r := by
  cases e with
  | number | parameter | «variable» | linear => rfl
  | sum parts => simp only [dissolve, evaluate, evaluateSum_dissolve parts]
  | sub a b | mul a b | div a b | pow a b =>
      simp only [dissolve, evaluate, evaluate_dissolve a, evaluate_dissolve b]
  | neg a | function _ a => simp only [dissolve, evaluate, evaluate_dissolve a]
  | named name body => simp only [dissolve, evaluate, evaluate_dissolve body]
termination_by sizeOf e

theorem evaluateSum_dissolve (parts : List Expression) (total : Numeric) :
    evaluateSum r total (dissolveAll parts) = evaluateSum r total parts := by
  cases parts with
  | nil => rfl
  | cons part rest =>
      simp only [dissolveAll, evaluateSum, evaluate_dissolve part, evaluateSum_dissolve rest]
termination_by sizeOf parts

end

mutual

theorem isFixed_dissolve (e : Expression) : e.dissolve.isFixed r = e.isFixed r := by
  cases e with
  | number | parameter | «variable» | linear => rfl
  | sum parts => simp only [dissolve, isFixed, allFixed_dissolve parts]
  | sub a b | div a b => simp only [dissolve, isFixed, isFixed_dissolve a, isFixed_dissolve b]
  | mul a b | pow a b =>
      simp only [dissolve, isFixed, isFixedZero, isFixed_dissolve a, isFixed_dissolve b,
        evaluate_dissolve]
  | neg a | function _ a => simp only [dissolve, isFixed, isFixed_dissolve a]
  | named name body => simp only [dissolve, isFixed, isFixed_dissolve body]
termination_by sizeOf e

theorem allFixed_dissolve (parts : List Expression) :
    allFixed r (dissolveAll parts) = allFixed r parts := by
  cases parts with
  | nil => rfl
  | cons part rest =>
      simp only [dissolveAll, allFixed, isFixed_dissolve part, allFixed_dissolve rest]
termination_by sizeOf parts

end

end Values

mutual

theorem hasVariables_dissolve {e : Expression} (h : e.namesVariables = true) :
    e.dissolve.hasVariables = e.hasVariables := by
  cases e with
  | number | parameter | «variable» | linear => rfl
  | sum parts => exact anyHasVariables_dissolveAll (by simpa [namesVariables] using h)
  | sub a b | mul a b | div a b | pow a b =>
      simp only [namesVariables, Bool.and_eq_true] at h
      simp only [dissolve, hasVariables, hasVariables_dissolve h.1, hasVariables_dissolve h.2]
  | neg a | function _ a =>
      exact hasVariables_dissolve (e := a) (by simpa [namesVariables] using h)
  | named name body =>
      simp only [namesVariables, Bool.and_eq_true] at h
      exact h.1
termination_by sizeOf e

theorem anyHasVariables_dissolveAll {parts : List Expression}
    (h : allNameVariables parts = true) :
    anyHasVariables (dissolveAll parts) = anyHasVariables parts := by
  cases parts with
  | nil => rfl
  | cons part rest =>
      simp only [allNameVariables, Bool.and_eq_true] at h
      simp only [dissolveAll, anyHasVariables, hasVariables_dissolve h.1,
        anyHasVariables_dissolveAll h.2]
termination_by sizeOf parts

end

end Expression

/-- Two computations that come to the same result, if one of them comes to any. -/
def Success.Alike {ε α : Type} (x y : Except ε α) : Prop :=
  x.toOption = y.toOption

namespace Success.Alike

variable {ε α β : Type} {x y : Except ε α}

theorem refl (x : Except ε α) : Alike x x := rfl

theorem ok_iff (h : Alike x y) (a : α) : x = .ok a ↔ y = .ok a := by
  rw [← toOption_eq_some, ← toOption_eq_some, h]

theorem bind (h : Alike x y) {k l : α → Except ε β} (next : ∀ a, Alike (k a) (l a)) :
    Alike (x >>= k) (y >>= l) := by
  cases x with
  | error =>
      cases y with
      | error => rfl
      | ok => cases h
  | ok a =>
      cases y with
      | error => cases h
      | ok b =>
          obtain rfl : a = b := Option.some.inj h
          exact next a

theorem ite {c : Prop} [Decidable c] {x' y' : Except ε α} (yes : Alike x y) (no : Alike x' y') :
    Alike (if c then x else x') (if c then y else y') := by
  split
  · exact yes
  · exact no

end Success.Alike

namespace Collected

open Expression (dissolve dissolveAll)
open Success (Alike)

variable {r : Expression.Reading}

/-- A product is asked about by one of its sides, where the other one has no variables and is
not zero. -/
inductive AskedBy (r : Expression.Reading) (a b : Expression) : Prop
  | right : a.hasVariables = false → (∀ k, a.evaluate r = .ok k → k.isZero = false) →
      isVoid r (.mul a b) = (do let _ ← a.evaluate r; isVoid r b) → AskedBy r a b
  | left : a.hasVariables = true → b.hasVariables = false →
      (∀ k, b.evaluate r = .ok k → k.isZero = false) →
      isVoid r (.mul a b) = (do let _ ← b.evaluate r; isVoid r a) → AskedBy r a b

theorem askedBy_of_isVoid {a b : Expression} (h : isVoid r (.mul a b) ≠ .ok false) :
    AskedBy r a b := by
  have nonzero : ∀ {x : Except Fault Numeric} {y : Except Fault Bool},
      (do if (← x).isZero then return false else y) ≠ .ok false →
      (∀ k, x = .ok k → k.isZero = false) ∧
        (do if (← x).isZero then return false else y) = (do let _ ← x; y) := by
    intro x y asked
    cases x with
    | error => exact ⟨by simp, rfl⟩
    | ok k =>
        cases zero : k.isZero with
        | true => exact absurd (by simp [bind, Except.bind, zero, pure, Except.pure]) asked
        | false => simp [bind, Except.bind, zero]
  cases left : a.hasVariables with
  | false =>
      have whole : isVoid r (.mul a b) =
          (do if (← a.evaluate r).isZero then return false else isVoid r b) := by
        simp [isVoid, left]
      rw [whole] at h
      exact .right left (nonzero h).1 (whole.trans (nonzero h).2)
  | true =>
      cases right : b.hasVariables with
      | false =>
          have whole : isVoid r (.mul a b) =
              (do if (← b.evaluate r).isZero then return false else isVoid r a) := by
            simp [isVoid, left, right]
          rw [whole] at h
          exact .left left right (nonzero h).1 (whole.trans (nonzero h).2)
      | true => simp [isVoid, left, right, pure, Except.pure] at h

/-- A part that cannot be asked whether it is void cannot be evaluated. -/
theorem evaluate_of_isVoid_error {e : Expression} {fault : Fault}
    (h : isVoid r e = .error fault) : (e.evaluate r).toOption = none := by
  cases e with
  | number | parameter | «variable» | sum | sub | pow | function | linear | named => cases h
  | neg a =>
      have inner := evaluate_of_isVoid_error (e := a) h
      simp only [Expression.evaluate]
      cases x : a.evaluate r <;> simp_all [Except.toOption, bind, Except.bind]
  | div a b =>
      simp only [isVoid] at h
      split at h
      · cases h
      · have inner := evaluate_of_isVoid_error (e := a) h
        simp only [Expression.evaluate]
        cases x : a.evaluate r <;> simp_all [Except.toOption, bind, Except.bind]
  | mul a b =>
      simp only [Expression.evaluate]
      cases x : a.evaluate r with
      | error => rfl
      | ok left =>
          cases y : b.evaluate r with
          | error => rfl
          | ok right =>
              have readable {e : Expression} {k : Numeric} (read : e.evaluate r = .ok k)
                  (unread : (e.evaluate r).toOption = none) : False := by
                simp [read, Except.toOption] at unread
              rcases (askedBy_of_isVoid (by simp [h]) : AskedBy r a b) with ⟨-, -, asked⟩ | ⟨-, -, -, asked⟩
              · simp only [h, x, bind, Except.bind] at asked
                exact (readable y (evaluate_of_isVoid_error asked.symm)).elim
              · simp only [h, y, bind, Except.bind] at asked
                exact (readable x (evaluate_of_isVoid_error asked.symm)).elim
termination_by sizeOf e

/-- An expression without variables comes out as its value. -/
theorem add_of_plain {e : Expression} (plain : e.hasVariables = false) :
    add r (.int 1) e empty = (e.evaluate r).map fun x => ⟨x, [], true⟩ := by
  rw [add.eq_def, if_pos (by simpa using plain)]
  cases e.evaluate r <;> rfl

/-- A part that cannot be asked whether it is void cannot be collected. -/
theorem add_of_isVoid_error {e : Expression} {fault : Fault} (h : isVoid r e = .error fault)
    (m : Numeric) (c : Collected) : (add r m e c).toOption = none := by
  have unread := evaluate_of_isVoid_error h
  rw [add.eq_def]
  split
  · cases x : e.evaluate r <;> simp_all [Except.toOption, bind, Except.bind]
  · cases e with
    | number | parameter | «variable» | sum | sub | pow | function | linear | named => cases h
    | neg a => exact add_of_isVoid_error (e := a) h m.neg c
    | mul a b =>
        rcases (askedBy_of_isVoid (by simp [h]) : AskedBy r a b) with
          ⟨plain, nonzero, asked⟩ | ⟨left, plain, nonzero, asked⟩
        · simp only [plain, Bool.not_false, if_true]
          cases x : a.evaluate r with
          | error => rfl
          | ok k =>
              simp only [h, x, bind, Except.bind, nonzero k x, Bool.false_eq_true, if_false] at asked ⊢
              cases scaled m k with
              | error => rfl
              | ok m' => exact add_of_isVoid_error asked.symm m' c
        · simp only [left, plain, Bool.not_true, Bool.not_false, Bool.false_eq_true, if_true, if_false]
          cases x : b.evaluate r with
          | error => rfl
          | ok k =>
              simp only [h, x, bind, Except.bind, nonzero k x, Bool.false_eq_true, if_false] at asked ⊢
              cases scaled m k with
              | error => rfl
              | ok m' => exact add_of_isVoid_error asked.symm m' c
    | div a b =>
        simp only [isVoid] at h
        split at h
        · cases h
        · rename_i plain
          simp only [add_of_plain (by simpa using plain)]
          cases b.evaluate r with
          | error => rfl
          | ok divisor =>
              simp only [Except.map, bind, Except.bind, isConstant, List.all_nil, Bool.and_self,
                if_true]
              cases divisor.real with
              | error => rfl
              | ok x =>
                  dsimp only
                  cases Numeric.div m (.float x) with
                  | error => rfl
                  | ok m' => exact add_of_isVoid_error (e := a) h m' c
termination_by sizeOf e

/-- Where nothing is fixed, nothing is void. -/
theorem isVoid_of_free (free : ∀ h, r.isFixed h = false) (e : Expression) :
    isVoid r e ≠ .ok true := by
  cases e with
  | number | parameter | sum | sub | pow | function | linear | named => simp [isVoid]
  | «variable» h => simp [isVoid, isVoidVariable_of_free free]
  | neg a => exact isVoid_of_free free a
  | div a b =>
      simp only [isVoid]
      split
      · simp
      · exact isVoid_of_free free a
  | mul a b =>
      intro void
      rcases (askedBy_of_isVoid (by simp [void]) : AskedBy r a b) with ⟨-, -, asked⟩ | ⟨-, -, -, asked⟩
      · obtain ⟨-, -, inner⟩ := Success.bind_ok.mp (asked.symm.trans void)
        exact isVoid_of_free free b inner
      · obtain ⟨-, -, inner⟩ := Success.bind_ok.mp (asked.symm.trans void)
        exact isVoid_of_free free a inner
termination_by sizeOf e

/-- Where nothing is fixed, asking whether a part is void has no influence. -/
theorem unless_void (free : ∀ h, r.isFixed h = false) (fault : Fault) (e : Expression)
    (m : Numeric) (c : Collected) {α : Type} (k : Collected → Except Fault α) :
    Alike (do
      if ← isVoid r e then throw fault
      k (← add r m e c)) (add r m e c >>= k) := by
  cases void : isVoid r e with
  | error =>
      have unread := add_of_isVoid_error void m c
      cases x : add r m e c with
      | error => rfl
      | ok c' => simp [x, Except.toOption] at unread
  | ok yes =>
      cases yes with
      | false => rfl
      | true => exact absurd void (isVoid_of_free free e)

/-- Parts that are asked and collected one after the other, with names and without. -/
theorem unless_void_alike (free : ∀ h, r.isFixed h = false) (fault : Fault) {e e' : Expression}
    {m : Numeric} {c : Collected} {α : Type} {k l : Collected → Except Fault α}
    (collected : Alike (add r m e c) (add r m e' c)) (next : ∀ c, Alike (k c) (l c)) :
    Alike (do
      if ← isVoid r e then throw fault
      k (← add r m e c)) (do
      if ← isVoid r e' then throw fault
      l (← add r m e' c)) :=
  (unless_void free fault e m c k).trans
    ((collected.bind next).trans (unless_void free fault e' m c l).symm)

mutual

/-- Where nothing is fixed, dissolving names that stand for something with variables collects
the same. -/
theorem add_dissolve (free : ∀ h, r.isFixed h = false) {e : Expression}
    (h : e.namesVariables = true) (m : Numeric) (c : Collected) :
    Alike (add r m e.dissolve c) (add r m e c) := by
  cases e with
  | number | parameter | «variable» | linear => exact .refl _
  | named name body =>
      simp only [Expression.namesVariables, Bool.and_eq_true] at h
      exact add_dissolve free h.2 m c
  | sum parts =>
      rw [add.eq_def r m (.sum parts), add.eq_def r m (dissolve (.sum parts)),
        Expression.hasVariables_dissolve h, Expression.evaluate_dissolve]
      exact .ite (.refl _)
        (addAll_dissolve free (by simpa [Expression.namesVariables] using h) m c)
  | neg a =>
      rw [add.eq_def r m (.neg a), add.eq_def r m (dissolve (.neg a)),
        Expression.hasVariables_dissolve h, Expression.evaluate_dissolve]
      exact .ite (.refl _)
        (add_dissolve free (e := a) (by simpa [Expression.namesVariables] using h) m.neg c)
  | sub a b =>
      rw [add.eq_def r m (.sub a b), add.eq_def r m (dissolve (.sub a b)),
        Expression.hasVariables_dissolve h, Expression.evaluate_dissolve]
      simp only [Expression.namesVariables, Bool.and_eq_true] at h
      refine .ite (.refl _) (unless_void_alike free _ (add_dissolve free h.1 m c) fun left => ?_)
      have last := unless_void_alike free .wrongKind (k := pure) (l := pure)
        (add_dissolve free h.2 m.neg left) fun _ => .refl _
      simpa using last
  | mul a b =>
      rw [add.eq_def r m (.mul a b), add.eq_def r m (dissolve (.mul a b)),
        Expression.hasVariables_dissolve h, Expression.evaluate_dissolve]
      simp only [Expression.namesVariables, Bool.and_eq_true] at h
      simp only [dissolve, Expression.hasVariables_dissolve h.1, Expression.hasVariables_dissolve h.2,
        Expression.evaluate_dissolve]
      have left := add_dissolve free h.1 (.int 1) empty
      have right := add_dissolve free h.2 (.int 1) empty
      refine .ite (.refl _) (.ite ?_ (.ite ?_ (left.bind fun x => .ite ?_ (right.bind fun y => .ite ?_
        (.refl _)))))
      · exact .bind (.refl _) fun k => .ite (.refl _) (.bind (.refl _) fun m => add_dissolve free h.2 m c)
      · exact .bind (.refl _) fun k => .ite (.refl _) (.bind (.refl _) fun m => add_dissolve free h.1 m c)
      · exact .ite (.refl _) (.bind (.refl _) fun m => add_dissolve free h.2 m c)
      · exact .ite (.refl _) (.bind (.refl _) fun m => add_dissolve free h.1 m c)
  | div a b =>
      rw [add.eq_def r m (.div a b), add.eq_def r m (dissolve (.div a b)),
        Expression.hasVariables_dissolve h, Expression.evaluate_dissolve]
      simp only [Expression.namesVariables, Bool.and_eq_true] at h
      have divisor := add_dissolve free h.2 (.int 1) empty
      refine .ite (.refl _) (divisor.bind fun x => .ite ?_ (.refl _))
      exact .bind (.refl _) fun x => .bind (.refl _) fun m => add_dissolve free h.1 m c
  | pow a b =>
      rw [add.eq_def r m (.pow a b), add.eq_def r m (dissolve (.pow a b)),
        Expression.hasVariables_dissolve h, Expression.evaluate_dissolve]
      simp only [Expression.namesVariables, Bool.and_eq_true] at h
      simp only [dissolve, Expression.isFixed_dissolve, Expression.evaluate_dissolve]
      have exponent := add_dissolve free h.2 (.int 1) empty
      refine .ite (.refl _) (exponent.bind fun x => .ite (.ite (.refl _) (.ite ?_ (.refl _))) (.refl _))
      exact add_dissolve free h.1 m c
  | function f a =>
      rw [add.eq_def r m (.function f a), add.eq_def r m (dissolve (.function f a)),
        Expression.hasVariables_dissolve h, Expression.evaluate_dissolve]
      have argument := add_dissolve free (e := a)
        (by simpa [Expression.namesVariables] using h) (.int 1) empty
      exact .ite (.refl _) (argument.bind fun x => .refl _)
termination_by sizeOf e

theorem addAll_dissolve (free : ∀ h, r.isFixed h = false) {parts : List Expression}
    (h : Expression.allNameVariables parts = true) (m : Numeric) (c : Collected) :
    Alike (addAll r m (dissolveAll parts) c) (addAll r m parts c) := by
  cases parts with
  | nil => exact .refl _
  | cons part rest =>
      simp only [Expression.allNameVariables, Bool.and_eq_true] at h
      rw [dissolveAll, addAll.eq_def, addAll.eq_def r m (part :: rest)]
      exact unless_void_alike free _ (add_dissolve free h.1 m c) fun c =>
        addAll_dissolve free h.2 m c
termination_by sizeOf parts

end

end Collected

namespace Expression

open Success (Alike)

variable {r : Reading}

theorem affine?_of_free (free : ∀ h, r.isFixed h = false) (e : Expression) :
    e.affine? r = (do (← Collected.add r (.int 1) e .empty).form?) := by
  cases e <;> simp [affine?, free]

/-- Where nothing is fixed, dissolving names that stand for something with variables does not
change the affine form. -/
theorem affine?_dissolve (free : ∀ h, r.isFixed h = false) {e : Expression}
    (h : e.namesVariables = true) : Alike (e.dissolve.affine? r) (e.affine? r) := by
  rw [affine?_of_free free, affine?_of_free free]
  exact (Collected.add_dissolve free h (.int 1) .empty).bind fun c => .refl _

theorem affine_eq_ok {context : String} {e : Expression} {form : AffineForm} :
    e.affine r context = .ok form ↔ e.affine? r = .ok (some form) := by
  unfold affine
  split <;> simp_all

theorem affine_eq_notAffine {context : String} {e : Expression} :
    e.affine r context = .error (.notAffine context) ↔ e.affine? r = .ok none := by
  unfold affine
  split <;> simp_all

/-- A reading with no variable fixed. -/
def Reading.freed (r : Reading) : Reading :=
  { r with isFixed := fun _ => false }

/-- The variables taken as their images are, with none fixed. -/
def Reading.behind (s : Reading) (image : Handle → Option Handle) : Reading :=
  ⟨s.parameter, fun h => s.current (nameOf image h), fun _ => false⟩

/-- Images for some variables of a reading `r` in a reading `s`: no two variables share an image,
and no image is fixed. -/
structure Reading.HasImages (r s : Reading) (image : Handle → Option Handle) : Prop where
  parameter : ∀ h, s.parameter h = r.parameter h
  injective : ∀ a b target, image a = some target → image b = some target → a = b
  unfixed : ∀ h target, image h = some target → s.isFixed target = false

theorem Reading.HasImages.renaming {s : Reading} {image : Handle → Option Handle}
    (images : r.HasImages s image) : Collected.Renaming (s.behind image) (nameOf image)
      (fun h => ∃ target, image h = some target) s where
  agree := {
    parameter _ := rfl
    current _ _ := rfl
    isFixed h known := by
      obtain ⟨target, found⟩ := known
      simp [nameOf, found, behind, images.unfixed h target found] }
  injective a b known known' equal := by
    obtain ⟨target, found⟩ := known
    obtain ⟨target', found'⟩ := known'
    simp only [nameOf, found, found', Option.getD_some] at equal
    subst equal
    exact images.injective a b _ found found'

/-- What an expression becomes over images, and what affine form it has itself. -/
structure Commutes (e : Expression) (r s : Reading) (image : Handle → Option Handle)
    (context : String) : Prop where
  /-- The first variable without an image is refused, whatever else there is. -/
  refused : ∀ h, unknown? image e.vars = some h →
    e.mapped s image context = .error (.inconsistent (.noImage h context))
  /-- The form over the images is that of the expression without names and with no variable
      fixed, error for error, with the images for the variables. -/
  mapped : unknown? image e.vars = none → e.dissolve.Steady r.freed (s.behind image) →
    e.mapped s image context =
      (e.dissolve.affine r.freed context).map (AffineForm.rename (nameOf image))
  once : ∀ form, e.mapped s image context = .ok form → form.vars.Nodup
  /-- Names of what has variables make no difference. -/
  named : e.namesVariables = true →
    (∀ form, e.dissolve.affine r.freed context = .ok form ↔
      e.affine r.freed context = .ok form) ∧
    (e.dissolve.affine r.freed context = .error (.notAffine context) ↔
      e.affine r.freed context = .error (.notAffine context))

/-- Substituting images commutes with reading an affine form. -/
theorem mapped_commutes {r s : Reading} {image : Handle → Option Handle}
    (images : r.HasImages s image) (e : Expression) (context : String) :
    e.Commutes r s image context := by
  refine ⟨fun h unknown => ?_, fun known steady => ?_, fun form => mapped_vars_nodup, fun named => ?_⟩
  · rw [mapped_eq images.renaming, unknown]
  · have alike : r.freed.Alike (s.behind image) := ⟨images.parameter, fun _ => rfl, fun _ => rfl⟩
    have same : e.dissolve.affine (s.behind image) context = e.dissolve.affine r.freed context := by
      rw [affine, affine, affine?_steady alike steady]
    rw [mapped_eq images.renaming, known, mapped_some]
    simp only [same]
  · have alike := affine?_dissolve (r := r.freed) (fun _ => rfl) named
    simp only [affine_eq_ok, affine_eq_notAffine, alike.ok_iff, implies_true, and_self]

end Expression

/-- A variable and the negation of another one, which has a name. -/
def namedNegation : Expression :=
  .sum [.variable ⟨0, "x", 0⟩, .named "negated" (.neg (.variable ⟨0, "x", 1⟩))]

/-- The variables of model `0` have images in model `1`, one of them fixed in the former. -/
theorem namedNegation_commutes :
    let r : Expression.Reading := ⟨fun _ => .null, fun _ => .int 2, fun h => h == ⟨0, "x", 1⟩⟩
    let s : Expression.Reading := ⟨fun _ => .null, fun _ => .null, fun _ => false⟩
    let image : Handle → Option Handle := fun h => if h.model = 0 then some { h with model := 1 } else none
    r.HasImages s image ∧ namedNegation.Commutes r s image "body" := by
  intro r s image
  have images : r.HasImages s image := by
    refine ⟨fun _ => rfl, fun a b target ha hb => ?_, fun _ _ _ => rfl⟩
    obtain ⟨_, _, _⟩ := a
    obtain ⟨_, _, _⟩ := b
    grind
  exact ⟨images, Expression.mapped_commutes images _ _⟩

/-- A variable and a product whose first factor is a zero with a name, and whose second factor
asks for the logarithm of a negative number with a name. -/
def hiddenLogarithm : Expression :=
  .sum [.variable ⟨0, "x", 0⟩, .mul (.named "zero" (.number (.int 0)))
    (.function .log (.named "below" (.number (.int (-1)))))]

/-- Names keep the second factor from being read; over images there is no name left. -/
theorem hiddenLogarithm_refused :
    let r : Expression.Reading := ⟨fun _ => .null, fun _ => .null, fun _ => false⟩
    (∃ form, hiddenLogarithm.affine r "body" = .ok form) ∧ r.HasImages r some ∧
      hiddenLogarithm.mapped r some "body" = .error (.fault .badValue) := by
  intro r
  refine ⟨⟨_, rfl⟩, ⟨fun _ => rfl, fun a b target ha hb => ?_, fun _ _ _ => rfl⟩, rfl⟩
  rw [Option.some.inj ha, Option.some.inj hb]

end BlockAngular
