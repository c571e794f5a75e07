import BlockAngular.Model.World
import BlockAngular.Proofs.Affine.Rename
import BlockAngular.Proofs.Model.Limits
import Mathlib.Algebra.BigOperators.Group.List.Basic
import Mathlib.Algebra.Order.Field.Rat

/-! # Exact values

Affine forms, limits and constraints over rational numbers in place of doubles. An
expression has the value of its affine form, in which all variables are terms, fixed ones
as well, and a constraint holds if the value of its body keeps to its limits.
-/

namespace BlockAngular

namespace Binary64

/-- The rational that a double stands for; a double that stands for none counts as zero. -/
def rational (x : Float) : Rat :=
  (toRat? x).getD 0

theorem rational_of_isZero {x : Float} (h : isZero x = true) : rational x = 0 := by
  have zero : exact x = .finite 0 := by simpa [isZero] using h
  simp [rational, toRat?, zero]

end Binary64

namespace AffineForm

variable {x : Handle → Rat}

/-- The sum of some terms at the values of their variables. -/
def total (x : Handle → Rat) (terms : List (Handle × Float)) : Rat :=
  (terms.map fun (h, k) => Binary64.rational k * x h).sum

/-- The value of a form at the values of its variables. -/
def value (x : Handle → Rat) (form : AffineForm) : Rat :=
  Binary64.rational form.constant + total x form.terms

theorem total_perm {terms terms' : List (Handle × Float)} (p : terms.Perm terms') :
    total x terms = total x terms' :=
  (p.map _).sum_eq

@[simp] theorem total_append (terms terms' : List (Handle × Float)) :
    total x (terms ++ terms') = total x terms + total x terms' := by
  simp [total]

theorem total_flatMap {α : Type} (l : List α) (terms : α → List (Handle × Float)) :
    total x (l.flatMap terms) = (l.map fun a => total x (terms a)).sum := by
  induction l with
  | nil => rfl
  | cons a l ih => simp [ih]

/-- Coefficients of zero do not count. -/
theorem total_filter_isZero (terms : List (Handle × Float)) :
    total x (terms.filter fun (_, k) => !Binary64.isZero k) = total x terms := by
  induction terms with
  | nil => rfl
  | cons term rest ih =>
      obtain ⟨h, k⟩ := term
      simp only [total] at ih ⊢
      by_cases zero : Binary64.isZero k = true
      · simp [zero, Binary64.rational_of_isZero zero, ih]
      · simp [zero, ih]

/-- A form over images has the value of the form at the values that the images have. -/
theorem value_rename {y : Handle → Rat} {f : Handle → Handle} {form : AffineForm}
    (carried : ∀ v ∈ form.vars, y (f v) = x v) : (form.rename f).value y = form.value x := by
  simp only [value, rename, total, List.map_map]
  congr 2
  refine List.map_congr_left fun term ht => ?_
  simp [carried term.1 (List.mem_map_of_mem ht)]

end AffineForm

namespace Collected

theorem plainZero_zero : plainZero 0.0 = 0.0 := by
  decide +kernel

@[simp] theorem plainZero_plainZero (x : Float) : plainZero (plainZero x) = plainZero x := by
  by_cases zero : (x == 0.0) = true
  · have plain : plainZero x = 0.0 := by simp [plainZero, zero]
    rw [plain, plainZero_zero]
  · have plain : plainZero x = x := by simp [plainZero, zero]
    rw [plain, plain]

theorem addTo_of_absent {h : Handle} {k : Numeric} {terms : List (Handle × Numeric)}
    (absent : h ∉ terms.map (·.1)) : addTo h k terms = .ok (terms ++ [(h, k)]) := by
  induction terms with
  | nil => rfl
  | cons term rest ih =>
      simp only [List.map_cons, List.mem_cons, not_or] at absent
      simp [addTo, Ne.symm absent.1, ih absent.2, bind, Except.bind, pure, Except.pure]

/-- Terms of variables that are not fixed are taken as they are. -/
theorem addTerms_of_free {r : Expression.Reading} (free : ∀ h, r.isFixed h = false)
    {terms : List (Handle × Numeric)} {c : Collected}
    (nodup : ((c.terms ++ terms).map (·.1)).Nodup) :
    addTerms r (.int 1) terms c = .ok { c with terms := c.terms ++ terms } := by
  induction terms generalizing c with
  | nil => simp [addTerms]
  | cons term rest ih =>
      obtain ⟨h, k⟩ := term
      have solid : isVoidVariable r h = false := by
        unfold isVoidVariable
        split <;> simp [free]
      have absent : h ∉ c.terms.map (·.1) := by
        intro there
        rw [List.map_append] at nodup
        exact (List.nodup_append.mp nodup).2.2 h there h (by simp) rfl
      have added : c.addVariable r k h = .ok { c with terms := c.terms ++ [(h, k)] } := by
        simp [addVariable, free, addTo_of_absent absent, bind, Except.bind, pure, Except.pure]
      have rest_nodup : (((c.terms ++ [(h, k)]) ++ rest).map (·.1)).Nodup := by
        simpa using nodup
      have others := ih (c := { c with terms := c.terms ++ [(h, k)] }) rest_nodup
      simp only [addTerms, solid, scaled, Bool.false_eq_true, if_false, bind, Except.bind, added]
      simpa using others

theorem doubles_floats (terms : List (Handle × Float)) :
    doubles (terms.map fun (h, k) => (h, .float k)) = .ok terms := by
  induction terms with
  | nil => rfl
  | cons term rest ih =>
      simp [doubles, ih, Numeric.real, Numeric.asDouble, bind, Except.bind, pure, Except.pure]

end Collected

namespace Expression

/-- The affine form of an expression in some models. Names of parts are dissolved, and a fixed
variable is a variable. -/
def formIn (w : World) (e : Expression) : Option AffineForm :=
  (e.mapped w.freeReading some "expression").toOption

/-- The form of a constant and terms has no coefficients of zero. -/
theorem formIn_ofTerms (w : World) (constant : Float) {terms : List (Handle × Float)}
    (nodup : (terms.map (·.1)).Nodup) : (ofTerms constant terms).formIn w =
      some ⟨Collected.plainZero constant, terms.filter fun (_, k) => !Binary64.isZero k⟩ := by
  have dissolved : (ofTerms constant terms).substitute some = .ok (ofTerms constant terms) := by
    simp [ofTerms, substitute, substituteTerms_some, bind, Except.bind, pure, Except.pure]
  have collected : Collected.add w.freeReading (.int 1) (ofTerms constant terms) .empty =
      .ok ⟨.float constant, terms.map fun (h, k) => (h, .float k), true⟩ := by
    have added : Collected.addTerms w.freeReading (.int 1)
        (terms.map fun (h, k) => (h, .float k)) ⟨.float constant, [], true⟩ =
          .ok ⟨.float constant, [] ++ terms.map fun (h, k) => (h, .float k), true⟩ :=
      Collected.addTerms_of_free (fun _ => rfl) (by simpa [Function.comp_def] using nodup)
    rw [Collected.add.eq_def]
    simpa [ofTerms, hasVariables, Collected.addConstant, Collected.scaled, Collected.joined,
      Collected.empty, bind, Except.bind, pure, Except.pure] using added
  have read : (ofTerms constant terms).affine? w.freeReading =
      (do (← Collected.add w.freeReading (.int 1) (ofTerms constant terms) .empty).form?) := rfl
  have formed : (⟨.float constant, terms.map fun (h, k) => (h, .float k), true⟩ : Collected).form? =
      .ok (some ⟨Collected.plainZero constant, terms.filter fun (_, k) => !Binary64.isZero k⟩) := by
    simp only [Collected.form?, List.filter_map, Function.comp_def, Numeric.isZero]
    simp [Collected.doubles_floats, Numeric.real, Numeric.asDouble, bind, Except.bind, pure,
      Except.pure]
  rw [collected] at read
  simp [formIn, mapped, dissolved, affine, read, formed, bind, Except.bind, Except.toOption]

/-- The constant of an affine form is no negative zero. -/
theorem affine?_constant {r : Reading} {e : Expression} {form : AffineForm}
    (h : e.affine? r = .ok (some form)) : Collected.plainZero form.constant = form.constant := by
  have collected : ∀ {c : Collected}, c.form? = .ok (some form) →
      Collected.plainZero form.constant = form.constant := by
    intro c formed
    simp only [Collected.form?] at formed
    split at formed
    · simp only [Success.bind_ok, Success.pure_ok, Option.some.injEq] at formed
      obtain ⟨_, -, _, -, rfl⟩ := formed
      exact Collected.plainZero_plainZero _
    · cases formed
  unfold affine? at h
  split at h
  · split at h
    · simp only [Success.bind_ok, Success.pure_ok, Option.some.injEq] at h
      obtain ⟨_, -, rfl⟩ := h
      exact Collected.plainZero_plainZero _
    · simp only [Success.bind_ok] at h
      obtain ⟨c, -, formed⟩ := h
      exact collected formed
  · simp only [Success.bind_ok] at h
    obtain ⟨c, -, formed⟩ := h
    exact collected formed

theorem mapped_constant {r : Reading} {image : Handle → Option Handle} {context : String}
    {e : Expression} {form : AffineForm} (h : e.mapped r image context = .ok form) :
    Collected.plainZero form.constant = form.constant := by
  unfold mapped at h
  split at h
  · exact affine?_constant (affine_ok h)
  · cases h

end Expression

namespace Limits

/-- Whether a number keeps to limits. A limit that is no number excludes every number. -/
def Holds (limits : Limits Float) (v : Rat) : Prop :=
  if limits.equality then ∃ x ∈ limits.lower, Binary64.toRat? x = some v
  else (∀ x ∈ limits.lower, ∃ q, Binary64.toRat? x = some q ∧ q ≤ v) ∧
    ∀ x ∈ limits.upper, ∃ q, Binary64.toRat? x = some q ∧ v ≤ q

/-- An equality asks for what a range between equal numbers asks for. -/
theorem settled_holds {limits : Limits Float} {v : Rat} :
    limits.settled.Holds v ↔ limits.Holds v := by
  by_cases point : limits.isPoint = true
  · obtain ⟨lower, upper, equality⟩ := limits
    have shape := point
    simp only [isPoint] at shape
    split at shape
    · rename_i x y
      simp only [Bool.and_eq_true, Bool.not_eq_true'] at shape
      obtain ⟨rfl, same⟩ := shape
      have equal := (Exact.same_iff.mp same).1
      simp only [settled, point, if_true, Holds, Bool.false_eq_true, if_false, Option.mem_some_iff,
        exists_eq_left', forall_eq', Binary64.toRat?, equal]
      cases Binary64.exact y with
      | nan | infinite => simp
      | finite q =>
          simp only [Option.some.injEq, exists_eq_left']
          exact le_antisymm_iff
    · cases shape
  · rw [settled_of_not_isPoint (by simpa using point)]

end Limits

namespace Constraint

/-- Whether a constraint holds at the values of its variables, if something more is added to
the value of its body. -/
def HoldsIn (w : World) (x : Handle → Rat) (more : Rat) (c : Constraint) : Prop :=
  ∃ form limits, c.body.formIn w = some form ∧ Limits.ofConstraint? w.reading c = .ok limits ∧
    limits.Holds (form.value x + more)

end Constraint

end BlockAngular
