import BlockAngular.Model.Expression

/-! # Affine forms

A constant and terms, each a variable with its coefficient. A variable has at most
one term, and terms stand in the order in which their variables came up.
-/

namespace BlockAngular

/-- A constant plus products of coefficients and variables. -/
structure AffineForm where
  constant : Float
  terms : List (Handle × Float)

namespace AffineForm

/-- The variables of the terms. -/
def vars (form : AffineForm) : List Handle :=
  form.terms.map (·.1)

/-- The form as an expression. -/
def toExpression (form : AffineForm) : Expression :=
  Expression.ofTerms form.constant form.terms

end AffineForm

end BlockAngular
