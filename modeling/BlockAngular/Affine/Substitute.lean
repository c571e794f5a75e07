import BlockAngular.Affine.Collect

/-! # Substituting images

An expression over the variables of one model becomes one over their images. Names
are dissolved on the way, and the first variable from the left that has no image is
reported.
-/

namespace BlockAngular

namespace Expression

/-- The terms of a linear form over the images. -/
def substituteTerms (image : Handle → Option Handle) :
    List (Handle × Numeric) → Except Handle (List (Handle × Numeric))
  | [] => .ok []
  | (h, k) :: rest =>
    match image h with
    | some target => do return (target, k) :: (← substituteTerms image rest)
    | none => .error h

mutual

/-- The expression over the images of its variables. -/
def substitute (image : Handle → Option Handle) : Expression → Except Handle Expression
  | .number x => .ok (.number x)
  | .parameter h => .ok (.parameter h)
  | .variable h =>
    match image h with
    | some target => .ok (.variable target)
    | none => .error h
  | .sum parts => do return .sum (← substituteAll image parts)
  | .sub a b => do return .sub (← substitute image a) (← substitute image b)
  | .neg a => do return .neg (← substitute image a)
  | .mul a b => do return .mul (← substitute image a) (← substitute image b)
  | .div a b => do return .div (← substitute image a) (← substitute image b)
  | .pow a b => do return .pow (← substitute image a) (← substitute image b)
  | .function f a => do return .function f (← substitute image a)
  | .linear constant terms => do return .linear constant (← substituteTerms image terms)
  | .named _ body => substitute image body

/-- All parts over the images of their variables. -/
def substituteAll (image : Handle → Option Handle) :
    List Expression → Except Handle (List Expression)
  | [] => .ok []
  | part :: rest => do return (← substitute image part) :: (← substituteAll image rest)

end

/-- The affine form of an expression over the images of its variables. -/
def mapped (r : Reading) (image : Handle → Option Handle) (context : String) (e : Expression) :
    Except Error AffineForm :=
  match e.substitute image with
  | .ok overImages => overImages.affine r context
  | .error h => .error (.inconsistent (.noImage h context))

end Expression

end BlockAngular
