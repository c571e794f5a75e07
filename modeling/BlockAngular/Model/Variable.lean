import BlockAngular.Fault
import BlockAngular.Model.Domain

/-! # Variables

A variable has a domain, bounds of its own, a current value and a flag that fixes
it there. Its effective bounds are the tighter ones of its own and its domain's.
The attributes of a variable are what an image of it takes over.
-/

namespace BlockAngular

namespace Value

/-- Whether a variable can keep a value; sequences and tables are refused. -/
def isStorable : Value → Bool
  | .tuple _ | .list _ | .table _ | .record _ => false
  | _ => true

end Value

/-- A decision variable. Absent bounds and an absent value are `null`. -/
structure Variable where
  domain : Domain
  lower : Value
  upper : Value
  value : Value
  fixed : Bool

namespace Variable

instance : Inhabited Variable := ⟨⟨.reals, .null, .null, .null, false⟩⟩

/-- A free variable over all reals. -/
def free : Variable :=
  default

/-- The tighter one of a declared bound and a bound of the domain; of two equal
    ones the declared one. `tighter a b` says that `b` excludes `a`, and a declared
    bound that is infinite on its open side counts as none. A declared bound that is no
    real number cannot be compared, but stands if there is no other one. -/
def tightest (own : Value) (ofDomain : Option Int) (openSide : Exact)
    (tighter : Exact → Exact → Bool) : Except Fault Value :=
  let limit := (ofDomain.map Value.int).getD .null
  match own with
  | .null => .ok limit
  | own =>
    match own.real? with
    | none =>
      match ofDomain with
      | some _ => .error .wrongKind
      | none => if own.isStorable then .ok own else .error .wrongKind
    | some (.finite q) =>
      match ofDomain with
      | some n => .ok (if tighter (.finite q) (.finite n) then limit else own)
      | none => .ok own
    | some x => if x.same openSide then .ok limit else .error .badValue

/-- The effective lower bound. -/
def lowerBound (v : Variable) : Except Fault Value :=
  tightest v.lower v.domain.lower (.infinite true) Exact.below

/-- The effective upper bound. -/
def upperBound (v : Variable) : Except Fault Value :=
  tightest v.upper v.domain.upper (.infinite false) fun x y => y.below x

/-- Fix a variable at a value, which need not belong to the domain. -/
def fixAt (value : Value) (v : Variable) : Variable :=
  { v with fixed := true, value := value }

end Variable

/-- What an image takes over from its preimage. -/
structure Attributes where
  lower : Value
  upper : Value
  fixed : Bool
  /-- The value of a fixed variable. -/
  fixValue : Value
  /-- The current value. -/
  start : Value
  binary : Bool
  /-- Integer and not binary. -/
  integer : Bool
  domain : Domain

namespace Attributes

/-- The attributes of a variable; unusable bounds are refused. -/
def ofVariable? (v : Variable) : Except Fault Attributes := do
  let lower ← v.lowerBound
  let upper ← v.upperBound
  return {
    lower := lower
    upper := upper
    fixed := v.fixed
    fixValue := if v.fixed then v.value else .null
    start := v.value
    binary := v.domain.isBinary
    integer := v.domain.isDiscrete && !v.domain.isBinary
    domain := v.domain }

/-- Whether there is a current value. -/
def hasStart (a : Attributes) : Bool :=
  match a.start with
  | .null => false
  | _ => true

/-- The variable with these attributes, not yet fixed. -/
def toVariable (a : Attributes) : Variable where
  domain := a.domain
  lower := a.lower
  upper := a.upper
  value := a.start
  fixed := false

end Attributes

end BlockAngular
