/-! # Handles

A handle names one variable or constraint for good: the model that declares it,
the name of its component, and its position among the elements of the component.
Tables about variables and constraints are lists of entries by handle, in the
order in which the handles came.
-/

namespace BlockAngular

/-- The identity of one variable or constraint. -/
structure Handle where
  /-- The number of the model. -/
  model : Nat
  component : String
  position : Nat
  deriving DecidableEq, Repr, Inhabited

namespace Handle

/-- Put an entry into a table: a handle that has one keeps its place and takes the
    new content. -/
def put {α : Type} (h : Handle) (a : α) : List (Handle × α) → List (Handle × α)
  | [] => [(h, a)]
  | (k, b) :: rest => if k = h then (k, a) :: rest else (k, b) :: put h a rest

/-- Change the entry of a handle, or add one that is made from `start`. -/
def change {α : Type} (h : Handle) (start : α) (f : α → α) : List (Handle × α) → List (Handle × α)
  | [] => [(h, f start)]
  | (k, b) :: rest => if k = h then (k, f b) :: rest else (k, b) :: change h start f rest

/-- Add a handle at the end of a list unless it is there. -/
def insertNew (h : Handle) (hs : List Handle) : List Handle :=
  if h ∈ hs then hs else hs ++ [h]

end Handle

end BlockAngular
