import BlockAngular.Proofs.Affine.Mapped
import BlockAngular.Proofs.Decomposition.Shares

/-! # Reading a model

What the images of constraints are made from can be read off the model alone: the form of the
body over the declared variables, and the limits. The registry only gives the variables of a
form other names and tells which terms stay in a block.
-/

namespace BlockAngular

open Decomposition

namespace Registry

/-- A registry with one image for each declared variable of a model. -/
structure HasImages (vars : Registry) (m : Model) : Prop where
  faithful : vars.Faithful
  known : ∀ h, (∃ image, vars.image? h = some image) ↔ h ∈ m.vars.map (·.2)

namespace Faithful

variable {vars : Registry} {h image : Handle} {block : Block}

/-- Images are new names for the variables, and are read as the variables are. -/
theorem renames (faithful : vars.Faithful) (m : Model) :
    Collected.Renaming (World.freeReading [m]) (Expression.nameOf vars.image?)
      (fun v => ∃ target, vars.image? v = some target) (imageReading m vars) := by
  refine ⟨⟨fun _ => rfl, ?_, fun _ _ => rfl⟩, ?_⟩
  · rintro v ⟨target, found⟩
    simp [imageReading, World.freeReading, Expression.nameOf, found,
      faithful.preimage?_image?.mpr found]
  · rintro a b ⟨target, found⟩ ⟨target', found'⟩ same
    simp only [Expression.nameOf, found, found', Option.getD_some] at same
    subst same
    exact faithful.image?_injective found found'

/-- An image lives where its preimage is registered for. -/
theorem imageOwner?_of_image? (faithful : vars.Faithful) (found : vars.image? h = some image) :
    vars.imageOwner? image = vars.owner? h := by
  obtain ⟨e, he, rfl, rfl⟩ := faithful.image?_iff.mp found
  rw [faithful.imageOwner?_iff.mpr ⟨e, he, rfl, rfl⟩, faithful.owner?_iff.mpr ⟨e, he, rfl, rfl⟩]

theorem exists_owner (faithful : vars.Faithful) (found : vars.image? h = some image) :
    ∃ owner, vars.imageOwner? image = some owner := by
  obtain ⟨e, he, -, rfl⟩ := faithful.image?_iff.mp found
  exact ⟨e.block, faithful.imageOwner?_iff.mpr ⟨e, he, rfl, rfl⟩⟩

end Faithful

end Registry

namespace Model

/-- A declared variable as it stands. -/
def itself? (m : Model) (h : Handle) : Option Handle :=
  if h ∈ m.vars.map (·.2) then some h else none

/-- The form of an expression over the declared variables, whether they are fixed or not. -/
def formOf (m : Model) (context : String) (e : Expression) : Except Error AffineForm :=
  e.mapped (World.freeReading [m]) m.itself? context

/-- What the image of a constraint is made from. -/
def readConstraint (m : Model) (key : Key) : Except Error (AffineForm × Limits Float) := do
  let c ← (m.constraintAt (m.preimageOf key)).mapError .fault
  if !(m.indexOf (m.preimageOf key)).isWritable then throw (.fault .badValue)
  let form ← m.formOf ("constraint " ++ m.nameOf (m.preimageOf key)) c.body
  let limits ← (Limits.ofConstraint? (World.freeReading [m]) c).mapError .fault
  return (form, limits)

variable {m : Model} {vars : Registry}

theorem nameOf_itself? (m : Model) : Expression.nameOf m.itself? = fun h => h := by
  funext h
  unfold Expression.nameOf itself?
  split <;> rfl

theorem itself?_renames (m : Model) :
    Collected.Renaming (World.freeReading [m]) (Expression.nameOf m.itself?)
      (fun v => ∃ target, m.itself? v = some target) (World.freeReading [m]) := by
  rw [nameOf_itself?]
  exact ⟨⟨fun _ => rfl, fun _ _ => rfl, fun _ _ => rfl⟩, fun _ _ _ _ same => same⟩

theorem formOf_eq (m : Model) (context : String) (e : Expression) :
    m.formOf context e = match Expression.unknown? m.itself? e.vars with
      | some h => .error (.inconsistent (.noImage h context))
      | none => e.mapped (World.freeReading [m]) some context := by
  rw [formOf, Expression.mapped_eq m.itself?_renames, nameOf_itself?]
  cases Expression.unknown? m.itself? e.vars with
  | some h => rfl
  | none => cases e.mapped (World.freeReading [m]) some context <;> simp [Except.map]

/-- The variables of a form are declared and differ. -/
theorem formOf_vars {context : String} {e : Expression} {form : AffineForm}
    (h : m.formOf context e = .ok form) :
    form.vars.Nodup ∧ ∀ v ∈ form.vars, v ∈ m.vars.map (·.2) := by
  refine ⟨Expression.mapped_vars_nodup h, fun v hv => ?_⟩
  obtain ⟨plain, -, rfl, known⟩ := Expression.mapped_ok m.itself?_renames h context
  rw [nameOf_itself?, AffineForm.rename_self] at hv
  obtain ⟨target, found⟩ := known v hv
  unfold itself? at found
  split at found
  · assumption
  · cases found

/-- The form over the images is the form over the variables, with the images for names. -/
theorem mapped_eq_formOf (images : vars.HasImages m) (e : Expression) (context : String) :
    e.mapped (imageReading m vars) vars.image? context =
      (m.formOf context e).map (AffineForm.rename (Expression.nameOf vars.image?)) := by
  have same : Expression.unknown? vars.image? e.vars = Expression.unknown? m.itself? e.vars := by
    refine congrArg (List.find? · e.vars) (funext fun h => ?_)
    have known := images.known h
    by_cases there : h ∈ m.vars.map (·.2)
    · obtain ⟨image, found⟩ := known.mpr there
      simp [found, itself?, there]
    · have absent : vars.image? h = none := by
        by_contra found
        exact there (known.mp (Option.ne_none_iff_exists'.mp found))
      simp only [absent, itself?, there, if_false]
  rw [Expression.mapped_eq (images.faithful.renames m), formOf_eq, same]
  cases Expression.unknown? m.itself? e.vars <;> rfl

end Model

namespace AffineForm

variable {vars : Registry} {block : Block}

theorem termsOf_of_owned {terms : List (Handle × Float)}
    (owned : ∀ e ∈ terms, ∃ owner, vars.imageOwner? e.1 = some owner) :
    termsOf vars block terms = .ok (terms.filter fun e => vars.livesIn block e.1) := by
  induction terms with
  | nil => rfl
  | cons e rest ih =>
      obtain ⟨image, k⟩ := e
      obtain ⟨⟨owner, first⟩, others⟩ := List.forall_mem_cons.mp owned
      rw [termsOf, Registry.imageOwner_ok.mpr first, ih others]
      by_cases same : owner.same block = true <;>
        simp [Registry.livesIn, first, same, bind, Except.bind, pure, Except.pure]

/-- A form over images can be restricted to any block. -/
theorem restrict_of_owned {form : AffineForm} (keepConstant : Bool)
    (owned : ∀ e ∈ form.terms, ∃ owner, vars.imageOwner? e.1 = some owner) :
    form.restrict vars block keepConstant = .ok ⟨if keepConstant then form.constant else 0.0,
      form.terms.filter fun e => vars.livesIn block e.1⟩ := by
  rw [restrict, termsOf_of_owned owned]
  rfl

/-- The terms whose variables are registered for a block. -/
def ownTerms (vars : Registry) (block : Block) (form : AffineForm) : List (Handle × Float) :=
  form.terms.filter fun term => (vars.owner? term.1).any fun owner => owner.same block

/-- The images of the variables of a form live where the variables are registered for. -/
theorem livesIn_rename {m : Model} (images : vars.HasImages m) {form : AffineForm}
    (known : ∀ v ∈ form.vars, v ∈ m.vars.map (·.2)) :
    (form.rename (Expression.nameOf vars.image?)).terms.filter (fun e => vars.livesIn block e.1) =
      (form.ownTerms vars block).map fun (v, k) => (Expression.nameOf vars.image? v, k) := by
  simp only [rename, List.filter_map, ownTerms]
  refine congrArg (List.map _) (List.filter_congr fun term ht => ?_)
  obtain ⟨image, found⟩ := (images.known _).mpr (known _ (List.mem_map_of_mem (f := (·.1)) ht))
  simp [Expression.nameOf, found, Registry.livesIn, images.faithful.imageOwner?_of_image? found]

theorem owned_rename {m : Model} (images : vars.HasImages m) {form : AffineForm}
    (known : ∀ v ∈ form.vars, v ∈ m.vars.map (·.2)) :
    ∀ e ∈ (form.rename (Expression.nameOf vars.image?)).terms,
      ∃ owner, vars.imageOwner? e.1 = some owner := by
  simp only [rename, List.mem_map]
  rintro _ ⟨term, ht, rfl⟩
  obtain ⟨image, found⟩ := (images.known _).mpr (known _ (List.mem_map_of_mem (f := (·.1)) ht))
  simpa [Expression.nameOf, found] using images.faithful.exists_owner found

end AffineForm

/-- The way of a constraint to a block, from what is read of it. -/
def Model.transitTo (m : Model) (vars : Registry) (block : Block) (key : Key)
    (read : AffineForm × Limits Float) : Transit :=
  ⟨m.preimageOf key, read.1.rename (Expression.nameOf vars.image?),
    ⟨read.1.constant, (read.1.ownTerms vars block).map fun (v, k) =>
      (Expression.nameOf vars.image? v, k)⟩, read.2⟩

/-- Whether a constraint can move does not depend on the block that it moves to. -/
theorem transitOf_eq {m : Model} (wf : m.WellFormed) {vars : Registry} (images : vars.HasImages m)
    (block : Block) (key : Key) : transitOf (imageReading m vars) vars block m key =
      (m.readConstraint key).map (m.transitTo vars block key) := by
  simp only [transitOf, Model.readConstraint]
  cases there : m.constraintAt (m.preimageOf key) with
  | error e => rfl
  | ok c =>
      have limited := Limits.ofConstraint?_of_plain (r := World.freeReading [m])
        (s := imageReading m vars) (fun _ => rfl) (wf.plainSides (Model.constraintAt_ok there))
      simp only [Except.mapError, bind, Except.bind, Model.mapped_eq_formOf images, limited]
      split
      · rfl
      · cases formed : m.formOf ("constraint " ++ m.nameOf (m.preimageOf key)) c.body with
        | error e => rfl
        | ok form =>
            have known := (Model.formOf_vars formed).2
            simp only [Except.map, pure, Except.pure,
              AffineForm.restrict_of_owned true (AffineForm.owned_rename images known)]
            cases Limits.ofConstraint? (World.freeReading [m]) c with
            | error e => rfl
            | ok limits =>
                rw [AffineForm.livesIn_rename images known]
                rfl

end BlockAngular
