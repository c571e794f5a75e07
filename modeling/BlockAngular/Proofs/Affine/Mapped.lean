import BlockAngular.Proofs.Affine.Rename

/-! # Forms over images

Substituting images is refused for the first variable without an image, and else it renames
the variables. So the form over images is, error for error, that of the expression over the
variables that have images, with other names.
-/

namespace BlockAngular

namespace AffineForm

@[simp] theorem vars_rename (g : Handle → Handle) (form : AffineForm) :
    (form.rename g).vars = form.vars.map g := by
  simp [vars, rename, Function.comp_def]

@[simp] theorem rename_self (form : AffineForm) : form.rename (fun h => h) = form := by
  simp [rename]

end AffineForm

namespace Expression

variable {image : Handle → Option Handle}

/-- The first variable without an image. -/
def unknown? (image : Handle → Option Handle) (vars : List Handle) : Option Handle :=
  vars.find? fun h => (image h).isNone

@[simp] theorem unknown?_append (vars more : List Handle) :
    unknown? image (vars ++ more) = (unknown? image vars).or (unknown? image more) :=
  List.find?_append

theorem unknown?_eq_none {vars : List Handle} :
    unknown? image vars = none ↔ ∀ h ∈ vars, ∃ target, image h = some target := by
  simp [unknown?, Option.ne_none_iff_exists']

/-- The outcome of a substitution that meets some variables in their order. -/
def refusal (unknown : Option Handle) : Except Handle Unit :=
  match unknown with
  | some h => .error h
  | none => .ok ()

theorem bind_refusal {α β γ : Type} {x : Except Handle α} {y : Except Handle β}
    {a b : Option Handle} (f : α → β → γ) (hx : (x.map fun _ => ()) = refusal a)
    (hy : (y.map fun _ => ()) = refusal b) :
    ((do return f (← x) (← y) : Except Handle γ).map fun _ => ()) = refusal (a.or b) := by
  cases x <;> cases y <;> cases a <;> cases b <;>
    simp_all [refusal, Except.map, bind, Except.bind, pure, Except.pure]

theorem map_refusal {α β : Type} {x : Except Handle α} {a : Option Handle} (f : α → β)
    (hx : (x.map fun _ => ()) = refusal a) :
    ((do return f (← x) : Except Handle β).map fun _ => ()) = refusal a := by
  rw [← hx]
  cases x <;> rfl

theorem substituteTerms_refusal (terms : List (Handle × Numeric)) :
    ((substituteTerms image terms).map fun _ => ()) =
      refusal (unknown? image (terms.map (·.1))) := by
  induction terms with
  | nil => rfl
  | cons term rest ih =>
      obtain ⟨h, k⟩ := term
      cases found : image h with
      | none => simp [substituteTerms, found, unknown?, refusal, Except.map]
      | some target =>
          simp only [substituteTerms, found, List.map_cons, unknown?, List.find?_cons,
            Option.isNone_some]
          exact map_refusal _ ih

mutual

/-- The variables are met from left to right. -/
theorem substitute_refusal (e : Expression) :
    ((e.substitute image).map fun _ => ()) = refusal (unknown? image e.vars) := by
  cases e with
  | number | parameter => rfl
  | «variable» h => cases found : image h <;> simp [substitute, vars, found, unknown?, refusal, Except.map]
  | sum parts => exact map_refusal _ (substituteAll_refusal parts)
  | sub a b | mul a b | div a b | pow a b =>
      rw [vars, unknown?_append]
      exact bind_refusal _ (substitute_refusal a) (substitute_refusal b)
  | neg a | function _ a => exact map_refusal _ (substitute_refusal a)
  | linear constant terms => exact map_refusal _ (substituteTerms_refusal terms)
  | named name body => exact substitute_refusal body
termination_by sizeOf e

theorem substituteAll_refusal (parts : List Expression) :
    ((substituteAll image parts).map fun _ => ()) = refusal (unknown? image (varsOfAll parts)) := by
  cases parts with
  | nil => rfl
  | cons part rest =>
      rw [varsOfAll, unknown?_append]
      exact bind_refusal _ (substitute_refusal part) (substituteAll_refusal rest)
termination_by sizeOf parts

end

theorem substituteTerms_rename (g : Handle → Handle) (image : Handle → Option Handle)
    (terms : List (Handle × Numeric)) :
    substituteTerms image (terms.map fun term => (g term.1, term.2)) =
      (substituteTerms (fun h => image (g h)) terms).mapError g := by
  induction terms with
  | nil => rfl
  | cons term rest ih =>
      obtain ⟨h, k⟩ := term
      simp only [List.map_cons, substituteTerms, ih]
      cases image (g h) with
      | none => rfl
      | some target => cases substituteTerms (fun h => image (g h)) rest <;> rfl

mutual

/-- Substituting for new names finds the images of the new names. -/
theorem substitute_rename (g : Handle → Handle) (image : Handle → Option Handle) (e : Expression) :
    (e.rename g).substitute image = (e.substitute fun h => image (g h)).mapError g := by
  cases e with
  | number | parameter => rfl
  | «variable» h =>
      rw [rename, substitute, substitute]
      cases image (g h) <;> rfl
  | sum parts =>
      rw [rename, substitute, substitute, substituteAll_rename g image parts]
      cases substituteAll (fun h => image (g h)) parts <;> rfl
  | sub a b | mul a b | div a b | pow a b =>
      rw [rename, substitute, substitute, substitute_rename g image a, substitute_rename g image b]
      cases a.substitute fun h => image (g h) <;> cases b.substitute fun h => image (g h) <;> rfl
  | neg a | function _ a =>
      rw [rename, substitute, substitute, substitute_rename g image a]
      cases a.substitute fun h => image (g h) <;> rfl
  | linear constant terms =>
      rw [rename, substitute, substitute, substituteTerms_rename g image terms]
      cases substituteTerms (fun h => image (g h)) terms <;> rfl
  | named name body => exact substitute_rename g image body
termination_by sizeOf e

theorem substituteAll_rename (g : Handle → Handle) (image : Handle → Option Handle)
    (parts : List Expression) : substituteAll image (renameAll g parts) =
      (substituteAll (fun h => image (g h)) parts).mapError g := by
  cases parts with
  | nil => rfl
  | cons part rest =>
      rw [renameAll, substituteAll, substituteAll, substitute_rename g image part,
        substituteAll_rename g image rest]
      cases part.substitute fun h => image (g h) <;>
        cases substituteAll (fun h => image (g h)) rest <;> rfl
termination_by sizeOf parts

end

/-- The form over images, with the errors. -/
theorem mapped_eq {r s : Reading}
    (names : Collected.Renaming r (nameOf image) (fun h => ∃ target, image h = some target) s)
    (e : Expression) (context : String) :
    e.mapped s image context = match unknown? image e.vars with
      | some h => .error (.inconsistent (.noImage h context))
      | none => (e.mapped r some context).map (AffineForm.rename (nameOf image)) := by
  have refused : ((e.substitute image).map fun _ => ()) = refusal (unknown? image e.vars) :=
    substitute_refusal e
  cases substituted : e.substitute image with
  | error h =>
      rw [substituted] at refused
      cases unknown : unknown? image e.vars with
      | none => simp [unknown, refusal, Except.map] at refused
      | some h' =>
          simp only [unknown, refusal, Except.map, Except.error.injEq] at refused
          simp [mapped, substituted, refused]
  | ok overImages =>
      rw [substituted] at refused
      obtain ⟨plain, dissolved, rfl, known⟩ := substitute_ok substituted
      cases unknown : unknown? image e.vars with
      | some h' => simp [unknown, refusal, Except.map] at refused
      | none =>
          simp only [mapped, substituted, dissolved, affine, affine?_rename names known]
          cases plain.affine? r with
          | error e => rfl
          | ok form? => cases form? <;> rfl

end Expression

end BlockAngular
