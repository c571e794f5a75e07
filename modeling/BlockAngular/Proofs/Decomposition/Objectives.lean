import BlockAngular.Decomposition.Reformulation
import BlockAngular.Proofs.Model.Declare
import BlockAngular.Proofs.Registry

/-! # Parts of a form

The part of a form that belongs to a block has the terms whose images live there, in
their order. An objective is declared in every block with the part that belongs to it.
-/

namespace BlockAngular

namespace Registry

/-- Whether an image lives in a block. -/
def livesIn (r : Registry) (block : Block) (image : Handle) : Bool :=
  (r.imageOwner? image).any fun owner => owner.same block

end Registry

namespace AffineForm

variable {registry : Registry} {block : Block}

theorem termsOf_ok {terms kept : List (Handle × Float)}
    (h : termsOf registry block terms = .ok kept) :
    kept = terms.filter (fun e => registry.livesIn block e.1) ∧
      ∀ e ∈ terms, ∃ owner, registry.imageOwner? e.1 = some owner := by
  induction terms generalizing kept with
  | nil =>
      obtain rfl := Except.ok.inj h
      exact ⟨rfl, by simp⟩
  | cons e rest ih =>
      obtain ⟨image, k⟩ := e
      simp only [termsOf, Success.bind_ok, Success.pure_ok, Registry.imageOwner_ok] at h
      obtain ⟨owner, owned, keptRest, others, rfl⟩ := h
      obtain ⟨rfl, owners⟩ := ih others
      refine ⟨?_, List.forall_mem_cons.mpr ⟨⟨owner, owned⟩, owners⟩⟩
      by_cases same : owner.same block = true <;> simp [Registry.livesIn, owned, same]

/-- The part of a form that belongs to a block. -/
theorem restrict_ok {keepConstant : Bool} {form part : AffineForm}
    (h : form.restrict registry block keepConstant = .ok part) :
    part = ⟨if keepConstant then form.constant else 0.0,
        form.terms.filter fun e => registry.livesIn block e.1⟩ ∧
      ∀ e ∈ form.terms, ∃ owner, registry.imageOwner? e.1 = some owner := by
  simp only [restrict, Success.bind_ok, Success.pure_ok] at h
  obtain ⟨kept, terms, rfl⟩ := h
  obtain ⟨rfl, owners⟩ := termsOf_ok terms
  exact ⟨rfl, owners⟩

/-- The part of an objective that belongs to a block; the constant stays with the master. -/
def objectivePart (registry : Registry) (block : Block) (form : AffineForm) : AffineForm :=
  ⟨if block.isMaster then form.constant else 0.0,
    form.terms.filter fun e => registry.livesIn block e.1⟩

end AffineForm

/-- Declaring the part of an objective in the model of a block. -/
theorem registerObjective_ok {vars : Registry} {block : Block} {name : Value} {sense : Sense}
    {form part : AffineForm} {target target' : Model}
    (h : registerObjective vars block name sense form block.isMaster target = .ok part target') :
    part = form.objectivePart vars block ∧
      (∀ e ∈ form.terms, ∃ owner, vars.imageOwner? e.1 = some owner) ∧
      ∃ label, name = .str label ∧ label ∉ target.names ∧
        target' = target.append ⟨label, .objectives true
          (Family.optional (some ⟨part.toExpression, sense, true⟩)), []⟩ := by
  simp only [registerObjective, Stage.bind_ok, Stage.ofExcept_ok, Stage.ofFault_ok,
    Stage.pure_ok] at h
  obtain ⟨part', _, ⟨restricted, rfl⟩, label, _, ⟨named, rfl⟩, _, _, added, rfl, rfl⟩ := h
  obtain ⟨rfl, owners⟩ := AffineForm.restrict_ok restricted
  obtain ⟨fresh, rfl⟩ := Model.addObjectiveOf_ok added
  refine ⟨rfl, owners, label, ?_, fresh, rfl⟩
  cases name <;> simp_all [Config.asName]

end BlockAngular
