import BlockAngular.Proofs.Decomposition.ConstraintMapping
import BlockAngular.Proofs.Decomposition.Fidelity
import BlockAngular.Proofs.Decomposition.Reading
import BlockAngular.Proofs.Number.Binary64

/-! # What is read back

A form that is read off an expression has no coefficient of zero and no negative zero for its
constant. So the expression that is written for it is read as the same form again. The limits of a
constraint and the bounds of a variable that were settled once stay as they are, too.
-/

namespace BlockAngular

namespace AffineForm

/-- A form as it is read off an expression. -/
structure IsReduced (form : AffineForm) : Prop where
  constant : Collected.plainZero form.constant = form.constant
  coefficients : ∀ term ∈ form.terms, Binary64.isZero term.2 = false

end AffineForm

namespace Collected

theorem doubles_nonzero {terms : List (Handle × Numeric)} {out : List (Handle × Float)}
    (h : doubles terms = .ok out) (nonzero : ∀ term ∈ terms, term.2.isZero = false) :
    ∀ term ∈ out, Binary64.isZero term.2 = false := by
  induction terms generalizing out with
  | nil =>
      cases h
      simp
  | cons term rest ih =>
      obtain ⟨v, x⟩ := term
      simp only [doubles, Success.bind_ok, Success.pure_ok] at h
      obtain ⟨y, read, others, listed, rfl⟩ := h
      obtain ⟨first, later⟩ := List.forall_mem_cons.mp nonzero
      exact List.forall_mem_cons.mpr ⟨Numeric.isZero_of_real first read, ih listed later⟩

theorem form?_nonzero {c : Collected} {form : AffineForm} (h : c.form? = .ok (some form)) :
    ∀ term ∈ form.terms, Binary64.isZero term.2 = false := by
  simp only [form?] at h
  split at h
  · simp only [Success.bind_ok, Success.pure_ok, Option.some.injEq] at h
    obtain ⟨terms, listed, _, -, rfl⟩ := h
    exact doubles_nonzero listed fun term ht => by simpa using (List.mem_filter.mp ht).2
  · cases h

end Collected

namespace Expression

theorem affine?_nonzero {r : Reading} {e : Expression} {form : AffineForm}
    (h : e.affine? r = .ok (some form)) : ∀ term ∈ form.terms, Binary64.isZero term.2 = false := by
  unfold affine? at h
  split at h
  · split at h
    · simp only [Success.bind_ok, Success.pure_ok, Option.some.injEq] at h
      obtain ⟨_, -, rfl⟩ := h
      simp
    · simp only [Success.bind_ok] at h
      obtain ⟨c, -, formed⟩ := h
      exact Collected.form?_nonzero formed
  · simp only [Success.bind_ok] at h
    obtain ⟨c, -, formed⟩ := h
    exact Collected.form?_nonzero formed

theorem mapped_isReduced {r : Reading} {image : Handle → Option Handle} {context : String}
    {e : Expression} {form : AffineForm} (h : e.mapped r image context = .ok form) :
    form.IsReduced := by
  refine ⟨mapped_constant h, ?_⟩
  unfold mapped at h
  split at h
  · exact affine?_nonzero (affine_ok h)
  · cases h

/-- What comes out does not depend on what an expression is called in messages. -/
theorem mapped_of_ok {r : Reading} {image : Handle → Option Handle} {context : String}
    {e : Expression} {form : AffineForm} (h : e.mapped r image context = .ok form) (own : String) :
    e.mapped r image own = .ok form := by
  unfold mapped at h ⊢
  split at h
  · simp only [affine, affine_ok h]
  · cases h

end Expression

/-- A form over declared variables that is written down is read as it is. -/
theorem Model.formOf_toExpression {m : Model} {form : AffineForm} (reduced : form.IsReduced)
    (nodup : form.vars.Nodup) (declared : ∀ v ∈ form.vars, v ∈ m.vars.map (·.2))
    (context : String) : m.formOf context form.toExpression = .ok form := by
  have known : Expression.unknown? m.itself? form.toExpression.vars = none := by
    refine Expression.unknown?_eq_none.mpr fun v hv => ⟨v, ?_⟩
    have listed : v ∈ form.vars := by
      simpa [AffineForm.toExpression, Expression.ofTerms, Expression.vars, AffineForm.vars] using hv
    simp [itself?, declared v listed]
  have kept : form.terms.filter (fun term => !Binary64.isZero term.2) = form.terms :=
    List.filter_eq_self.mpr fun term ht => by simp [reduced.coefficients term ht]
  have read : form.toExpression.mapped (World.freeReading [m]) some "expression" = .ok form := by
    refine Success.toOption_eq_some.mp ((Expression.formIn_ofTerms [m] form.constant nodup).trans ?_)
    rw [reduced.constant]
    exact congrArg (fun terms => some (AffineForm.mk form.constant terms)) kept
  rw [formOf_eq, known]
  exact Expression.mapped_of_ok read context

namespace Model

variable {m : Model} {key : Key}

theorem constraintAt_of_constraintOf? {h : Handle} {c : Constraint}
    (there : m.constraintOf? h = some c) : m.constraintAt h = .ok c := by
  unfold constraintOf? at there
  unfold constraintAt
  split at there
  · rename_i content
    simp only [content, there]
  · cases there

/-- What is read of a constraint: the form of its body and its limits, if its index can be
written. -/
theorem readConstraint_ok {read : AffineForm × Limits Float} :
    m.readConstraint key = .ok read ↔ ∃ c, m.constraintOf? (m.preimageOf key) = some c ∧
      (m.indexOf (m.preimageOf key)).isWritable = true ∧
      m.formOf ("constraint " ++ m.nameOf (m.preimageOf key)) c.body = .ok read.1 ∧
      Limits.ofConstraint? (World.freeReading [m]) c = .ok read.2 := by
  simp only [readConstraint, Success.bind_ok, Success.mapError_ok]
  constructor
  · rintro ⟨c, there, h⟩
    split at h
    · simp at h
    · rename_i writable
      simp only [Success.bind_ok, Success.mapError_ok, Success.pure_ok] at h
      obtain ⟨form, formed, limits, limited, rfl⟩ := h
      exact ⟨c, constraintAt_ok there, by simpa using writable, formed, limited⟩
  · rintro ⟨c, there, writable, formed, limited⟩
    refine ⟨c, constraintAt_of_constraintOf? there, ?_⟩
    simp [writable, formed, limited, Except.mapError, bind, Except.bind, pure, Except.pure]

/-- The index of the element of a key is that of the key. -/
theorem Declares.indexOf (wf : m.WellFormed) (h : m.Declares key) :
    m.indexOf (m.preimageOf key) = Value.ofIndex key.index := by
  obtain ⟨c, index, position, there, rfl⟩ := h
  have found := there.element wf.names_nodup (wf.contents c there.component)
  obtain ⟨-, flat⟩ := (wf.contents c there.component).entries
  have isIndex := flat index (List.mem_map_of_mem (f := (·.1)) (List.mem_of_getElem? there.entry))
  simp only [preimageOf, found, Except.toOption, Option.getD_some, isIndex.ofIndex_toIndex]
  exact there.indexOf wf.names_nodup

end Model

namespace Limits

theorem settled_settled (limits : Limits Float) : limits.settled.settled = limits.settled := by
  by_cases point : limits.isPoint = true
  · refine settled_of_not_isPoint ?_
    rw [settled, if_pos point]
    unfold isPoint
    split <;> simp_all
  · have range : limits.settled = limits := settled_of_not_isPoint (by simpa using point)
    rw [range, range]

/-- A constraint that is read with settled limits has kept the limits unless they are those of a
range between equal numbers. -/
theorem kept_iff {limits : Limits Float} {c : Constraint}
    (settled : ∀ reading, ofConstraint? reading c = .ok limits.settled) :
    (∀ reading, ofConstraint? reading c = .ok limits) ↔ limits.isPoint = false := by
  constructor
  · intro kept
    by_contra point
    have equal := (kept (World.reading [])).symm.trans (settled (World.reading []))
    exact settled_ne_of_isPoint (by simpa using point) (Except.ok.inj equal).symm
  · intro range reading
    rw [settled reading, settled_of_not_isPoint range]

end Limits

/-- A variable with its effective bounds stays as it is. -/
theorem Variable.bounded?_of_bounded {v w : Variable} (h : v.bounded? = .ok w) :
    w.bounded? = .ok w := by
  obtain ⟨lower, upper⟩ := bounds_of_bounded h
  simp only [bounded?, Success.bind_ok, Success.pure_ok] at h
  obtain ⟨_, hlower, _, hupper, rfl⟩ := h
  simp [bounded?, lower, upper, hlower, hupper, bind, Except.bind, pure, Except.pure]

end BlockAngular
