import BlockAngular.Proofs.Decomposition.Reading

/-! # Soundness

In exact arithmetic a decomposition says what the model says. Values of the variables satisfy
the constraints of the model if and only if, carried over to the images, they satisfy the
constraints of the subproblems and, with the columns of the subproblems added, those of the
master. The value of the objective is that of the master's with the costs of the columns.
-/

namespace BlockAngular

open Decomposition

/-- Whether the constraint of a handle holds, with something more added to its body. -/
def Model.HoldsAt (w : World) (m : Model) (x : Handle → Rat) (more : Rat) (h : Handle) : Prop :=
  ∃ c, m.constraintOf? h = some c ∧ c.HoldsIn w x more

theorem Model.holdsAt_iff {w : World} {m : Model} {h : Handle} {c : Constraint}
    {form : AffineForm} {limits : Limits Float} (found : m.constraintOf? h = some c)
    (formed : c.body.formIn w = some form) (limited : Limits.ofConstraint? w.reading c = .ok limits)
    (x : Handle → Rat) (more : Rat) :
    m.HoldsAt w x more h ↔ limits.Holds (form.value x + more) := by
  constructor
  · rintro ⟨c', found', form', limits', formed', limited', holds⟩
    obtain rfl := Option.some.inj (found.symm.trans found')
    obtain rfl := Option.some.inj (formed.symm.trans formed')
    obtain rfl := Except.ok.inj (limited.symm.trans limited')
    exact holds
  · exact fun holds => ⟨c, found, form, limits, formed, limited, holds⟩

namespace Reformulation

/-- The values of the images, carried over from the variables. -/
def carry (r : Reformulation) (x : Handle → Rat) (image : Handle) : Rat :=
  ((r.vars.preimage? image).map x).getD 0

/-- Whether the constraints that are annotated with a subproblem speak of its variables only. -/
def separates (r : Reformulation) (m : Model) : Bool :=
  m.constraints.all fun (_, h) =>
    match r.constraints.owner? h with
    | some (.subproblem id) => ((m.constraintOf? h).bind (·.body.formIn [m])).all fun form =>
        form.vars.all fun v => (r.vars.owner? v).any (·.same (.subproblem id))
    | _ => true

/-- The result of a decomposition says the same as the model. -/
structure IsSound (r : Reformulation) (m : Model) (config : Config) : Prop where
  constraints : ∀ x, ∃ columns, r.subproblems.mapM (·.column (r.carry x)) = .ok columns ∧
    ((∀ key h, (key, h) ∈ m.constraints → m.HoldsAt [m] x 0 h) ↔
      (∀ s ∈ r.subproblems, ∀ key row, (key, row) ∈ s.model.allConstraints →
        s.model.HoldsAt r.world (r.carry x) 0 row) ∧
      ∀ key row, (key, row) ∈ ordinaryRows config .master r.master →
        r.master.HoldsAt r.world (r.carry x)
          (columns.map fun column => Pricing.Matrix.entry column row).sum row)
  objective : ∀ h o, m.objectiveInForce? = .ok (some (h, o)) → ∃ h' o' form form',
    r.master.objectiveInForce? = .ok (some (h', o')) ∧ o'.sense = o.sense ∧
      o.body.formIn [m] = some form ∧ o'.body.formIn r.world = some form' ∧
      ∀ x, ∃ costs, r.subproblems.mapM (·.cost (r.carry x)) = .ok costs ∧
        form.value x = form'.value (r.carry x) + costs.sum

namespace Trace

variable {first : Nat} {m : Model} {classify : Classify} {config : Config} {r : Reformulation}

/-- The form over the images is the expression's own with images for the variables. -/
theorem formIn_of_mapped (h : r.Trace first m classify config) {e : Expression} {context : String}
    {form : AffineForm}
    (mapped : e.mapped (imageReading m r.vars) r.vars.image? context = .ok form) :
    ∃ own, e.formIn [m] = some own ∧ form = own.rename (Expression.nameOf r.vars.image?) ∧
      (∀ v ∈ own.vars, ∃ target, r.vars.image? v = some target) ∧
        ∀ x, form.value (r.carry x) = own.value x := by
  obtain ⟨own, read, rfl, known⟩ := Expression.mapped_ok (h.vars_covers.faithful.renames m) mapped "expression"
  refine ⟨own, by simp [Expression.formIn, read, Except.toOption], rfl, known, fun x => ?_⟩
  refine AffineForm.value_rename fun v hv => ?_
  obtain ⟨target, found⟩ := known v hv
  simp [Expression.nameOf, carry, found, h.vars_covers.faithful.preimage?_image?.mpr found]

/-- The part of a form that a constraint keeps, read in a target. -/
theorem formIn_part {e : Expression} {context : String} {form : AffineForm}
    (mapped : e.mapped (imageReading m r.vars) r.vars.image? context = .ok form) (w : World)
    (block : Block) : ∃ part,
      (Expression.ofTerms form.constant
        (form.terms.filter fun term => r.vars.livesIn block term.1)).formIn w = some part ∧
      ∀ y, part.value y = Binary64.rational form.constant +
        AffineForm.total y (form.terms.filter fun term => r.vars.livesIn block term.1) := by
  have nodup : ((form.terms.filter fun term => r.vars.livesIn block term.1).map (·.1)).Nodup :=
    List.Nodup.sublist (List.filter_sublist.map _) (Expression.mapped_vars_nodup mapped)
  refine ⟨_, Expression.formIn_ofTerms w form.constant nodup, fun y => ?_⟩
  rw [AffineForm.value, AffineForm.total_filter_isZero, Expression.mapped_constant mapped]

/-- What a constraint of a target asks for, and what its preimage does: the same limits of the
part that stays and of the whole. -/
theorem constraint_moves (h : r.Trace first m classify config) (wf : m.WellFormed)
    {b : Block × Nat} {target : Model} (view : View r first m config b target) (hb : b ∈ numbered r.ids)
    {key : Key} {row : Handle} (listed : (key, row) ∈ ordinaryRows config b.1 target) :
    ∃ handle form, ∃ limits : Limits Float, (key, handle) ∈ m.constraints ∧
      r.constraints.image? handle = some row ∧ r.constraints.owner? handle = some b.1 ∧
      r.IsMappedBody m handle form ∧
      (∀ term ∈ form.terms, ∃ owner, r.vars.imageOwner? term.1 = some owner) ∧
      (∀ x, m.HoldsAt [m] x 0 handle ↔ limits.Holds (form.value (r.carry x))) ∧
      ∀ w y more, target.HoldsAt w y more row ↔ limits.Holds (Binary64.rational form.constant +
        AffineForm.total y (form.terms.filter fun term => r.vars.livesIn b.1 term.1) + more) := by
  obtain ⟨c, found, made⟩ := view.constraint key row listed
  obtain ⟨original, form, limits, there, mapped, limited, body, -, kept, owners⟩ :=
    imageConstraint_ok wf made
  rw [view.rows] at listed
  obtain ⟨own, he, -⟩ := h.constraints_covers.sound.mem_sliceOf.mp
    (Slice.mem_keys_of_mem_imagesIn listed)
  have declared : key ∈ m.constraintKeys := by
    rw [← (Model.assignment_keys h.assigned).2]
    exact List.mem_map_of_mem (f := (·.1)) he
  obtain ⟨⟨_, handle⟩, hc, rfl⟩ := List.mem_map.mp declared
  have image := h.constraints_covers.image?_eq hb listed
  have owner := h.constraints_covers.owner?_eq hb listed
  rw [Model.preimageOf_of_mem_constraints wf hc] at there mapped image owner
  obtain ⟨plain, formed, -, -, same⟩ := h.formIn_of_mapped mapped
  refine ⟨handle, form, limits, hc, image, owner, ⟨original, there, mapped⟩, owners, fun x => ?_,
    fun w y more => ?_⟩
  · rw [Model.holdsAt_iff there formed limited, add_zero, same]
  · obtain ⟨part, read, value⟩ := formIn_part (r := r) mapped w b.1
    rw [← body] at read
    rw [Model.holdsAt_iff found read (kept w.reading), Limits.settled_holds, value]

/-- In a constraint of a subproblem that speaks of its own variables, all terms stay. -/
theorem lives_of_separates (h : r.Trace first m classify config) (apart : r.separates m = true)
    {key : Key} {handle : Handle} (hc : (key, handle) ∈ m.constraints) {b : Block × Nat}
    (hb : b ∈ numbered r.ids) (subproblem : b.1 ≠ .master)
    (owned : r.constraints.owner? handle = some b.1) {form : AffineForm}
    (mapped : r.IsMappedBody m handle form) :
    ∀ term ∈ form.terms, r.vars.livesIn b.1 term.1 = true := by
  obtain ⟨original, there, read⟩ := mapped
  obtain ⟨own, formed, rfl, known, -⟩ := h.formIn_of_mapped read
  obtain ⟨block, number⟩ := b
  cases block with
  | master => exact absurd rfl subproblem
  | subproblem id =>
      have checked := List.all_eq_true.mp apart _ hc
      simp only [owned, there, formed, Option.bind_some, Option.all_some, List.all_eq_true,
        Option.any_eq_true] at checked
      intro term ht
      obtain ⟨⟨v, k⟩, hv, rfl⟩ := List.mem_map.mp ht
      have hv' : v ∈ own.vars := List.mem_map_of_mem (f := (·.1)) hv
      obtain ⟨owner, annotated, same⟩ := checked v hv'
      obtain ⟨target, found⟩ := known v hv'
      have faithful := h.vars_covers.faithful
      obtain ⟨e, he, rfl, rfl⟩ := faithful.owner?_iff.mp annotated
      obtain ⟨e', he', same', rfl⟩ := faithful.image?_iff.mp found
      obtain rfl := List.inj_on_of_nodup_map faithful.preimages_nodup he' he same'
      have imaged : r.vars.imageOwner? e'.image = some e'.block :=
        faithful.imageOwner?_iff.mpr ⟨e', he', rfl, rfl⟩
      simp [Expression.nameOf, found, Registry.livesIn, imaged, same]

theorem holds_subproblem (h : r.Trace first m classify config) (wf : m.WellFormed)
    (apart : r.separates m = true) {s : Subproblem} (hs : s ∈ r.subproblems) {key : Key}
    {row : Handle} (listed : (key, row) ∈ s.model.allConstraints) :
    ∃ handle, (key, handle) ∈ m.constraints ∧ r.constraints.image? handle = some row ∧
      ∀ x, m.HoldsAt [m] x 0 handle ↔ s.model.HoldsAt r.world (r.carry x) 0 row := by
  obtain ⟨number, hb, view⟩ := h.subproblem_numbered wf hs
  have ordinary : (key, row) ∈ ordinaryRows config (.subproblem s.id) s.model :=
    List.mem_filter.mpr ⟨listed, rfl⟩
  obtain ⟨handle, form, limits, hc, image, owner, mapped, -, before, after⟩ :=
    h.constraint_moves wf view hb ordinary
  refine ⟨handle, hc, image, fun x => ?_⟩
  have all := List.filter_eq_self.mpr (h.lives_of_separates apart hc hb (by simp) owner mapped)
  rw [before, after, all, add_zero]
  rfl

theorem holds_master (h : r.Trace first m classify config) (wf : m.WellFormed)
    {x : Handle → Rat} {columns : List (List (Handle × Rat))}
    (made : r.subproblems.mapM (·.column (r.carry x)) = .ok columns) {key : Key} {row : Handle}
    (listed : (key, row) ∈ ordinaryRows config .master r.master) :
    ∃ handle, (key, handle) ∈ m.constraints ∧ r.constraints.image? handle = some row ∧
      (m.HoldsAt [m] x 0 handle ↔ r.master.HoldsAt r.world (r.carry x)
        (columns.map fun column => Pricing.Matrix.entry column row).sum row) := by
  obtain ⟨handle, form, limits, hc, image, owner, mapped, owners, before, after⟩ :=
    h.constraint_moves wf (h.master_view wf) (master_numbered r.ids) listed
  refine ⟨handle, hc, image, ?_⟩
  obtain ⟨t, ht, rfl, rfl⟩ := h.exists_transfer image owner
  obtain rfl : t.form = form := by
    obtain ⟨original, there, read⟩ := (h.of_mem_masterTransfers ht).2.1
    obtain ⟨original', there', read'⟩ := mapped
    obtain rfl := Option.some.inj (there.symm.trans there')
    exact Except.ok.inj (read.symm.trans read')
  -- a column has the share of its subproblem, so that the columns make up for what was left out
  have entries : columns.map (fun column => Pricing.Matrix.entry column t.image) =
      r.subproblems.map fun s => AffineForm.total (r.carry x)
        (t.form.terms.filter fun term => r.vars.livesIn (.subproblem s.id) term.1) := by
    have listed : List.Forall₂ (· = ·)
        (columns.map fun column => Pricing.Matrix.entry column t.image)
        (r.subproblems.map fun s => AffineForm.total (r.carry x)
          (t.form.terms.filter fun term => r.vars.livesIn (.subproblem s.id) term.1)) := by
      rw [List.forall₂_map_left_iff, List.forall₂_map_right_iff]
      refine ((List.forall₂_and_left _ _).mpr
        ⟨fun s hs => hs, Success.mapM_ok.mp made⟩).flip.imp fun column s ⟨hs, own⟩ => ?_
      obtain ⟨column', made', entry⟩ := h.column_ok hs (r.carry x)
      obtain rfl := Except.ok.inj (own.symm.trans made')
      exact entry t ht
    rwa [List.forall₂_eq_eq_eq] at listed
  rw [before, after, entries, AffineForm.value, h.total_shares owners, add_assoc]

/-- A declared constraint has its image in some target. -/
theorem exists_row (h : r.Trace first m classify config) (wf : m.WellFormed) {key : Key}
    {handle : Handle} (hc : (key, handle) ∈ m.constraints) : ∃ block target row,
      (block, target) ∈ r.targets ∧ (key, row) ∈ ordinaryRows config block target ∧
        r.constraints.image? handle = some row := by
  obtain ⟨own, mark, b, _, image, -, -, hb, -, -, view, listed, mapped, -⟩ :=
    h.image_of_constraint wf hc
  obtain ⟨target, ht, view'⟩ := h.exists_target wf hb
  rw [view.rows, ← view'.rows] at listed
  exact ⟨b.1, target, image, ht, listed, mapped⟩

theorem mem_targets {block : Block} {target : Model} (h : (block, target) ∈ r.targets) :
    block = .master ∧ target = r.master ∨
      ∃ s ∈ r.subproblems, block = .subproblem s.id ∧ target = s.model := by
  rcases List.mem_cons.mp h with equal | listed
  · exact .inl (Prod.mk.inj equal)
  · obtain ⟨s, hs, equal⟩ := List.mem_map.mp listed
    exact .inr ⟨s, hs, (Prod.mk.inj equal).1.symm, (Prod.mk.inj equal).2.symm⟩

/-- The values that satisfy the model are those that satisfy its parts. -/
theorem constraints_hold (h : r.Trace first m classify config) (wf : m.WellFormed)
    (apart : r.separates m = true) {x : Handle → Rat} {columns : List (List (Handle × Rat))}
    (made : r.subproblems.mapM (·.column (r.carry x)) = .ok columns) :
    (∀ key h, (key, h) ∈ m.constraints → m.HoldsAt [m] x 0 h) ↔
      (∀ s ∈ r.subproblems, ∀ key row, (key, row) ∈ s.model.allConstraints →
        s.model.HoldsAt r.world (r.carry x) 0 row) ∧
      ∀ key row, (key, row) ∈ ordinaryRows config .master r.master →
        r.master.HoldsAt r.world (r.carry x)
          (columns.map fun column => Pricing.Matrix.entry column row).sum row := by
  constructor
  · intro holds
    refine ⟨fun s hs key row listed => ?_, fun key row listed => ?_⟩
    · obtain ⟨handle, hc, -, same⟩ := h.holds_subproblem wf apart hs listed
      exact (same x).mp (holds key handle hc)
    · obtain ⟨handle, hc, -, same⟩ := h.holds_master wf made listed
      exact same.mp (holds key handle hc)
  · rintro ⟨ofSubproblems, ofMaster⟩ key handle hc
    obtain ⟨block, target, row, ht, listed, image⟩ := h.exists_row wf hc
    have injective : ∀ {other}, r.constraints.image? other = some row → other = handle :=
      fun found => h.constraints_covers.faithful.image?_injective found image
    rcases mem_targets ht with ⟨rfl, rfl⟩ | ⟨s, hs, rfl, rfl⟩
    · obtain ⟨handle', -, image', same⟩ := h.holds_master wf made listed
      rw [← injective image']
      exact same.mpr (ofMaster key row listed)
    · have listed := (List.mem_filter.mp listed).1
      obtain ⟨handle', -, image', same⟩ := h.holds_subproblem wf apart hs listed
      rw [← injective image']
      exact (same x).mpr (ofSubproblems s hs key row listed)

/-- The master has its part of the objective, and no other objective. -/
theorem master_objective (h : r.Trace first m classify config) {o : MappedObjective}
    (ho : r.objective = some o) : ∃ handle, r.master.objectiveInForce? = .ok (some
      (handle, ⟨(o.form.objectivePart r.vars .master).toExpression, o.sense, true⟩)) := by
  obtain ⟨⟨_, number⟩, -, rfl, shape⟩ := (exists_of_forall₂ h.outlined).2 (.master, r.master)
    List.mem_cons_self
  obtain ⟨label, named⟩ := h.named o ho
  have variables_goals : ((variableContents r.partition m .master).flatMap fun c =>
      c.2.goals (first + number) c.1) = [] := by
    simp [variableContents, List.flatMap_map, Content.goals, Model.variableContent]
  have constraints_goals : ((constraintContents r.partition r.vars m .master).flatMap fun c =>
      c.2.goals (first + number) c.1) = [] := by
    simp [constraintContents, List.flatMap_map, Content.goals, constraintContent]
  have convexity_goals : ((convexityContents config r.ids .master).flatMap fun c =>
      c.2.goals (first + number) c.1) = [] := by
    unfold convexityContents
    split
    · split <;> simp [Content.goals]
    · rfl
  have goals : r.master.activeObjectives = [(⟨first + number, label, 0⟩,
      ⟨(o.form.objectivePart r.vars .master).toExpression, o.sense, true⟩)] := by
    rw [shape.activeObjectives_eq, Reformulation.contentsOf]
    simp only [List.flatMap_append, variables_goals, constraints_goals, convexity_goals]
    simp [objectiveContents, ho, named, Content.goals, Family.optional, Family.present]
  refine ⟨⟨first + number, label, 0⟩, ?_⟩
  simp only [Model.objectiveInForce?, goals]

end Trace

end Reformulation

namespace Decomposition

/-- A decomposition is sound. -/
theorem isSound {first : Nat} {m : Model} {classify : Classify} {config : Config}
    {r : Reformulation} (wf : m.WellFormed) (h : decompose first m classify config = .ok r)
    (apart : r.separates m = true) : r.IsSound m config := by
  have trace := decompose_trace wf h
  refine ⟨fun x => ?_, fun handle o inForce => ?_⟩
  · obtain ⟨columns, made⟩ := Success.exists_mapM_ok (f := (·.column (r.carry x))) fun s hs =>
      (trace.column_ok hs (r.carry x)).imp fun _ both => both.1
    exact ⟨columns, made, trace.constraints_hold wf apart made⟩
  · obtain ⟨own, inForce', mappedAll⟩ := trace.objective
    obtain rfl := Except.ok.inj (inForce.symm.trans inForce')
    simp only [mapObjective, Success.bind_ok, Success.pure_ok] at mappedAll
    obtain ⟨form, mapped, ho⟩ := mappedAll
    obtain ⟨handle', found⟩ := trace.master_objective ho.symm
    obtain ⟨plain, formed, -, -, same⟩ := trace.formIn_of_mapped mapped
    obtain ⟨part, read, value⟩ := Reformulation.Trace.formIn_part (r := r) mapped r.world .master
    have nodup := Expression.mapped_vars_nodup mapped
    refine ⟨handle', _, plain, part, found, rfl, formed, read, fun x => ?_⟩
    refine ⟨r.subproblems.map fun s => AffineForm.total (r.carry x)
      (form.terms.filter fun term => r.vars.livesIn (.subproblem s.id) term.1), ?_, ?_⟩
    · rw [Success.mapM_ok, List.forall₂_map_right_iff]
      exact List.forall₂_same.mpr fun s hs => trace.cost_ok hs ho.symm nodup (r.carry x)
    · rw [← same, value, AffineForm.value,
        trace.total_shares (trace.objective_owned ho.symm nodup), add_assoc]

end Decomposition

/-- The constraint of the subproblem is about its own variable. -/
theorem twoColumns_separates : ∃ r, Decomposition.decompose 1 twoColumns firstApart .standard = .ok r ∧
    r.separates twoColumns = true := by
  obtain ⟨r, h, apart⟩ := exists_of_toOption_bind (b := true)
    (f := fun r => some (Reformulation.separates r twoColumns))
    (x := Decomposition.decompose 1 twoColumns firstApart .standard) (by decide +kernel)
  exact ⟨r, h, Option.some.inj apart⟩

theorem twoColumns_isSound : twoColumns.WellFormed ∧
    ∃ r, Decomposition.decompose 1 twoColumns firstApart .standard = .ok r ∧
      r.separates twoColumns = true ∧ r.IsSound twoColumns .standard := by
  obtain ⟨r, h, apart⟩ := twoColumns_separates
  exact ⟨twoColumns_wellFormed, r, h, apart, Decomposition.isSound twoColumns_wellFormed h apart⟩

end BlockAngular
