import BlockAngular.Model.Adjust
import BlockAngular.Proofs.Invariant
import BlockAngular.Proofs.Model.Regular

/-! # Declared models are regular

A model comes about by declarations, and by changes of what is declared. Every one of these
edits keeps it regular, also one that fails on the way. So every model that can be built is
regular.
-/

namespace BlockAngular

namespace Model

open Stage (Keeps)

variable {find : Lookup Model} {name : String}

theorem declare_keeps {content : Content} {recipes : List Recipe} (regular : content.Regular)
    (plain : ∀ recipe ∈ recipes, recipe.HasPlainSides) :
    Keeps Declared (declare name content recipes) :=
  .bind .get fun _ declared => .bind .ofFault fun _ added => .set (declared.add regular plain added)

/-- An element is made from what its component keeps, or from a relation, which has plain sides
when it comes out. -/
theorem make_keeps (found : find.Keeps Declared) (h : Handle) : Keeps Declared (make find h) := by
  refine .bind .get fun m declared => ?_
  split
  · exact .pure trivial
  · exact .pure trivial
  · refine .bind (.modify fun _ later => later.putVariable _) fun _ _ => ?_
    split
    · exact .throw
    · exact .pure trivial
  · refine .bind (Relation.statement_keeps found _) fun _ _ => .bind .ofFault fun _ made => ?_
    exact .modify fun _ later => later.putConstraint (Statement.constraint_plainSides made)
  · rename_i row kept
    refine .bind .ofFault fun c made => ?_
    have plain : c.HasPlainSides := by
      obtain ⟨component, there, listed⟩ := Option.bind_eq_some_iff.mp kept
      subst made
      exact declared.recipes component (List.mem_of_find?_eq_some there) _ (List.mem_of_getElem? listed)
    exact .modify fun _ later => later.putConstraint plain
  · refine .bind (Formula.operand_keeps found _) fun _ _ => .bind .ofFault fun _ _ => ?_
    split
    · exact .modify fun _ later => later.putObjective _
    · exact .pure trivial

theorem lookupBy_keeps {settle : Handle → Stage Model Unit} (settled : ∀ h, Keeps Declared (settle h)) :
    (lookupBy settle).Keeps Declared where
  element _ := .bind .get fun _ _ => .bind .ofExcept fun h _ => .bind (settled h) fun _ _ =>
    .bind .get fun _ _ => .pure trivial
  component _ := .bind .get fun _ _ => .pure trivial

/-- However many elements are under way, by induction on their bound. -/
theorem settleWithin_keeps (bound : Nat) (h : Handle) : Keeps Declared (settleWithin bound h) := by
  induction bound generalizing h with
  | zero =>
      refine .bind .get fun m _ => ?_
      split
      · exact .throw
      · exact .pure trivial
  | succ bound ih =>
      refine .bind .get fun m _ => ?_
      split
      · refine .bind (make_keeps (lookupBy_keeps ih) h) fun _ _ => .bind .get fun m _ => ?_
        split
        · exact .throw
        · exact .pure trivial
      · exact .pure trivial

theorem settle_keeps (h : Handle) : Keeps Declared (settle h) :=
  .bind .get fun _ _ => settleWithin_keeps _ h

theorem lookup_keeps : lookup.Keeps Declared :=
  lookupBy_keeps settle_keeps

theorem makeAt_keeps (position : Nat) : Keeps Declared (makeAt name position) := by
  refine .bind .get fun m _ => ?_
  dsimp only
  split
  · exact make_keeps lookup_keeps _
  · exact .pure trivial

theorem makeAll_keeps (count : Nat) : Keeps Declared (makeAll name count) :=
  .forM fun position _ => makeAt_keeps position

theorem addVariables_keeps {rows : Option (List (List Value))} (steady : ∀ rs ∈ rows, Family.Steady rs)
    (v : Variable) : Keeps Declared (addVariables name rows v) := by
  have rest (shape : Family Unit) (regular : shape.Regular) : Keeps Declared (do
      let recipes := shape.elements.map fun element => v.recipe element.1
      declare name (.vars shape.cleared) recipes
      v.value.givenKeys.forM fun key => do
        makeAt name (← Stage.ofFault (shape.keyPosition key))
      makeAll name recipes.length) := by
    have plain : ∀ recipe ∈ shape.elements.map fun element => v.recipe element.1,
        recipe.HasPlainSides := by
      intro recipe listed
      obtain ⟨element, -, rfl⟩ := List.mem_map.mp listed
      exact v.recipe_plainSides _
    refine .bind (declare_keeps (regular.of_indices rfl (by simp)) plain) fun _ _ => ?_
    exact .bind (.forM fun key _ => .bind .ofFault fun position _ => makeAt_keeps position)
      fun _ _ => makeAll_keeps _
  cases rows with
  | none => exact rest _ (Family.optional_regular (some ()))
  | some rows =>
      refine .bind .ofFault fun shape made => rest shape (Family.ofRows?_regular made ?_)
      simpa [Function.comp_def] using steady rows rfl

theorem addStatement_keeps (statement : Option Statement) :
    Keeps Declared (addStatement name statement) := by
  have regular : (Content.constraints true (Family.optional none)).Regular :=
    ⟨Family.optional_regular none, by simp [Family.optional]⟩
  refine .bind (declare_keeps regular (by simp)) fun _ _ => ?_
  cases statement with
  | none => exact .pure trivial
  | some statement =>
      exact .bind .ofFault fun c made => .modify fun m declared =>
        declared.putConstraint (Statement.constraint_plainSides made)

theorem addConstraint_keeps (relation : Option Relation) :
    Keeps Declared (addConstraint name relation) := by
  cases relation with
  | none => exact addStatement_keeps none
  | some relation =>
      exact .bind (Relation.statement_keeps lookup_keeps relation) fun _ _ => addStatement_keeps _

theorem addConstraints_keeps {rows : List (List Value × Recipe)} (steady : Family.Steady (rows.map (·.1)))
    (plain : ∀ row ∈ rows, row.2.HasPlainSides) : Keeps Declared (addConstraints name rows) := by
  refine .bind .ofFault fun family made => ?_
  have recipes : ∀ recipe ∈ family.elements.filterMap (·.2), recipe.HasPlainSides := by
    intro recipe listed
    obtain ⟨element, he, there⟩ := List.mem_filterMap.mp listed
    exact Family.forall_ofRows? made plain element he recipe there
  have regular : (Content.constraints true (family.cleared : Family Constraint)).Regular := by
    refine ⟨(Family.ofRows?_regular made steady).of_indices rfl (by simp), fun element he => ?_⟩
    obtain ⟨own, -, rfl⟩ := List.mem_map.mp he
    simp
  exact .bind (declare_keeps regular recipes) fun _ _ => makeAll_keeps _

theorem addObjectiveOf_keeps (body : Operand) (sense : Sense) :
    Keeps Declared (addObjectiveOf name body sense) := by
  have regular : (Content.objectives true (Family.optional none)).Regular :=
    Family.optional_regular none
  refine .bind (declare_keeps regular (by simp)) fun _ _ => .bind .ofFault fun e _ => ?_
  cases e with
  | none => exact .pure trivial
  | some e => exact .modify fun _ declared => declared.putObjective _

theorem addObjective_keeps (body : Formula) (sense : Sense) :
    Keeps Declared (addObjective name body sense) :=
  .bind (Formula.operand_keeps lookup_keeps body) fun _ _ => addObjectiveOf_keeps _ sense

theorem addObjectives_keeps {rows : List (List Value × Formula)}
    (steady : Family.Steady (rows.map (·.1))) (sense : Sense) :
    Keeps Declared (addObjectives name rows sense) := by
  refine .bind .ofFault fun family made => ?_
  have recipes : ∀ recipe ∈ family.elements.filterMap fun element =>
      element.2.map (Recipe.objective · sense), recipe.HasPlainSides := by
    intro recipe listed
    obtain ⟨element, -, equal⟩ := List.mem_filterMap.mp listed
    obtain ⟨body, -, rfl⟩ := Option.map_eq_some_iff.mp equal
    trivial
  have regular : (Content.objectives true (family.cleared : Family Objective)).Regular :=
    (Family.ofRows?_regular made steady).of_indices rfl (by simp)
  exact .bind (declare_keeps regular recipes) fun _ _ => makeAll_keeps _

theorem addExpression_keeps (body : Formula) : Keeps Declared (addExpression name body) :=
  .bind (Formula.operand_keeps lookup_keeps body) fun _ _ =>
    .bind (declare_keeps trivial (by simp)) fun _ _ => .bind .ofFault fun _ _ =>
      .modify fun _ declared => declared.change fun _ _ => trivial

theorem addParameter_keeps (value : Value) : Keeps Declared (addParameter name value) :=
  declare_keeps trivial (by simp)

theorem setParameter_keeps (value : Value) : Keeps Declared (setParameter name value) := by
  refine .bind .get fun m _ => ?_
  split
  · exact .throw
  · refine .modify fun m declared => declared.change fun content regular => ?_
    cases content with
    | vars family =>
        dsimp only
        split
        · exact regular
        · exact Family.Regular.of_indices regular rfl (by simp)
    | constraints | objectives | parameter | expression | reference | block => exact regular

theorem addAlias_keeps (target : String) : Keeps Declared (addAlias name target) := by
  refine .bind .get fun m _ => ?_
  split
  · exact .throw
  · exact declare_keeps trivial (by simp)

theorem addInner_keeps (block : String) : Keeps Declared (addInner block name) := by
  refine .bind .get fun m _ => ?_
  split
  · split
    · exact .throw
    · split
      · exact .throw
      · exact .modify fun _ declared => declared.change fun _ _ => trivial
  · exact .pure trivial

theorem addBlock_keeps (inner : List String) : Keeps Declared (addBlock name inner) :=
  .bind (declare_keeps trivial (by simp)) fun _ _ => .forM fun _ _ => addInner_keeps name

theorem obtain_keeps (found : Model → Except Error Handle) : Keeps Declared (obtain found) :=
  .bind .get fun _ _ => .bind .ofExcept fun h _ => .bind (settle_keeps h) fun _ _ => .pure trivial

theorem adjust_keeps (key : Key) (change : Adjustment) : Keeps Declared (adjust key change) := by
  refine .bind (obtain_keeps _) fun h _ => .bind .get fun m declared => ?_
  split
  · split
    · exact .pure trivial
    · exact .bind (.set (declared.updateVariable _)) fun _ _ => .imp .ofFault fun _ _ => trivial
  · exact .imp .ofFault fun _ _ => trivial

theorem changeWith_keeps {f : Content → Except Fault Content}
    (kept : ∀ content content', content.Regular → f content = .ok content' → content'.Regular) :
    Keeps Declared (changeWith name f) := by
  refine .bind .get fun m declared => ?_
  split
  · exact .throw
  · rename_i c there
    have regular := declared.contents c (List.mem_of_find?_eq_some there)
    exact .bind .ofFault fun content made => .modify fun _ later =>
      later.change fun _ _ => kept c.content content regular made

theorem switchComponent_keeps (on : Bool) : Keeps Declared (switchComponent name on) := by
  refine .bind .get fun m _ => ?_
  split
  · exact changeWith_keeps fun _ _ regular made => regular.switchEach made
  · exact changeWith_keeps fun _ _ regular made => regular.switch made

theorem switchElement_keeps (index : List Value) (on : Bool) :
    Keeps Declared (switchElement name index on) := by
  refine .bind .get fun m _ => ?_
  split
  · exact .throw
  · refine .bind .ofFault fun h _ => .bind (settle_keeps h) fun _ _ => ?_
    exact changeWith_keeps fun _ _ regular made => regular.switchAt made

/-- An edit of a model. -/
inductive Edit where
  | vars (name : String) (rows : Option (List (List Value))) (v : Variable)
  | constraint (name : String) (relation : Option Relation)
  | constraints (name : String) (rows : List (List Value × Option Relation))
  | objective (name : String) (body : Formula) (sense : Sense)
  | objectives (name : String) (rows : List (List Value × Formula)) (sense : Sense)
  | expression (name : String) (body : Formula)
  | parameter (name : String) (value : Value)
  | setting (name : String) (value : Value)
  | reference (name target : String)
  | block (name : String) (inner : List String)
  | adjustment (key : Key) (change : Adjustment)
  | switch (name : String) (on : Bool)
  | switchElement (name : String) (index : List Value) (on : Bool)

namespace Edit

/-- What an edit does. -/
def run : Edit → Stage Model Unit
  | .vars name rows v => addVariables name rows v
  | .constraint name relation => addConstraint name relation
  | .constraints name rows => addConstraints name (rows.map fun (row, r) => (row, .relation r))
  | .objective name body sense => addObjective name body sense
  | .objectives name rows sense => addObjectives name rows sense
  | .expression name body => addExpression name body
  | .parameter name value => addParameter name value
  | .setting name value => setParameter name value
  | .reference name target => addAlias name target
  | .block name inner => addBlock name inner
  | .adjustment key change => adjust key change
  | .switch name on => switchComponent name on
  | .switchElement name index on => Model.switchElement name index on

/-- An edit whose rows hold no NaN that does not equal itself. -/
def IsSteady : Edit → Prop
  | .vars _ rows _ => ∀ rs ∈ rows, Family.Steady rs
  | .constraints _ rows => Family.Steady (rows.map (·.1))
  | .objectives _ rows _ => Family.Steady (rows.map (·.1))
  | _ => True

theorem run_keeps {edit : Edit} (steady : edit.IsSteady) : Keeps Declared edit.run := by
  cases edit with
  | vars name rows v => exact addVariables_keeps steady v
  | constraint name relation => exact addConstraint_keeps relation
  | constraints name rows =>
      refine addConstraints_keeps ?_ ?_
      · simpa [IsSteady, Function.comp_def] using steady
      · simp only [List.forall_mem_map]
        exact fun _ _ => trivial
  | objective name body sense => exact addObjective_keeps body sense
  | objectives name rows sense => exact addObjectives_keeps steady sense
  | expression name body => exact addExpression_keeps body
  | parameter name value => exact addParameter_keeps value
  | setting name value => exact setParameter_keeps value
  | reference name target => exact addAlias_keeps target
  | block name inner => exact addBlock_keeps inner
  | adjustment key change => exact adjust_keeps key change
  | switch name on => exact switchComponent_keeps on
  | switchElement name index on => exact switchElement_keeps index on

end Edit

/-- The model after an edit, which may have failed on the way. -/
def edited (m : Model) (edit : Edit) : Model :=
  match edit.run m with
  | .ok _ m | .error _ m => m

theorem Declared.edited {m : Model} (declared : m.Declared) {edit : Edit} (steady : edit.IsSteady) :
    (m.edited edit).Declared := by
  unfold Model.edited
  split
  · exact ((Edit.run_keeps steady).ok declared ‹_›).1
  · exact (Edit.run_keeps steady).error declared ‹_›

/-- A model that is built by edits is regular, whichever of them failed. -/
theorem regular_of_edits (id : Nat) (name : String) {edits : List Edit}
    (steady : ∀ edit ∈ edits, edit.IsSteady) :
    (edits.foldl Model.edited (Model.empty id name)).Regular := by
  suffices ∀ m : Model, m.Declared → (edits.foldl Model.edited m).Declared from
    (this _ (.empty id name)).regular
  induction edits with
  | nil => exact fun _ declared => declared
  | cons edit rest ih =>
      obtain ⟨first, others⟩ := List.forall_mem_cons.mp steady
      exact fun m declared => ih others _ (declared.edited first)

end Model

end BlockAngular
