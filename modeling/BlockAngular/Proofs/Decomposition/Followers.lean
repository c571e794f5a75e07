import BlockAngular.Proofs.Decomposition.Attributes
import BlockAngular.Proofs.Decomposition.NewIds

/-! # Blocks that follow others

If a block takes over all keys of a block of another decomposition, and no others, the models of
the two blocks contain the same, except that the variables in bodies belong to models with
different numbers.
-/

namespace BlockAngular

open Decomposition

/-- The same place in the model of another number. -/
def Handle.renumber (id : Nat) (h : Handle) : Handle :=
  { h with model := id }

/-- A component whose bodies are about the variables of the model of another number. -/
def Content.renumber (id : Nat) : Content → Content
  | .constraints active family =>
      .constraints active (family.map fun c => { c with body := c.body.rename (.renumber id) })
  | .objectives active family =>
      .objectives active (family.map fun o => { o with body := o.body.rename (.renumber id) })
  | content => content

theorem AffineForm.toExpression_rename (g : Handle → Handle) (form : AffineForm) :
    (form.rename g).toExpression = form.toExpression.rename g := by
  simp [toExpression, rename, Expression.ofTerms, Expression.rename]

/-- Limits are put on a body whatever its variables are called. -/
theorem Limits.constrain_rename (limits : Limits Float) (g : Handle → Handle) (form : AffineForm) :
    limits.constrain (form.rename g).toExpression =
      (limits.constrain form.toExpression).map fun c => { c with body := c.body.rename g } := by
  rw [AffineForm.toExpression_rename]
  have linear : Constraint.isLiteral form.toExpression = false := rfl
  have linear' : Constraint.isLiteral (form.toExpression.rename g) = false := rfl
  obtain ⟨lower, upper, equality⟩ := limits
  cases equality with
  | true => cases lower <;> rfl
  | false =>
      cases lower with
      | none => cases upper <;> rfl
      | some x =>
          cases upper with
          | none => rfl
          | some y =>
              simp only [constrain, Bool.false_eq_true, if_false, Option.map_some,
                Constraint.range, Constraint.between, literal_hasVariables, Bool.or_self,
                literal_literal?, linear, linear']
              split <;> rfl

/-- The image of a constraint, from what is read of the constraint. -/
theorem imageConstraint_eq {m : Model} (wf : m.WellFormed) {vars : Registry}
    (images : vars.HasImages m) (block : Block) (key : Key) :
    imageConstraint (imageReading m vars) vars block m key =
      (m.readConstraint key).toOption.bind fun read =>
        (m.transitTo vars block key read).constraint.toOption := by
  rw [imageConstraint, transitOf_eq wf images]
  cases m.readConstraint key <;> rfl

/-- A block has the variables of a block of another registry, in the model of a number. The
other registry may be one for a model in which the variables have other names. -/
structure Registry.Follows (m m' : Model) (g : Handle → Handle) (vars vars' : Registry)
    (block block' : Block) (id : Nat) : Prop where
  images : vars.HasImages m
  images' : vars'.HasImages m'
  declared : ∀ v ∈ m.vars.map (·.2), g v ∈ m'.vars.map (·.2)
  sends : ∀ v ∈ m.vars.map (·.2), vars'.sends block' (g v) = vars.sends block v
  place : ∀ v ∈ m.vars.map (·.2), vars.sends block v = true →
    Expression.nameOf vars'.image? (g v) = (Expression.nameOf vars.image? v).renumber id

/-- One objective is another one over variables with other names, and both are declared under
the same name. -/
structure MappedObjective.Follows (config config' : Config) (g : Handle → Handle)
    (o o' : MappedObjective) : Prop where
  name : config'.objectiveNameFor o'.name = config.objectiveNameFor o.name
  sense : o'.sense = o.sense
  form : o'.form = o.form.rename g

theorem MappedObjective.follows_self (config : Config) (own : Option MappedObjective) :
    Option.Rel (Follows config config fun v => v) own own := by
  cases own with
  | none => exact .none
  | some o => exact .some ⟨rfl, rfl, o.form.rename_self.symm⟩

namespace Registry.Follows

variable {m m' : Model} {g : Handle → Handle} {vars vars' : Registry} {block block' : Block}
variable {id : Nat}

/-- The part of a form that belongs to the block is the same over the other number. -/
theorem ownTerms (h : Follows m m' g vars vars' block block' id) {form : AffineForm}
    (known : ∀ v ∈ form.vars, v ∈ m.vars.map (·.2)) :
    ((form.rename g).ownTerms vars' block').map
        (fun term => (Expression.nameOf vars'.image? term.1, term.2)) =
      ((form.ownTerms vars block).map
        fun term => (Expression.nameOf vars.image? term.1, term.2)).map
          fun term => (term.1.renumber id, term.2) := by
  have declared : ∀ term ∈ form.terms, term.1 ∈ m.vars.map (·.2) := fun term ht =>
    known _ (List.mem_map_of_mem (f := (·.1)) ht)
  have own : (form.rename g).ownTerms vars' block' =
      (form.ownTerms vars block).map fun term => (g term.1, term.2) := by
    rw [AffineForm.ownTerms, AffineForm.rename, List.filter_map]
    exact congrArg (List.map _)
      (List.filter_congr fun term ht => h.sends _ (declared term ht))
  rw [own, List.map_map, List.map_map]
  refine List.map_congr_left fun term ht => ?_
  obtain ⟨listed, sent⟩ := List.mem_filter.mp ht
  exact congrArg (Prod.mk · term.2) (h.place _ (declared term listed) sent)

/-- So is the body of a constraint, whatever its limits are. -/
theorem body (h : Follows m m' g vars vars' block block' id) (key : Key) {form : AffineForm}
    (known : ∀ v ∈ form.vars, v ∈ m.vars.map (·.2)) (limits limits' : Limits Float) :
    (m'.transitTo vars' block' key (form.rename g, limits')).body =
      (m.transitTo vars block key (form, limits)).body.rename (.renumber id) :=
  congrArg (AffineForm.mk form.constant) (h.ownTerms known)

theorem imageConstraint (h : Follows m m' g vars vars' block block' id) (wf : m.WellFormed)
    (wf' : m'.WellFormed) {key : Key} (read : (m'.readConstraint key).toOption =
      (m.readConstraint key).toOption.map fun read => (read.1.rename g, read.2)) :
    imageConstraint (imageReading m' vars') vars' block' m' key =
      (BlockAngular.imageConstraint (imageReading m vars) vars block m key).map fun c =>
        { c with body := c.body.rename (.renumber id) } := by
  rw [imageConstraint_eq wf h.images, imageConstraint_eq wf' h.images', read]
  cases there : m.readConstraint key with
  | error => rfl
  | ok read =>
      obtain ⟨form, limits⟩ := read
      simp only [Except.toOption, Option.map_some, Option.bind_some, Transit.constraint,
        h.body key (Model.readConstraint_vars there) limits limits]
      rw [show (m'.transitTo vars' block' key (form.rename g, limits)).limits = limits from rfl,
        show (m.transitTo vars block key (form, limits)).limits = limits from rfl,
        Limits.constrain_rename]
      cases limits.constrain (m.transitTo vars block key (form, limits)).body.toExpression <;> rfl

theorem objectivePart (h : Follows m m' g vars vars' block block' id)
    (same : block'.isMaster = block.isMaster) {form : AffineForm}
    (known : ∀ v ∈ form.vars, v ∈ m.vars.map (·.2)) :
    ((form.rename g).rename (Expression.nameOf vars'.image?)).objectivePart vars' block' =
      ((form.rename (Expression.nameOf vars.image?)).objectivePart vars block).rename
        (.renumber id) := by
  have known' : ∀ v ∈ (form.rename g).vars, v ∈ m'.vars.map (·.2) := by
    rw [AffineForm.vars_rename]
    exact List.forall_mem_map.mpr fun v hv => h.declared v (known v hv)
  rw [AffineForm.objectivePart, AffineForm.objectivePart, same,
    AffineForm.livesIn_rename h.images' known', AffineForm.livesIn_rename h.images known,
    h.ownTerms known]
  rfl

/-- The parts of two objectives, one of which follows the other. -/
theorem objectiveContents (h : Follows m m' g vars vars' block block' id)
    (same : block'.isMaster = block.isMaster) {config config' : Config}
    {own own' : Option MappedObjective}
    (objective : Option.Rel (MappedObjective.Follows config config' g) own own')
    (known : ∀ o ∈ own, ∀ v ∈ o.form.vars, v ∈ m.vars.map (·.2)) :
    objectiveContents (own'.map fun o =>
        { o with form := o.form.rename (Expression.nameOf vars'.image?) }) vars' config' block' =
      (Decomposition.objectiveContents (own.map fun o =>
        { o with form := o.form.rename (Expression.nameOf vars.image?) }) vars config block).map
          fun entry => (entry.1, entry.2.renumber id) := by
  cases objective with
  | none => rfl
  | @some o o' follows =>
      simp only [Option.map_some, Decomposition.objectiveContents, follows.name, follows.sense,
        follows.form, h.objectivePart same (known o rfl), AffineForm.toExpression_rename]
      cases config.objectiveNameFor o.name <;> rfl

end Registry.Follows

theorem Slice.mem_keys_of_mem_rows {slice : Slice} {entry : String × List (List Value)}
    (he : entry ∈ slice.sorted) {row : List Value} (hr : row ∈ entry.2) :
    ⟨entry.1, row⟩ ∈ slice.keys := by
  obtain ⟨own, listed, rfl⟩ := List.mem_map.mp he
  exact mem_keys_of_mem_sorted listed hr

/-- What is made of the sorted rows of slices agrees where the rows do. -/
theorem Slice.map_sorted_congr {α : Type} {slice slice' : Slice} (sorted : slice'.sorted = slice.sorted)
    {f k : String → List (List Value) → α}
    (alike : ∀ entry ∈ slice.sorted, k entry.1 entry.2 = f entry.1 entry.2) :
    slice'.map (fun entry => (entry.1, k entry.1 (Value.sortIndices entry.2))) =
      slice.map fun entry => (entry.1, f entry.1 (Value.sortIndices entry.2)) := by
  have sides (own : Slice) (f : String → List (List Value) → α) :
      own.map (fun entry => (entry.1, f entry.1 (Value.sortIndices entry.2))) =
        own.sorted.map fun entry => (entry.1, f entry.1 entry.2) := by
    simp [Slice.sorted, Function.comp_def]
  rw [sides, sides, sorted]
  exact List.map_congr_left fun entry he => congrArg (Prod.mk entry.1) (alike entry he)

namespace Reformulation

/-- What the target of a block contains but for the convexity constraints. -/
def ordinaryContents (r : Reformulation) (m : Model) (config : Config) (block : Block) :
    List (String × Content) :=
  (r.partition.variablesOf block).map (fun (name, indices) => (name, m.boundedContent name indices)) ++
    constraintContents r.partition r.vars m block ++
      objectiveContents r.objective r.vars config block

namespace Trace

variable {first first' : Nat} {m m' : Model} {classify classify' : Classify}
variable {config config' : Config} {r r' : Reformulation} {g : Handle → Handle}

/-- A block contains what one contains that it follows, over the other number. -/
theorem ordinaryContents_follows (h : r.Trace first m classify config)
    (h' : r'.Trace first' m' classify' config') (wf : m.WellFormed) (wf' : m'.WellFormed)
    {block block' : Block} {id : Nat} (vars : r.vars.Follows m m' g r'.vars block block' id)
    (columns : (r'.partition.variablesOf block').sorted = (r.partition.variablesOf block).sorted)
    (bounded : ∀ key ∈ (r.partition.variablesOf block).keys,
      m'.boundedVariable key = m.boundedVariable key)
    (rows : (r'.partition.constraintsOf block').sorted = (r.partition.constraintsOf block).sorted)
    (read : ∀ key ∈ (r.partition.constraintsOf block).keys, (m'.readConstraint key).toOption =
      (m.readConstraint key).toOption.map fun read => (read.1.rename g, read.2))
    (objective : Option.Rel (MappedObjective.Follows config config' g) m.readObjective
      m'.readObjective)
    (same : block'.isMaster = block.isMaster) :
    r'.ordinaryContents m' config' block' = (r.ordinaryContents m config block).map
      fun entry => (entry.1, entry.2.renumber id) := by
  simp only [ordinaryContents, List.map_append]
  refine congrArg₂ _ (congrArg₂ _ ?_ ?_) ?_
  · rw [List.map_map]
    refine Slice.map_sorted_congr columns
      (f := fun name rows => Content.vars (.tabulate rows fun row => m.boundedVariable ⟨name, row⟩))
      (k := fun name rows => Content.vars (.tabulate rows fun row => m'.boundedVariable ⟨name, row⟩))
      fun entry he => congrArg (fun elements => Content.vars ⟨_, elements⟩) ?_
    exact List.map_congr_left fun row hr => congrArg (Prod.mk _)
      (bounded _ (Slice.mem_keys_of_mem_rows he hr))
  · rw [constraintContents, constraintContents, List.map_map]
    refine Slice.map_sorted_congr rows
      (f := fun name rows => (Content.constraints true (.tabulate rows fun row =>
        imageConstraint (imageReading m r.vars) r.vars block m ⟨name, row⟩)).renumber id)
      (k := fun name rows => Content.constraints true (.tabulate rows fun row =>
        imageConstraint (imageReading m' r'.vars) r'.vars block' m' ⟨name, row⟩))
      fun entry he => congrArg (fun elements => Content.constraints true ⟨_, elements⟩) ?_
    rw [Family.tabulate, List.map_map]
    exact List.map_congr_left fun row hr => congrArg (Prod.mk _)
      (vars.imageConstraint wf wf' (read _ (Slice.mem_keys_of_mem_rows he hr)))
  · rw [h.objective_eq wf, h'.objective_eq wf']
    exact vars.objectiveContents same objective fun o ho => Model.readObjective_vars ho

/-- A variable that is registered for a block has its place in the model of the block. -/
theorem exists_place (h : r.Trace first m classify config) (wf : m.WellFormed) {b : Block × Nat}
    (hb : b ∈ numbered r.ids) {v : Handle} (known : v ∈ m.vars.map (·.2))
    (sent : r.vars.sends b.1 v = true) : ∃ place ∈ (r.assignment.vars.sliceOf b.1).places,
      v = m.preimageOf place.1 ∧
        Expression.nameOf r.vars.image? v = ⟨first + b.2, place.1.name, place.2⟩ := by
  obtain ⟨key, own, he, rfl⟩ := h.exists_annotated wf known
  obtain ⟨found, hfound, -, image, placed⟩ := h.vars_covers.exists_image he
  rw [Registry.sends, h.vars_covers.owner?_eq hfound placed, Option.any_some] at sent
  obtain rfl := numbered_unique h.ids_distinct hfound hb sent
  have listed := h.vars_covers.image?_eq hfound placed
  obtain ⟨⟨_, position⟩, place, equal⟩ := List.mem_map.mp placed
  cases equal
  exact ⟨(key, position), place, rfl, by simp [Expression.nameOf, listed]⟩

/-- The place of a variable is that of its image. -/
theorem image_of_place (h : r.Trace first m classify config) {b : Block × Nat}
    (hb : b ∈ numbered r.ids) {place : Key × Nat}
    (placed : place ∈ (r.assignment.vars.sliceOf b.1).places) :
    r.vars.sends b.1 (m.preimageOf place.1) = true ∧
      Expression.nameOf r.vars.image? (m.preimageOf place.1) =
        ⟨first + b.2, place.1.name, place.2⟩ := by
  have listed : (place.1, (⟨first + b.2, place.1.name, place.2⟩ : Handle)) ∈
      (r.assignment.vars.sliceOf b.1).imagesIn (first + b.2) :=
    List.mem_map.mpr ⟨place, placed, rfl⟩
  constructor
  · rw [Registry.sends, h.vars_covers.owner?_eq hb listed]
    exact Block.same_self (blocks_isKey h.ids_distinct (block_mem hb))
  · simp [Expression.nameOf, h.vars_covers.image?_eq hb listed]

/-- A block that has the variables of another one in the same places follows it. -/
theorem follows_of_places (h : r.Trace first m classify config)
    (h' : r'.Trace first' m' classify' config') (wf : m.WellFormed) (wf' : m'.WellFormed)
    {b b' : Block × Nat} (hb : b ∈ numbered r.ids) (hb' : b' ∈ numbered r'.ids)
    (named : ∀ key ∈ m.variableKeys, key ∈ m'.variableKeys ∧ m'.preimageOf key = g (m.preimageOf key))
    (places : (r'.assignment.vars.sliceOf b'.1).places = (r.assignment.vars.sliceOf b.1).places) :
    r.vars.Follows m m' g r'.vars b.1 b'.1 (first' + b'.2) := by
  have declared : ∀ {key}, key ∈ m.variableKeys → g (m.preimageOf key) ∈ m'.vars.map (·.2) := by
    intro key hk
    rw [← (named key hk).2, Model.vars_elements wf']
    exact List.mem_map_of_mem (named key hk).1
  have listed : ∀ place ∈ (r.assignment.vars.sliceOf b.1).places, place.1 ∈ m.variableKeys :=
    fun place hp => h.declared_column
      ((Slice.places_keys_perm _).mem_iff.mp (List.mem_map_of_mem (f := (·.1)) hp))
  have keyed : ∀ v ∈ m.vars.map (·.2), ∃ key ∈ m.variableKeys, m.preimageOf key = v := by
    rw [Model.vars_elements wf]
    exact fun v hv => List.mem_map.mp hv
  refine ⟨h.hasImages wf, h'.hasImages wf', fun v hv => ?_, fun v hv => ?_, fun v hv sent => ?_⟩
  · obtain ⟨key, hk, rfl⟩ := keyed v hv
    exact declared hk
  · obtain ⟨key, hk, rfl⟩ := keyed v hv
    have unique : ∀ place ∈ (r.assignment.vars.sliceOf b.1).places,
        g (m.preimageOf key) = g (m.preimageOf place.1) → key = place.1 := by
      intro place hp equal
      rw [← (named key hk).2, ← (named _ (listed place hp)).2] at equal
      exact (Model.declares_of_mem_variableKeys (named key hk).1).key_unique wf'
        (Model.declares_of_mem_variableKeys (named _ (listed place hp)).1) equal
    rw [Bool.eq_iff_iff]
    constructor
    · intro sent
      obtain ⟨place, hp, equal, -⟩ := h'.exists_place wf' hb' (declared hk) sent
      rw [places] at hp
      rw [(named _ (listed place hp)).2] at equal
      rw [unique place hp equal]
      exact (h.image_of_place hb hp).1
    · intro sent
      obtain ⟨place, hp, equal, -⟩ := h.exists_place wf hb hv sent
      have moved := (h'.image_of_place hb' (places ▸ hp)).1
      rwa [(named _ (listed place hp)).2, ← equal] at moved
  · obtain ⟨place, hp, rfl, there⟩ := h.exists_place wf hb hv sent
    have moved := (h'.image_of_place hb' (places ▸ hp)).2
    rw [(named _ (listed place hp)).2] at moved
    rw [moved, there]
    rfl

/-- The bodies in the model of a block are about variables of that model. -/
theorem ordinaryContents_self (h : r.Trace first m classify config) (wf : m.WellFormed)
    {b : Block × Nat} (hb : b ∈ numbered r.ids) :
    r.ordinaryContents m config b.1 = (r.ordinaryContents m config b.1).map
      fun entry => (entry.1, entry.2.renumber (first + b.2)) :=
  h.ordinaryContents_follows h wf wf
    (h.follows_of_places h wf wf hb hb (g := fun v => v) (fun _ hk => ⟨hk, rfl⟩) rfl) rfl
    (fun _ _ => rfl) rfl (fun _ _ => by simp) (MappedObjective.follows_self config _) rfl

section Follower

variable {f : Value → Value} {r' : Reformulation} (h : r.Trace first m classify config)
  (h' : r'.Trace first m (classify.relabel f) config) (new : NewIds f r.assignment.ids)
  {b b' : Block × Nat} (hb : b ∈ numbered r.ids) (hb' : b' ∈ numbered r'.ids)
  (vars : r.assignment.vars.Follows f b.1 b'.1)
include h h' new hb hb' vars

/-- A block that takes over the keys of another one contains the same, over the number of its own
model. -/
theorem ordinaryContents_relabel (wf : m.WellFormed)
    (rows : r.assignment.constraints.Follows f b.1 b'.1) (same : b'.1.isMaster = b.1.isMaster) :
    r'.ordinaryContents m config b'.1 = (r.ordinaryContents m config b.1).map
      fun entry => (entry.1, entry.2.renumber (first + b'.2)) := by
  have columns : r'.assignment.vars.sliceOf b'.1 = r.assignment.vars.sliceOf b.1 := by
    rw [h.relabel_assignment h' new]
    exact congrArg Slice.ofKeys vars.keysOf
  have follows := h.follows_of_places h' wf wf hb hb' (g := fun v => v)
    (fun key hk => ⟨hk, rfl⟩) (congrArg Slice.places columns)
  refine h.ordinaryContents_follows h' wf wf follows ?_ (fun _ _ => rfl) ?_ (fun key _ => ?_)
    (MappedObjective.follows_self config _) same
  · rw [h.variablesOf_eq, h'.variablesOf_eq, columns]
  · rw [h.constraintsOf_eq, h'.constraintsOf_eq, h.relabel_assignment h' new]
    exact congrArg (fun keys => (Slice.ofKeys keys).sorted) rows.keysOf
  · simp

end Follower

end Trace

end Reformulation

end BlockAngular
