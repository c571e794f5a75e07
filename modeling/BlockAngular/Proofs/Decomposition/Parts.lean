import BlockAngular.Proofs.Decomposition.ReadBack
import BlockAngular.Proofs.Decomposition.Relisting
import BlockAngular.Proofs.Value.Precedence

/-! # The parts of a decomposition by key

What a decomposition makes of a model can be said without handles. The model of a block has the
variables and the constraints of the keys that go to the block. A constraint keeps the terms of
the variables that go where it goes; the terms that a constraint of the master loses are pairs
in the coupling tables, and those of the objective are costs.
-/

namespace BlockAngular

open Decomposition

namespace Model

/-- The form with a constant and coefficients of the variables of some keys. -/
def formBy (m : Model) (constant : Float) (terms : List (Key × Float)) : AffineForm :=
  ⟨constant, terms.map fun (key, k) => (m.preimageOf key, k)⟩

/-- A constraint that is a linear form, with the variables given by their keys, between
limits. -/
def HasRow (m : Model) (key : Key) (constant : Float) (terms : List (Key × Float))
    (limits : Limits Float) : Prop :=
  ∃ row c, m.element key.name key.index = .ok row ∧ m.constraintOf? row = some c ∧
    c.body = (m.formBy constant terms).toExpression ∧
      ∀ reading, Limits.ofConstraint? reading c = .ok limits

variable {m : Model}

theorem preimageOf_of_element {key : Key} {h : Handle} (found : m.element key.name key.index = .ok h) :
    m.preimageOf key = h := by
  simp [preimageOf, found, Except.toOption]

/-- Different keys of variables have different elements. -/
theorem preimageOf_injective (wf : m.WellFormed) {a b : Key} (ha : a ∈ m.variableKeys)
    (hb : b ∈ m.variableKeys) (equal : m.preimageOf a = m.preimageOf b) : a = b :=
  (declares_of_mem_variableKeys ha).key_unique wf (declares_of_mem_variableKeys hb) equal

theorem preimageOf_declared (wf : m.WellFormed) {key : Key} (hk : key ∈ m.variableKeys) :
    m.preimageOf key ∈ m.vars.map (·.2) := by
  rw [vars_elements wf]
  exact List.mem_map_of_mem hk

theorem preimages_nodup (wf : m.WellFormed) {keys : List Key}
    (declared : ∀ key ∈ keys, key ∈ m.variableKeys) (nodup : keys.Nodup) :
    (keys.map m.preimageOf).Nodup :=
  nodup.map_on fun a ha b hb => preimageOf_injective wf (declared a ha) (declared b hb)

theorem formBy_vars_nodup (wf : m.WellFormed) {constant : Float} {terms : List (Key × Float)}
    (declared : ∀ term ∈ terms, term.1 ∈ m.variableKeys) (nodup : (terms.map (·.1)).Nodup) :
    (m.formBy constant terms).vars.Nodup := by
  have keys : (m.formBy constant terms).vars = (terms.map (·.1)).map m.preimageOf := by
    simp [formBy, AffineForm.vars, Function.comp_def]
  rw [keys]
  exact preimages_nodup wf (List.forall_mem_map.mpr declared) nodup

/-- A constraint that names a variable once has one term for it. -/
theorem rowTerms_of_mem (wf : m.WellFormed) {key : Key} {constant : Float}
    {terms : List (Key × Float)} {limits : Limits Float}
    (declared : ∀ term ∈ terms, term.1 ∈ m.variableKeys) (nodup : (terms.map (·.1)).Nodup)
    (read : m.readConstraint key = .ok (m.formBy constant terms, limits)) {column : Key} {k : Float}
    (there : (column, k) ∈ terms) (id position : Nat) :
    (m.rowTerms id (key, position)).filterMap (fun (row, w, k) =>
      if w = m.preimageOf column then some (row, k) else none) = [(⟨id, key.name, position⟩, k)] := by
  have distinct : (m.formBy constant terms).vars.Nodup := m.formBy_vars_nodup wf declared nodup
  have single := Transfer.filterMap_eq_lookup distinct (m.preimageOf column)
  have listed : (m.preimageOf column, k) ∈ (m.formBy constant terms).terms :=
    List.mem_map_of_mem (f := fun (key, k) => (m.preimageOf key, k)) there
  rw [(lookup_eq_some distinct).mpr listed] at single
  have paired := congrArg (List.map fun k => ((⟨id, key.name, position⟩ : Handle), k)) single
  rw [List.map_filterMap] at paired
  rw [rowTerms, read, List.filterMap_map]
  refine Eq.trans (List.filterMap_congr fun term _ => ?_) paired
  obtain ⟨w, k'⟩ := term
  by_cases equal : w = m.preimageOf column <;> simp [equal]

/-- A constraint that does not name a variable has no term for it. -/
theorem rowTerms_of_absent (wf : m.WellFormed) {place : Key × Nat} {constant : Float}
    {terms : List (Key × Float)} {limits : Limits Float}
    (read : m.readConstraint place.1 = .ok (m.formBy constant terms, limits)) {column : Key}
    (hcolumn : column ∈ m.variableKeys)
    (absent : ∀ term ∈ terms, term.1 ∈ m.variableKeys ∧ term.1 ≠ column) (id : Nat) :
    (m.rowTerms id place).filterMap (fun (row, w, k) =>
      if w = m.preimageOf column then some (row, k) else none) = [] := by
  refine List.filterMap_eq_nil_iff.mpr fun e he => ?_
  rw [rowTerms, read] at he
  obtain ⟨_, listed, rfl⟩ := List.mem_map.mp he
  obtain ⟨term, hterm, rfl⟩ := List.mem_map.mp listed
  obtain ⟨declared, other⟩ := absent term hterm
  have distinct : m.preimageOf term.1 ≠ m.preimageOf column := fun same =>
    other (preimageOf_injective wf declared hcolumn same)
  simp [distinct]

end Model

/-- Different variables have different images. -/
theorem Registry.HasImages.nameOf_injective {vars : Registry} {m : Model} (images : vars.HasImages m)
    {v w : Handle} (hv : v ∈ m.vars.map (·.2)) (hw : w ∈ m.vars.map (·.2))
    (same : Expression.nameOf vars.image? v = Expression.nameOf vars.image? w) : v = w := by
  have own := (images.of_known hv).1
  rw [same, (images.of_known hw).1] at own
  exact (Option.some.inj own).symm

namespace Decomposition

/-- The keys that go to a block. -/
def keysFor (classify : Classify) (block : Block) (keys : List Key) : List Key :=
  keys.filter fun key => (classify.blockOf key).same block

/-- The terms whose variables go to a block. -/
def termsFor (classify : Classify) (block : Block) (terms : List (Key × Float)) :
    List (Key × Float) :=
  terms.filter fun term => (classify.blockOf term.1).same block

end Decomposition

namespace Reformulation.Trace

variable {first : Nat} {m : Model} {classify : Classify} {config : Config} {r : Reformulation}
variable {block : Block} {target : Model}

section Keys

variable (h : r.Trace first m classify config) (simple : IsSimple m classify)
include h simple

theorem vars_keysOf (block : Block) :
    r.assignment.vars.keysOf block = keysFor classify block m.variableKeys := by
  rw [(simple.assignment h.assigned).1, KeyTable.keysOf, List.filter_map, List.map_map]
  exact List.map_id _

theorem constraints_keysOf (block : Block) :
    r.assignment.constraints.keysOf block = keysFor classify block m.constraintKeys := by
  rw [(simple.assignment h.assigned).2, KeyTable.keysOf, List.filter_map, List.map_map]
  exact List.map_id _

theorem variableSlice_perm (block : Block) :
    (r.assignment.vars.sliceOf block).keys.Perm (keysFor classify block m.variableKeys) := by
  rw [← h.vars_keysOf simple, KeyTable.sliceOf]
  exact Slice.keys_ofKeys_perm (h.sound.vars.keysOf_distinct block)

theorem constraintSlice_perm (block : Block) :
    (r.assignment.constraints.sliceOf block).keys.Perm (keysFor classify block m.constraintKeys) := by
  rw [← h.constraints_keysOf simple, KeyTable.sliceOf]
  exact Slice.keys_ofKeys_perm (h.sound.constraints.keysOf_distinct block)

/-- The ids that are answered are sorted, if equal ones are spelled alike. -/
theorem ids_eq_sortIds {ids : List Value} (nodup : ids.Nodup)
    (spelled : ∀ a ∈ ids, ∀ b ∈ ids, a.same b = true → a = b)
    (answered : ∀ id, id ∈ ids ↔ ∃ key ∈ m.variableKeys ++ m.constraintKeys,
      classify.resolve key = .ok (.subproblem id)) : r.ids = Value.sortIds ids := by
  obtain ⟨raw, sorted⟩ : ∃ raw, r.ids = Value.sortIds raw := ⟨_, h.ids_eq⟩
  have perm := Value.sortIds_perm raw
  rw [← sorted] at perm
  have distinct := h.ids_distinct.perm perm
  have used : ∀ id, id ∈ ids ↔ id ∈ r.assignment.ids := fun id => by
    rw [answered, simple.mem_ids h.assigned]
  have listed : ∀ id, id ∈ raw ↔ id ∈ ids := by
    intro id
    rw [← perm.mem_iff, used]
    refine ⟨h.mem_assignment_ids, fun hid => ?_⟩
    obtain ⟨own, hown, same⟩ := h.exists_id hid
    have hown' := (used own).mpr (h.mem_assignment_ids hown)
    rwa [← spelled own hown' id ((used id).mpr hid) same]
  have raw_nodup : raw.Nodup := distinct.pairwise.imp_of_mem fun {a b} ha _ apart equal => by
    subst equal
    simp [(distinct.keys a ha).same_self] at apart
  rw [sorted]
  refine (Value.sortsIds.settled raw ids (fun id hid => ?_) ?_ distinct.pairwise).symm
  · obtain ⟨key, hk, resolved⟩ := (answered id).mp ((listed id).mp hid)
    exact simple.ids key hk id resolved
  · exact (List.perm_ext_iff_of_nodup nodup raw_nodup).mpr fun id => (listed id).symm

/-- The model of a block has the variables that go there. -/
theorem variableKeys_perm (wf : m.WellFormed) (ht : (block, target) ∈ r.targets) :
    target.variableKeys.Perm (keysFor classify block m.variableKeys) := by
  obtain ⟨number, -, view⟩ := h.exists_numbered wf ht
  rw [Model.variableKeys, view.vars, Slice.imagesIn_keys]
  exact (Slice.places_keys_perm _).trans (h.variableSlice_perm simple block)

/-- The model of a block has the constraints that go there, but for the convexity
constraints. -/
theorem ordinaryKeys_perm (wf : m.WellFormed) (ht : (block, target) ∈ r.targets) :
    ((ordinaryRows config block target).map (·.1)).Perm
      (keysFor classify block m.constraintKeys) := by
  obtain ⟨number, -, view⟩ := h.exists_numbered wf ht
  rw [view.rows, Slice.imagesIn_keys]
  exact (Slice.places_keys_perm _).trans (h.constraintSlice_perm simple block)

/-- A variable that goes to a block leads there to its image. -/
theorem image_of_key (wf : m.WellFormed) (ht : (block, target) ∈ r.targets) {key : Key}
    (hk : key ∈ m.variableKeys) (goes : (classify.blockOf key).same block = true) :
    target.element key.name key.index =
        .ok (Expression.nameOf r.vars.image? (m.preimageOf key)) ∧
      r.vars.livesIn block (Expression.nameOf r.vars.image? (m.preimageOf key)) = true := by
  obtain ⟨number, hb, view⟩ := h.exists_numbered wf ht
  have listed : key ∈ (r.assignment.vars.sliceOf block).keys :=
    (h.variableSlice_perm simple block).mem_iff.mpr (List.mem_filter.mpr ⟨hk, goes⟩)
  obtain ⟨image, placed⟩ := Slice.exists_image_of_mem_keys listed (first + number)
  have image_eq : Expression.nameOf r.vars.image? (m.preimageOf key) = image := by
    simp [Expression.nameOf, h.vars_covers.image?_eq hb placed]
  rw [image_eq]
  refine ⟨(view.element key image (.inl ?_)).1, ?_⟩
  · rwa [view.vars]
  · exact (h.livesIn_iff (b := (block, number)) hb).mpr (h.vars_covers.imageOwner?_eq hb placed)

/-- A variable is registered for the block that its key goes to. -/
theorem sends_eq (block : Block) {key : Key}
    (hk : key ∈ m.variableKeys) :
    r.vars.sends block (m.preimageOf key) = (classify.blockOf key).same block := by
  have annotated : (key, classify.blockOf key) ∈ r.assignment.vars := by
    rw [(simple.assignment h.assigned).1]
    exact List.mem_map_of_mem hk
  obtain ⟨b, hb, same, image, placed⟩ := h.vars_covers.exists_image annotated
  rw [Registry.sends, h.vars_covers.owner?_eq hb placed]
  exact Block.same_congr (blocks_isKey h.ids_distinct (block_mem hb))
    (h.sound.vars.blocks _ annotated) same

/-- The terms of a form that stay in a block, over the variables of its model. -/
theorem formBy_ownTerms (wf : m.WellFormed) (ht : (block, target) ∈ r.targets)
    {terms : List (Key × Float)} (declared : ∀ term ∈ terms, term.1 ∈ m.variableKeys)
    (constant : Float) :
    ((m.formBy constant terms).ownTerms r.vars block).map
        (fun (v, k) => (Expression.nameOf r.vars.image? v, k)) =
      (target.formBy constant (termsFor classify block terms)).terms := by
  have kept : (m.formBy constant terms).ownTerms r.vars block =
      (termsFor classify block terms).map fun (key, k) => (m.preimageOf key, k) := by
    rw [AffineForm.ownTerms, Model.formBy, List.filter_map, termsFor]
    refine congrArg (List.map _) (List.filter_congr fun term hterm => ?_)
    exact h.sends_eq simple block (declared term hterm)
  rw [kept, Model.formBy, List.map_map]
  refine List.map_congr_left fun term hterm => ?_
  obtain ⟨listed, goes⟩ := List.mem_filter.mp hterm
  have image := (h.image_of_key simple wf ht (declared term listed) goes).1
  simp [Model.preimageOf_of_element image]

/-- The image of a constraint has the terms that stay, between the limits of the constraint. -/
theorem hasRow (wf : m.WellFormed) (ht : (block, target) ∈ r.targets) {key : Key}
    (hk : key ∈ m.constraintKeys) (goes : (classify.blockOf key).same block = true)
    {constant : Float} {terms : List (Key × Float)} {limits : Limits Float}
    (declared : ∀ term ∈ terms, term.1 ∈ m.variableKeys)
    (read : m.readConstraint key = .ok (m.formBy constant terms, limits)) :
    target.HasRow key constant (termsFor classify block terms) limits.settled := by
  obtain ⟨number, hb, view⟩ := h.exists_numbered wf ht
  have listed : key ∈ (r.assignment.constraints.sliceOf block).keys :=
    (h.constraintSlice_perm simple block).mem_iff.mpr (List.mem_filter.mpr ⟨hk, goes⟩)
  obtain ⟨row, placed⟩ := Slice.exists_image_of_mem_keys listed (first + number)
  have ordinary : (key, row) ∈ ordinaryRows config block target := by
    rw [view.rows]
    exact placed
  obtain ⟨c, there, made⟩ := view.constraint key row ordinary
  simp only [imageConstraint_eq wf (h.hasImages wf), read, Except.toOption, Option.bind_some]
    at made
  have limited := Success.toOption_eq_some.mp made
  rw [Transit.constraint, Model.transitTo] at limited
  simp only [h.formBy_ownTerms simple wf ht declared] at limited
  obtain ⟨_, -, -, -, limitsRead⟩ := Model.readConstraint_ok.mp read
  obtain ⟨body, -, settled⟩ := Limits.constrain_ok (Limits.ofConstraint?_areRead limitsRead)
    rfl limited
  exact ⟨row, c, (view.element key row (.inr ordinary)).1, there, body, settled⟩

end Keys

/-- The pairs of the image of a variable are its terms in the constraints of the master. -/
theorem pairsOf_image (h : r.Trace first m classify config) (wf : m.WellFormed) {s : Subproblem}
    (hs : s ∈ r.subproblems) {v : Handle} (known : v ∈ m.vars.map (·.2))
    (lives : r.vars.livesIn (.subproblem s.id) (Expression.nameOf r.vars.image? v) = true) :
    s.coupling.pairsOf (Expression.nameOf r.vars.image? v) =
      (masterTerms first m r).filterMap fun (row, w, k) => if w = v then some (row, k) else none := by
  have images := h.hasImages wf
  rw [h.coupling_eq hs, CouplingTable.ofTransfers, CouplingTable.pairsOf_ofEntries,
    h.masterTransfers_entries wf, List.filterMap_filter, List.filterMap_map]
  refine List.filterMap_congr fun e he => ?_
  obtain ⟨row, w, k⟩ := e
  by_cases equal : w = v
  · subst equal
    simp [lives]
  · have other : Expression.nameOf r.vars.image? w ≠ Expression.nameOf r.vars.image? v :=
      fun same => equal (images.nameOf_injective (masterTerms_known _ he) known same)
    simp [equal, other]

section Keys

variable (h : r.Trace first m classify config) (simple : IsSimple m classify)
include h simple

theorem masterPlaces_perm : ((r.partition.constraintsOf .master).places.map (·.1)).Perm
    (keysFor classify .master m.constraintKeys) := by
  rw [h.constraintsOf_eq]
  exact (Slice.places_keys_perm _).trans (h.constraintSlice_perm simple .master)

/-- The place of a constraint of the master is where its key leads. -/
theorem exists_master_place (wf : m.WellFormed) {key : Key} (hk : key ∈ m.constraintKeys)
    (goes : (classify.blockOf key).same .master = true) : ∃ position,
      (key, position) ∈ (r.partition.constraintsOf .master).places ∧
        r.master.preimageOf key = ⟨first, key.name, position⟩ := by
  have listed : key ∈ (r.partition.constraintsOf .master).places.map (·.1) :=
    (h.masterPlaces_perm simple).mem_iff.mpr (List.mem_filter.mpr ⟨hk, goes⟩)
  obtain ⟨⟨_, position⟩, placed, rfl⟩ := List.mem_map.mp listed
  refine ⟨position, placed, ?_⟩
  have view := h.master_view wf
  refine Model.preimageOf_of_element (view.element _ _ (.inr ?_)).1
  rw [view.rows, ← h.constraintsOf_eq]
  exact List.mem_map_of_mem (f := fun place => (place.1, Handle.mk first place.1.name place.2))
    placed

/-- A variable of a subproblem that one constraint of the master speaks of is coupled with that
constraint only. -/
theorem pairsOf_eq (wf : m.WellFormed) {s : Subproblem} (hs : s ∈ r.subproblems) {column : Key}
    (hcolumn : column ∈ m.variableKeys)
    (lives : (classify.blockOf column).same (.subproblem s.id) = true) {key : Key}
    (hk : key ∈ m.constraintKeys) (goes : (classify.blockOf key).same .master = true)
    {constant : Float} {terms : List (Key × Float)} {limits : Limits Float}
    (declared : ∀ term ∈ terms, term.1 ∈ m.variableKeys) (nodup : (terms.map (·.1)).Nodup)
    (read : m.readConstraint key = .ok (m.formBy constant terms, limits)) {k : Float}
    (there : (column, k) ∈ terms)
    (only : ∀ other ∈ keysFor classify .master m.constraintKeys, other ≠ key →
      ∃ constant terms limits, m.readConstraint other = .ok (m.formBy constant terms, limits) ∧
        ∀ term ∈ terms, term.1 ∈ m.variableKeys ∧ term.1 ≠ column) :
    s.coupling.pairsOf (s.model.preimageOf column) = [(r.master.preimageOf key, k)] := by
  have hs' : (.subproblem s.id, s.model) ∈ r.targets :=
    List.mem_cons_of_mem _ (List.mem_map_of_mem hs)
  obtain ⟨found, livesIn⟩ := h.image_of_key simple wf hs' hcolumn lives
  have known := Model.preimageOf_declared wf hcolumn
  obtain ⟨position, placed, row⟩ := h.exists_master_place simple wf hk goes
  have keys_nodup : ((r.partition.constraintsOf .master).places.map (·.1)).Nodup := by
    rw [(h.masterPlaces_perm simple).nodup_iff, ← h.constraints_keysOf simple]
    exact (h.sound.constraints.keysOf_distinct .master).nodup
  have own := Model.rowTerms_of_mem wf declared nodup read there first position
  have others : ∀ place ∈ (r.partition.constraintsOf .master).places, place ≠ (key, position) →
      (m.rowTerms first place).filterMap (fun (row, w, k) =>
        if w = m.preimageOf column then some (row, k) else none) = [] := by
    intro place hplace apart
    have different : place.1 ≠ key := fun same =>
      apart (List.inj_on_of_nodup_map keys_nodup hplace placed same)
    have listed : place.1 ∈ keysFor classify .master m.constraintKeys :=
      (h.masterPlaces_perm simple).mem_iff.mp (List.mem_map_of_mem (f := (·.1)) hplace)
    obtain ⟨constant', terms', limits', read', absent⟩ := only place.1 listed different
    exact Model.rowTerms_of_absent wf read' hcolumn absent first
  rw [Model.preimageOf_of_element found, h.pairsOf_image wf hs known livesIn, masterTerms,
    List.filterMap_flatMap, flatMap_eq_of_only keys_nodup.of_map placed others, own, row]

/-- The cost of a variable of a subproblem is its coefficient in the objective. -/
theorem costOf_eq (wf : m.WellFormed) {s : Subproblem} (hs : s ∈ r.subproblems) {column : Key}
    (hcolumn : column ∈ m.variableKeys)
    (lives : (classify.blockOf column).same (.subproblem s.id) = true) {o : MappedObjective}
    (read : m.readObjective = some o) {constant : Float} {terms : List (Key × Float)}
    (form : o.form = m.formBy constant terms)
    (declared : ∀ term ∈ terms, term.1 ∈ m.variableKeys) :
    (∀ k, (column, k) ∈ terms → s.costs.costOf 0.0 (s.model.preimageOf column) = k) ∧
      (column ∉ terms.map (·.1) → s.costs.costOf 0.0 (s.model.preimageOf column) = 0.0) := by
  have hs' : (.subproblem s.id, s.model) ∈ r.targets :=
    List.mem_cons_of_mem _ (List.mem_map_of_mem hs)
  obtain ⟨found, -⟩ := h.image_of_key simple wf hs' hcolumn lives
  have objective := h.objective_eq wf
  rw [read, Option.map_some] at objective
  have known := Model.readObjective_vars read
  have costs : s.costs = (termsFor classify (.subproblem s.id) terms).map
      fun (key, k) => (s.model.preimageOf key, k) := by
    rw [h.costs_eq objective (h.objective_nodup objective) hs,
      AffineForm.livesIn_rename (h.hasImages wf) known, form,
      h.formBy_ownTerms simple wf hs' declared]
    rfl
  have own : (s.costs.map (·.1)).Nodup := by
    rw [h.costs_eq objective (h.objective_nodup objective) hs]
    exact List.Nodup.sublist (List.filter_sublist.map _) (h.objective_nodup objective)
  refine ⟨fun k there => CostTable.costOf_of_mem own ?_, fun absent =>
    CostTable.costOf_of_absent fun there => ?_⟩
  · have kept : (column, k) ∈ termsFor classify (.subproblem s.id) terms :=
      List.mem_filter.mpr ⟨there, lives⟩
    rw [costs]
    exact List.mem_map_of_mem (f := fun (key, k) => (s.model.preimageOf key, k)) kept
  · rw [costs, List.map_map] at there
    obtain ⟨term, hterm, same⟩ := List.mem_map.mp there
    obtain ⟨hterm, goes⟩ := List.mem_filter.mp hterm
    obtain ⟨found', -⟩ := h.image_of_key simple wf hs' (declared term hterm) goes
    have images : Expression.nameOf r.vars.image? (m.preimageOf term.1) =
        Expression.nameOf r.vars.image? (m.preimageOf column) := by
      rw [← Model.preimageOf_of_element found, ← Model.preimageOf_of_element found']
      exact same
    have equal := (h.hasImages wf).nameOf_injective
      (Model.preimageOf_declared wf (declared term hterm)) (Model.preimageOf_declared wf hcolumn) images
    rw [← Model.preimageOf_injective wf (declared term hterm) hcolumn equal] at absent
    exact absent (List.mem_map_of_mem hterm)

/-- The model of a block has its part of the objective; the constant is the master's. -/
theorem allObjectives_eq (wf : m.WellFormed) (ht : (block, target) ∈ r.targets)
    {o : MappedObjective} (read : m.readObjective = some o) {label : String}
    (named : config.objectiveNameFor o.name = .str label) {constant : Float}
    {terms : List (Key × Float)} (form : o.form = m.formBy constant terms)
    (declared : ∀ term ∈ terms, term.1 ∈ m.variableKeys) : ∃ handle : Handle,
      handle.component = label ∧ target.allObjectives = [(handle,
        ⟨(target.formBy (if block.isMaster then constant else 0.0)
          (termsFor classify block terms)).toExpression, o.sense, true⟩)] := by
  obtain ⟨number, hb, shape⟩ := h.exists_outlined ht
  have objective := h.objective_eq wf
  rw [read, Option.map_some] at objective
  refine ⟨⟨first + number, label, 0⟩, rfl, ?_⟩
  have part : ((o.form.rename (Expression.nameOf r.vars.image?)).objectivePart r.vars block) =
      target.formBy (if block.isMaster then constant else 0.0) (termsFor classify block terms) := by
    rw [AffineForm.objectivePart, AffineForm.livesIn_rename (h.hasImages wf)
      (Model.readObjective_vars read), form, h.formBy_ownTerms simple wf ht declared]
    rfl
  rw [allObjectives_of_outlined (b := (block, number)) shape]
  simp [objectiveContents, objective, named, Content.allGoals, Family.optional, Family.present, part]

end Keys

end Reformulation.Trace

end BlockAngular
