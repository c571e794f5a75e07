import BlockAngular.Proofs.Decomposition.Relisting

/-! # Decompositions of relisted models

Two models that list the same indices in different orders have the same decompositions. The blocks
come in the same order, equal blocks sort the same keys, and so every image has the same place in
both. Models, tables and registries then agree, up to the spelling of the ids.
-/

namespace BlockAngular

open Decomposition

/-- Lists that belong together are made of members that do. -/
theorem forall₂_mem {α β : Type} {R : α → β → Prop} {as : List α} {bs : List β}
    (h : List.Forall₂ R as bs) : List.Forall₂ (fun a b => a ∈ as ∧ b ∈ bs ∧ R a b) as bs := by
  induction h with
  | nil => exact .nil
  | cons first _ ih =>
      exact .cons ⟨List.mem_cons_self, List.mem_cons_self, first⟩ (ih.imp fun _ _ related =>
        ⟨List.mem_cons_of_mem _ related.1, List.mem_cons_of_mem _ related.2.1, related.2.2⟩)

/-- Members that belong together have the same numbers. -/
theorem forall₂_zipIdx {α β : Type} {R : α → β → Prop} {as : List α} {bs : List β}
    (h : List.Forall₂ R as bs) (first : Nat) :
    List.Forall₂ (fun a b => R a.1 b.1 ∧ b.2 = a.2) (as.zipIdx first) (bs.zipIdx first) := by
  induction h generalizing first with
  | nil => exact .nil
  | cons related _ ih => exact .cons ⟨related, rfl⟩ (ih (first + 1))

/-- The keys of a block have the same places if the rows are listed in another order. -/
theorem Slice.Reorders.sliceOf {slice slice' : Slice} (h : slice.Reorders slice')
    (names : (slice.map (·.1)).Nodup) {keys keys' : List Key} (listed : keys = slice.keys)
    (listed' : keys' = slice'.keys) (distinct : Key.Distinct keys)
    (simple : ∀ key ∈ keys, Value.allSimple key.index = true) {blockOf : Key → Block}
    {block block' : Block} (same : ∀ key ∈ keys, (blockOf key).same block' = (blockOf key).same block) :
    Slice.sorted (KeyTable.sliceOf (keys'.map fun key => (key, blockOf key)) block') =
      Slice.sorted (KeyTable.sliceOf (keys.map fun key => (key, blockOf key)) block) := by
  obtain rfl := listed
  obtain rfl := listed'
  have keysOf (keys : List Key) (block : Block) :
      KeyTable.keysOf (keys.map fun key => (key, blockOf key)) block =
        keys.filter fun key => (blockOf key).same block := by
    simp [KeyTable.keysOf, List.filter_map, Function.comp_def]
  have kept : (slice'.keys.filter fun key => (blockOf key).same block') =
      slice'.keys.filter fun key => (blockOf key).same block :=
    List.filter_congr fun key hk => same key (h.keys.mem_iff.mp hk)
  rw [KeyTable.sliceOf, KeyTable.sliceOf, keysOf, keysOf, kept,
    ofKeys_filter _ (h.names ▸ names) (distinct.perm h.keys.symm), ofKeys_filter _ names distinct]
  refine Reorders.sorted (h.only _) ?_ fun key hk => ?_
  · rw [keys_only]
    exact distinct.sublist List.filter_sublist
  · rw [keys_only] at hk
    exact simple key (List.mem_filter.mp hk).1

/-- Two registries that list the same images in the same order, for equal blocks. The preimages
may have other names. -/
structure Registry.Agrees (place : Handle → Handle) (registry registry' : Registry) : Prop where
  registrations : List.Forall₂ (fun e e' => e'.preimage = place e.preimage ∧ e'.image = e.image ∧
    e.block.same e'.block = true) registry.registrations registry'.registrations
  owners : List.Forall₂ (fun e e' => e'.1 = e.1 ∧ e.2.same e'.2 = true) registry.owners registry'.owners

/-- What is registered block by block agrees where the blocks have the same places. -/
theorem Registry.Covers.agrees {registry registry' : Registry} {first : Nat} {m m' : Model}
    {ids ids' : List Value} {table table' : KeyTable} {place : Handle → Handle}
    (h : registry.Covers first m ids table) (h' : registry'.Covers first m' ids' table')
    (related : List.Forall₂ (fun b b' => b.1.same b'.1 = true ∧ b'.2 = b.2 ∧
      (table'.sliceOf b'.1).places = (table.sliceOf b.1).places) (numbered ids) (numbered ids'))
    (preimages : ∀ key ∈ table.map (·.1), m'.preimageOf key = place (m.preimageOf key)) :
    registry.Agrees place registry' := by
  have registrations : List.Forall₂ (fun e e' => e'.preimage = place e.preimage ∧
      e'.image = e.image ∧ e.block.same e'.block = true) registry.registrations
        registry'.registrations := by
    rw [h.registered.registrations, h'.registered.registrations]
    simp only [Registry.empty, List.nil_append, placements]
    refine List.rel_flatMap related fun b b' alike => ?_
    obtain ⟨same, number, places⟩ := alike
    rw [Slice.imagesIn, Slice.imagesIn, places, number, List.map_map, List.map_map,
      List.forall₂_map_left_iff, List.forall₂_map_right_iff, List.forall₂_same]
    intro position hp
    have listed := (Slice.places_keys_perm _).mem_iff.mp (List.mem_map_of_mem (f := (·.1)) hp)
    obtain ⟨own, he, -⟩ := h.sound.mem_sliceOf.mp listed
    exact ⟨preimages _ (List.mem_map_of_mem (f := (·.1)) he), rfl, same⟩
  refine ⟨registrations, ?_⟩
  rw [h.faithful.owners_eq, h'.faithful.owners_eq, List.forall₂_map_left_iff,
    List.forall₂_map_right_iff]
  exact registrations.imp fun _ _ alike => alike.2

/-- Two pricing problems that differ in the spelling of the id alone. -/
structure Subproblem.Agrees (s s' : Subproblem) : Prop where
  id : s.id.same s'.id = true
  names : s.model.name = modelName (.subproblem s.id) ∧ s'.model.name = modelName (.subproblem s'.id)
  number : s'.model.id = s.model.id
  contents : s'.model.contents = s.model.contents
  coupling : s'.coupling = s.coupling
  costs : s'.costs = s.costs

namespace Reformulation

/-- Two results that differ in the spelling of the ids alone: the order of the subproblems, of
components, elements and terms, the tables and the registries are the same. -/
structure Agrees (r r' : Reformulation) (m m' : Model) (config : Config) : Prop where
  master : r'.master.id = r.master.id ∧ r'.master.name = r.master.name ∧
    ∃ contents, r.master.contents = contents ++ convexityContents config r.ids .master ∧
      r'.master.contents = contents ++ convexityContents config r'.ids .master
  subproblems : List.Forall₂ Subproblem.Agrees r.subproblems r'.subproblems
  convexityLower : List.Forall₂ (fun e e' => e.1.same e'.1 = true ∧ e'.2 = e.2)
    r.convexityLower r'.convexityLower
  convexityUpper : List.Forall₂ (fun e e' => e.1.same e'.1 = true ∧ e'.2 = e.2)
    r.convexityUpper r'.convexityUpper
  vars : r.vars.Agrees (m.relisted m') r'.vars
  constraints : r.constraints.Agrees (m.relisted m') r'.constraints

namespace Trace

variable {first : Nat} {m m' : Model} {classify : Classify} {config : Config} {r r' : Reformulation}
variable (h : r.Trace first m classify config) (h' : r'.Trace first m' classify config)
  (lists : m.Relists m') (simple : IsSimple m classify)
include h h' lists simple

/-- The ids come in the same order. -/
theorem relisted_ids :
    List.Forall₂ (fun id id' => Value.same id id' = true) r.ids r'.ids := by
  have simple' := simple.relists lists
  have keys : ∀ key, key ∈ m'.variableKeys ++ m'.constraintKeys ↔
      key ∈ m.variableKeys ++ m.constraintKeys := fun key =>
    (lists.variableKeys_perm.append lists.constraintKeys_perm).mem_iff
  have used : ∀ id, id ∈ r'.assignment.ids ↔ id ∈ r.assignment.ids := fun id => by
    simp only [simple'.mem_ids h'.assigned, simple.mem_ids h.assigned, keys]
  obtain ⟨raw, sorted⟩ : ∃ raw, r.ids = Value.sortIds raw := ⟨_, h.ids_eq⟩
  obtain ⟨raw', sorted'⟩ : ∃ raw, r'.ids = Value.sortIds raw := ⟨_, h'.ids_eq⟩
  have listed : ∀ id, id ∈ raw ↔ id ∈ r.ids := fun id =>
    sorted ▸ (Value.sortIds_perm raw).mem_iff.symm
  have listed' : ∀ id, id ∈ raw' ↔ id ∈ r'.ids := fun id =>
    sorted' ▸ (Value.sortIds_perm raw').mem_iff.symm
  have distinct := sorted ▸ h.ids_distinct
  have distinct' := sorted' ▸ h'.ids_distinct
  rw [sorted, sorted']
  refine Value.sortIds_forall₂ (fun id hid => ?_) (fun id hid => ?_)
    (distinct.perm (Value.sortIds_perm raw)) (distinct'.perm (Value.sortIds_perm raw'))
    (fun id hid => ?_) fun id hid => ?_
  · obtain ⟨key, hk, resolved⟩ :=
      (simple.mem_ids h.assigned).mp (h.mem_assignment_ids ((listed id).mp hid))
    exact simple.ids key hk id resolved
  · obtain ⟨key, hk, resolved⟩ :=
      (simple'.mem_ids h'.assigned).mp (h'.mem_assignment_ids ((listed' id).mp hid))
    exact simple'.ids key hk id resolved
  · obtain ⟨own, hown, same⟩ :=
      h'.exists_id ((used id).mpr (h.mem_assignment_ids ((listed id).mp hid)))
    exact ⟨own, (listed' own).mpr hown, Value.same_symm (h'.ids_distinct.keys own hown).hashable same⟩
  · obtain ⟨own, hown, same⟩ :=
      h.exists_id ((used id).mp (h'.mem_assignment_ids ((listed' id).mp hid)))
    exact ⟨own, (listed own).mpr hown, same⟩

/-- The blocks come in the same order. -/
theorem relisted_numbered : List.Forall₂ (fun b b' => b ∈ numbered r.ids ∧ b' ∈ numbered r'.ids ∧
    b.1.same b'.1 = true ∧ b'.2 = b.2) (numbered r.ids) (numbered r'.ids) := by
  have subproblems : List.Forall₂ (fun block block' => Block.same block block' = true)
      (r.ids.map .subproblem) (r'.ids.map .subproblem) :=
    List.forall₂_map_left_iff.mpr (List.forall₂_map_right_iff.mpr (h.relisted_ids h' lists simple))
  have all : List.Forall₂ (fun block block' => Block.same block block' = true) (blocks r.ids)
      (blocks r'.ids) := .cons rfl subproblems
  exact forall₂_mem (forall₂_zipIdx all 0)

/-- Equal blocks have the same number. -/
theorem relisted_number {b b' : Block × Nat} (hb : b ∈ numbered r.ids) (hb' : b' ∈ numbered r'.ids)
    (same : b.1.same b'.1 = true) : b'.2 = b.2 := by
  obtain ⟨own, -, -, hown, equal, number⟩ :=
    (exists_of_forall₂ (h.relisted_numbered h' lists simple)).1 b hb
  have isKey := blocks_isKey h.ids_distinct (block_mem hb)
  have isKey' := blocks_isKey h'.ids_distinct (block_mem hb')
  rw [numbered_unique h'.ids_distinct hb' hown
    (Block.same_trans isKey' (Block.same_symm isKey same) equal), number]

section Blocks

variable (regular : m.Regular) {b b' : Block × Nat} (hb : b ∈ numbered r.ids)
  (hb' : b' ∈ numbered r'.ids) (same : b.1.same b'.1 = true)
include regular hb same

omit h' lists regular in
/-- A key that goes to a block goes to an equal one. -/
theorem same_blockOf {key : Key} (hk : key ∈ m.variableKeys ++ m.constraintKeys) :
    (classify.blockOf key).same b'.1 = (classify.blockOf key).same b.1 := by
  obtain ⟨vars, constraints⟩ := simple.assignment h.assigned
  have isKey : (classify.blockOf key).IsKey := by
    rcases List.mem_append.mp hk with hk | hk
    · exact h.sound.vars.blocks (key, _) (by rw [vars]; exact List.mem_map_of_mem hk)
    · exact h.sound.constraints.blocks (key, _) (by rw [constraints]; exact List.mem_map_of_mem hk)
  have isKeyB := blocks_isKey h.ids_distinct (block_mem hb)
  exact Bool.eq_iff_iff.mpr
    ⟨fun there => Block.same_trans isKey there (Block.same_symm isKeyB same),
      fun there => Block.same_trans isKey there same⟩

/-- Equal blocks have the same variables in the same places. -/
theorem relisted_columns : (r'.assignment.vars.sliceOf b'.1).sorted =
    (r.assignment.vars.sliceOf b.1).sorted := by
  rw [(simple.assignment h.assigned).1, ((simple.relists lists).assignment h'.assigned).1]
  refine lists.variableKeys.sliceOf ?_ m.variableKeys_eq m'.variableKeys_eq
    regular.toWellFormed.variableKeys_distinct
    (fun key hk => simple.indices key (List.mem_append_left _ hk))
    fun key hk => h.same_blockOf simple hb same (List.mem_append_left _ hk)
  rw [List.map_map]
  exact regular.names_nodup

/-- Equal blocks have the same constraints in the same places. -/
theorem relisted_rows : (r'.assignment.constraints.sliceOf b'.1).sorted =
    (r.assignment.constraints.sliceOf b.1).sorted := by
  rw [(simple.assignment h.assigned).2, ((simple.relists lists).assignment h'.assigned).2]
  refine lists.constraintKeys.sliceOf ?_ m.constraintKeys_eq m'.constraintKeys_eq
    regular.toWellFormed.constraintKeys_distinct
    (fun key hk => simple.indices key (List.mem_append_right _ hk))
    fun key hk => h.same_blockOf simple hb same (List.mem_append_right _ hk)
  rw [List.map_map]
  exact regular.names_nodup

include hb'

theorem relisted_follows :
    r.vars.Follows m m' (m.relisted m') r'.vars b.1 b'.1 (first + b'.2) := by
  refine h.follows_of_places h' regular.toWellFormed (lists.regular regular).toWellFormed hb hb'
    (fun key hk => lists.preimageOf_variable regular hk) ?_
  rw [← Slice.places_sorted, h.relisted_columns h' lists simple regular hb same,
    Slice.places_sorted]

/-- Equal blocks contain the same. -/
theorem relisted_contents : r'.ordinaryContents m' config b'.1 = r.ordinaryContents m config b.1 := by
  have wf := regular.toWellFormed
  have follows := h.relisted_follows h' lists simple regular hb hb' same
  have master : b'.1.isMaster = b.1.isMaster := by
    cases own : b.1 <;> cases own' : b'.1 <;> simp_all [Block.same, Block.isMaster]
  have columns := h.relisted_columns h' lists simple regular hb same
  have rows := h.relisted_rows h' lists simple regular hb same
  rw [← h.variablesOf_eq, ← h'.variablesOf_eq] at columns
  rw [← h.constraintsOf_eq, ← h'.constraintsOf_eq] at rows
  rw [h.ordinaryContents_follows h' wf (lists.regular regular).toWellFormed follows columns
    (fun key hk => lists.boundedVariable regular (h.declared_column (h.variablesOf_eq b.1 ▸ hk))) rows
    (fun key hk => lists.readConstraint regular (h.declared_row (h.constraintsOf_eq b.1 ▸ hk)))
    (lists.readObjective regular config) master, h.relisted_number h' lists simple hb hb' same]
  exact (h.ordinaryContents_self wf hb).symm

end Blocks

section Images

variable (regular : m.Regular)
include regular

/-- Every variable has the same image. -/
theorem relisted_image {v : Handle} (known : v ∈ m.vars.map (·.2)) :
    Expression.nameOf r'.vars.image? (m.relisted m' v) = Expression.nameOf r.vars.image? v := by
  have wf := regular.toWellFormed
  obtain ⟨key, own, he, rfl⟩ := h.exists_annotated wf known
  obtain ⟨b, hb, -, image, placed⟩ := h.vars_covers.exists_image he
  obtain ⟨b', -, -, hb', same, number⟩ :=
    (exists_of_forall₂ (h.relisted_numbered h' lists simple)).1 b hb
  obtain ⟨⟨_, position⟩, place, equal⟩ := List.mem_map.mp placed
  cases equal
  have sent := h.image_of_place hb place
  rw [(h.relisted_follows h' lists simple regular hb hb' same).place _ known sent.1, sent.2, number]
  rfl

/-- Equal blocks have the same images. -/
theorem relisted_livesIn {v : Handle} (known : v ∈ m.vars.map (·.2)) {b b' : Block × Nat}
    (hb : b ∈ numbered r.ids) (hb' : b' ∈ numbered r'.ids) (same : b.1.same b'.1 = true) :
    r'.vars.livesIn b'.1 (Expression.nameOf r.vars.image? v) =
      r.vars.livesIn b.1 (Expression.nameOf r.vars.image? v) := by
  have follows := h.relisted_follows h' lists simple regular hb hb' same
  rw [((h.hasImages regular.toWellFormed).of_known known).2, ← follows.sends v known,
    ← (follows.images'.of_known (follows.declared v known)).2,
    h.relisted_image h' lists simple regular known]

theorem relisted_vars : r.vars.Agrees (m.relisted m') r'.vars := by
  refine h.vars_covers.agrees h'.vars_covers
    ((h.relisted_numbered h' lists simple).imp fun b b' related => ?_) fun key hk => ?_
  · obtain ⟨hb, -, same, number⟩ := related
    refine ⟨same, number, ?_⟩
    rw [← Slice.places_sorted, h.relisted_columns h' lists simple regular hb same,
      Slice.places_sorted]
  · rw [(Model.assignment_keys h.assigned).1] at hk
    exact (lists.preimageOf_variable regular hk).2

theorem relisted_constraints : r.constraints.Agrees (m.relisted m') r'.constraints := by
  refine h.constraints_covers.agrees h'.constraints_covers
    ((h.relisted_numbered h' lists simple).imp fun b b' related => ?_) fun key hk => ?_
  · obtain ⟨hb, -, same, number⟩ := related
    refine ⟨same, number, ?_⟩
    rw [← Slice.places_sorted, h.relisted_rows h' lists simple regular hb same,
      Slice.places_sorted]
  · rw [(Model.assignment_keys h.assigned).2] at hk
    exact (lists.preimageOf_constraint regular hk).2

/-- The objective over the images is the same. -/
theorem relisted_objective : r'.objective.map (·.form) = r.objective.map (·.form) := by
  have wf := regular.toWellFormed
  rw [h.objective_eq wf, h'.objective_eq (lists.regular regular).toWellFormed]
  have read := lists.readObjective regular config
  have known : ∀ o ∈ m.readObjective, ∀ v ∈ o.form.vars, v ∈ m.vars.map (·.2) :=
    fun o ho => Model.readObjective_vars ho
  generalize m.readObjective = own at read known ⊢
  generalize m'.readObjective = own' at read ⊢
  cases read with
  | none => rfl
  | @some o o' follows =>
      have composed : (o.form.rename (m.relisted m')).rename (Expression.nameOf r'.vars.image?) =
          o.form.rename fun v => Expression.nameOf r'.vars.image? (m.relisted m' v) := by
        simp [AffineForm.rename, Function.comp_def]
      simp only [Option.map_some, follows.form, composed]
      exact congrArg some (AffineForm.rename_congr fun v hv =>
        h.relisted_image h' lists simple regular (known o rfl v hv))

/-- The constraints of the master have the same terms over the images. -/
theorem relisted_entries : (masterTransfers r'.transfers).flatMap Transfer.entries =
    (masterTransfers r.transfers).flatMap Transfer.entries := by
  have wf := regular.toWellFormed
  have places : (r'.partition.constraintsOf .master).places =
      (r.partition.constraintsOf .master).places := by
    have same : ((Block.master, 0) : Block × Nat).1.same ((Block.master, 0) : Block × Nat).1 = true :=
      rfl
    have rows := h.relisted_rows h' lists simple regular (master_numbered r.ids) same
    rw [← h.constraintsOf_eq, ← h'.constraintsOf_eq] at rows
    rw [← Slice.places_sorted, rows, Slice.places_sorted]
  rw [h.masterTransfers_entries wf, h'.masterTransfers_entries (lists.regular regular).toWellFormed,
    masterTerms, masterTerms, places, List.map_flatMap, List.map_flatMap]
  refine List.flatMap_congr fun place hp => ?_
  rw [h.constraintsOf_eq] at hp
  have listed := (Slice.places_keys_perm _).mem_iff.mp (List.mem_map_of_mem (f := (·.1)) hp)
  rw [lists.rowTerms regular first (h.declared_row listed), List.map_map]
  refine List.map_congr_left fun e he => ?_
  exact congrArg (fun image => (e.1, image, e.2.2))
    (h.relisted_image h' lists simple regular (Model.rowTerms_known e he))

/-- Pricing problems of equal ids agree. -/
theorem relisted_subproblem {s s' : Subproblem} (hs : s ∈ r.subproblems) (hs' : s' ∈ r'.subproblems)
    (same : s.id.same s'.id = true) : s.Agrees s' := by
  have wf := regular.toWellFormed
  have wf' := (lists.regular regular).toWellFormed
  have listed (s : Subproblem) {q : Reformulation} (hs : s ∈ q.subproblems) :
      (Block.subproblem s.id, s.model) ∈ q.targets :=
    List.mem_cons_of_mem _ (List.mem_map_of_mem (f := fun s => (Block.subproblem s.id, s.model)) hs)
  obtain ⟨number, hb, built⟩ := h.exists_built wf (listed s hs)
  obtain ⟨number', hb', built'⟩ := h'.exists_built wf' (listed s' hs')
  have lives {v : Handle} (known : v ∈ m.vars.map (·.2)) :=
    h.relisted_livesIn h' lists simple regular known hb hb' same
  have equal : number' = number := h.relisted_number h' lists simple hb hb' same
  refine ⟨same, ⟨built.name, built'.name⟩, ?_, ?_, ?_, ?_⟩
  · rw [built.id, built'.id, equal]
  · rw [built.contents, built'.contents]
    exact congrArg (· ++ []) (h.relisted_contents h' lists simple regular hb hb' same)
  · rw [h.coupling_eq hs, h'.coupling_eq hs', CouplingTable.ofTransfers, CouplingTable.ofTransfers,
      h.relisted_entries h' lists simple regular]
    refine congrArg CouplingTable.ofEntries (List.filter_congr fun e he => ?_)
    rw [h.masterTransfers_entries wf] at he
    obtain ⟨term, ht, rfl⟩ := List.mem_map.mp he
    exact lives (masterTerms_known term ht)
  · have objective := h.relisted_objective h' lists simple regular
    cases own : r.objective with
    | none =>
        rw [own] at objective
        rw [h.costs_eq_nil own hs, h'.costs_eq_nil (Option.map_eq_none_iff.mp objective) hs']
    | some o =>
        obtain ⟨o', own', form⟩ := Option.map_eq_some_iff.mp (objective.trans (congrArg _ own))
        rw [h.costs_eq own (h.objective_nodup own) hs, h'.costs_eq own' (h'.objective_nodup own') hs',
          form]
        refine List.filter_congr fun term ht => ?_
        obtain ⟨read, there, rfl⟩ := Option.map_eq_some_iff.mp ((h.objective_eq wf).symm.trans own)
        obtain ⟨original, ho, rfl⟩ := List.mem_map.mp ht
        exact lives (Model.readObjective_vars there _ (List.mem_map_of_mem (f := (·.1)) ho))

end Images

end Trace

end Reformulation

namespace Decomposition

theorem rowsFor_agree {ids ids' : List Value}
    (same : List.Forall₂ (fun id id' => Value.same id id' = true) ids ids') (number : Nat) (name : String) :
    List.Forall₂ (fun e e' => e.1.same e'.1 = true ∧ e'.2 = e.2) (Convexity.rowsFor number name ids)
      (Convexity.rowsFor number name ids') := by
  rw [Convexity.rowsFor, Convexity.rowsFor, List.forall₂_map_left_iff, List.forall₂_map_right_iff]
  exact (forall₂_zipIdx same 0).imp fun _ _ related =>
    ⟨related.1, congrArg (Handle.mk number name) related.2⟩

/-- The order in which a model lists the indices of its variables and constraints has no influence
on its decomposition. -/
theorem decompose_relists {first : Nat} {m m' : Model} {classify : Classify} {config : Config}
    (regular : m.Regular) (lists : m.Relists m') (simple : IsSimple m classify) :
    ((∃ r, decompose first m classify config = .ok r) ↔
        ∃ r', decompose first m' classify config = .ok r') ∧
      ∀ r r', decompose first m classify config = .ok r →
        decompose first m' classify config = .ok r' → r.Agrees r' m m' config := by
  have wf := regular.toWellFormed
  have regular' := lists.regular regular
  have wf' := regular'.toWellFormed
  constructor
  · rw [exists_decompose_iff_isDecomposable regular simple,
      exists_decompose_iff_isDecomposable regular' (simple.relists lists)]
    exact (isDecomposable_relists lists regular).symm
  intro r r' made made'
  have h := decompose_trace wf made
  have h' := decompose_trace wf' made'
  have ids := h.relisted_ids h' lists simple
  have master := master_numbered r.ids
  have master' := master_numbered r'.ids
  have built := h.master_built wf
  have built' := h'.master_built wf'
  obtain ⟨lowerName, upperName, lowerNamed, upperNamed, lower, upper⟩ := h.rows
  obtain ⟨lowerName', upperName', lowerNamed', upperNamed', lower', upper'⟩ := h'.rows
  obtain rfl := Value.str.inj (lowerNamed.symm.trans lowerNamed')
  obtain rfl := Value.str.inj (upperNamed.symm.trans upperNamed')
  refine {
    master := ⟨built'.id.trans built.id.symm, built'.name.trans built.name.symm, _, built.contents, ?_⟩
    subproblems := ?_
    convexityLower := by rw [lower, lower']; exact rowsFor_agree ids first lowerName
    convexityUpper := by rw [upper, upper']; exact rowsFor_agree ids first upperName
    vars := h.relisted_vars h' lists simple regular
    constraints := h.relisted_constraints h' lists simple regular }
  · rw [built'.contents]
    exact congrArg (· ++ _) (h.relisted_contents h' lists simple regular master master' rfl)
  · rw [Reformulation.ids, Reformulation.ids, List.forall₂_map_left_iff,
      List.forall₂_map_right_iff] at ids
    exact (forall₂_mem ids).imp fun s s' related =>
      h.relisted_subproblem h' lists simple regular related.1 related.2.1 related.2.2

end Decomposition

/-- The same model with its variables listed the other way round. -/
def turnedColumns : Model where
  id := 0
  name := "two_columns"
  components := [
    ⟨"x", .vars ⟨true, [(.int 2, some .free), (.int 1, some .free)]⟩, []⟩,
    ⟨"link", .constraints true (.scalar ⟨.linear (.int 1) [(⟨0, "x", 1⟩, .int 2),
      (⟨0, "x", 0⟩, .int 3)], none, some (.number (.int 4)), false, true⟩), []⟩,
    ⟨"own", .constraints true ⟨true, [(.int 1, some ⟨.variable ⟨0, "x", 1⟩, none,
      some (.number (.int 3)), false, true⟩)]⟩, []⟩,
    ⟨"cost", .objectives true (.scalar ⟨.sum [.variable ⟨0, "x", 1⟩, .variable ⟨0, "x", 0⟩],
      .minimize, true⟩), []⟩]

theorem twoColumns_relists : twoColumns.Relists turnedColumns where
  id := rfl
  name := rfl
  components := by
    have first : twoColumns.relisted turnedColumns ⟨0, "x", 0⟩ = ⟨0, "x", 1⟩ := by decide +kernel
    have second : twoColumns.relisted turnedColumns ⟨0, "x", 1⟩ = ⟨0, "x", 0⟩ := by decide +kernel
    refine .cons ⟨rfl, .vars ⟨rfl, .swap _ _ _⟩⟩ (.cons ⟨rfl, .constraints ⟨rfl, .of_eq ?_⟩⟩
      (.cons ⟨rfl, .constraints ⟨rfl, .of_eq ?_⟩⟩ (.cons ⟨rfl, ?_⟩ .nil)))
    · simp [Family.map, Family.scalar, Constraint.rename, Expression.rename, first, second]
    · simp [Family.map, Constraint.rename, Expression.rename, first]
    · have body : Content.objectives true (.scalar ⟨.sum [.variable ⟨0, "x", 1⟩,
          .variable ⟨0, "x", 0⟩], .minimize, true⟩) = .objectives true ((Family.scalar
            ⟨.sum [.variable ⟨0, "x", 0⟩, .variable ⟨0, "x", 1⟩], .minimize, true⟩).map
              (Objective.rename (twoColumns.relisted turnedColumns))) := by
        simp [Family.map, Family.scalar, Objective.rename, Expression.rename, Expression.renameAll,
          first, second]
      rw [body]
      exact .objectives

theorem twoColumns_isSimple : Decomposition.IsSimple twoColumns eachApart := by
  have indices : ∀ key ∈ twoColumns.variableKeys ++ twoColumns.constraintKeys,
      Value.allSimple key.index = true := by
    refine List.all_eq_true.mp (show List.all _ (fun key : Key => Value.allSimple key.index) = true
      by decide +kernel)
  refine ⟨indices, fun key hk id resolved => ?_⟩
  have own := indices key hk
  unfold Classify.resolve eachApart at resolved
  split at resolved <;> split at * <;> simp_all [Value.allSimple]

/-- The order of the variables is forgotten. -/
theorem twoColumns_turned : twoColumns.Regular ∧ twoColumns.Relists turnedColumns ∧
    Decomposition.IsSimple twoColumns eachApart ∧
    ∃ r, Decomposition.decompose 1 twoColumns eachApart .standard = .ok r ∧
      ∃ r', Decomposition.decompose 1 turnedColumns eachApart .standard = .ok r' ∧
        r.Agrees r' twoColumns turnedColumns .standard := by
  obtain ⟨succeeds, agree⟩ := @Decomposition.decompose_relists 1 _ _ _ .standard twoColumns_regular
    twoColumns_relists twoColumns_isSimple
  obtain ⟨r, made⟩ := eachApart_decomposes
  obtain ⟨r', made'⟩ := succeeds.mp ⟨r, made⟩
  exact ⟨twoColumns_regular, twoColumns_relists, twoColumns_isSimple, r, made, r', made',
    agree r r' made made'⟩

end BlockAngular
