import BlockAngular.Proofs.Decomposition.Followers

/-! # Ids are opaque

Two decompositions of a model, the second one with new ids for the blocks, have the same master
but for its convexity constraints. The tables of a new id are the unions of those of the ids
that it stands for, and where no two ids become one, the subproblems are the same.
-/

namespace BlockAngular

open Decomposition

namespace Registry.Covers

variable {vars vars' : Registry} {first : Nat} {m : Model} {ids ids' used : List Value}
variable {table : KeyTable} {f : Value → Value}

/-- An element moves from its block to the block of the new id, and an element of the master
keeps its place. -/
theorem moves (h : vars.Covers first m ids table) (h' : vars'.Covers first m ids' (table.relabel f))
    (new : NewIds f used) (listed : ids ⊆ used) {key : Key} {own : Block}
    (he : (key, own) ∈ table) (within : ∀ id, own = .subproblem id → id ∈ used) :
    ∃ b ∈ numbered ids, ∃ b' ∈ numbered ids', ∃ image image',
      (key, image) ∈ (table.sliceOf b.1).imagesIn (first + b.2) ∧
      (key, image') ∈ ((table.relabel f).sliceOf b'.1).imagesIn (first + b'.2) ∧
      b'.1.same (b.1.relabel f) = true ∧ (b.1 = .master → image' = image) := by
  obtain ⟨b, hb, same, image, placed⟩ := h.exists_image he
  obtain ⟨b', hb', same', image', placed'⟩ :=
    h'.exists_image (List.mem_map.mpr ⟨(key, own), he, rfl⟩)
  have used_b : ∀ id, b.1 = .subproblem id → id ∈ used := by
    intro id equal
    have there := block_mem hb
    rw [equal] at there
    exact listed (by simpa [Decomposition.blocks] using there)
  have moved := Block.same_trans (blocks_isKey h'.ids_distinct (block_mem hb')) same'
    (Block.same_symm (new.relabel_isKey used_b) (new.relabel_same used_b within same))
  refine ⟨b, hb, b', hb', image, image', placed, placed', moved, fun master => ?_⟩
  -- both images are in the slice of the master, which stays what it is
  obtain rfl : b = (.master, 0) := numbered_unique h.ids_distinct hb (master_numbered ids)
    (by rw [master]; rfl)
  obtain rfl : b' = (.master, 0) := numbered_unique h'.ids_distinct hb' (master_numbered ids') moved
  have slices : (table.relabel f).sliceOf .master = table.sliceOf .master :=
    congrArg Slice.ofKeys (KeyTable.follows_master f table).keysOf
  rw [← slices] at placed
  exact Option.some.inj ((h'.image?_eq hb' placed').symm.trans (h'.image?_eq hb' placed))

end Registry.Covers

namespace Reformulation

/-- The subproblems of the ids that become a new one. -/
def mergedInto (r : Reformulation) (f : Value → Value) (id : Value) : List Subproblem :=
  r.subproblems.filter fun s => (f s.id).same id

/-- An element with a key has an image with this key in two decompositions; the second one is in
the block of the new id, and is the first one if that is in the master. -/
def Moves (r r' : Reformulation) (f : Value → Value) (registry : Reformulation → Registry)
    (elements : Model → List (Key × Handle)) (key : Key) (handle : Handle) : Prop :=
  ∃ block target image block' target' image',
    (registry r).image? handle = some image ∧ (registry r).owner? handle = some block ∧
    (block, target) ∈ r.targets ∧ (key, image) ∈ elements target ∧
    (registry r').image? handle = some image' ∧ (registry r').owner? handle = some block' ∧
    (block', target') ∈ r'.targets ∧ (key, image') ∈ elements target' ∧
    block'.same (block.relabel f) = true ∧ (block = .master → image' = image)

/-- A decomposition and the one with new ids, of which some may be equal. -/
structure Merges (r r' : Reformulation) (m : Model) (config : Config) (f : Value → Value) :
    Prop where
  ids : (∀ s ∈ r.ids, ∃ t ∈ r'.ids, (f s).same t = true) ∧
    ∀ t ∈ r'.ids, ∃ s ∈ r.ids, (f s).same t = true
  /-- The masters differ in their convexity constraints alone. -/
  master : r'.master.id = r.master.id ∧ r'.master.name = r.master.name ∧
    ∃ contents, r.master.contents = contents ++ convexityContents config r.ids .master ∧
      r'.master.contents = contents ++ convexityContents config r'.ids .master
  vars : ∀ key handle, (key, handle) ∈ m.vars →
    r.Moves r' f (·.vars) Model.vars key handle
  constraints : ∀ key handle, (key, handle) ∈ m.constraints →
    r.Moves r' f (·.constraints) Model.allConstraints key handle
  /-- The tables of a new id have the entries of those of the old ids, with the same numbers and
      the same constraints of the master. -/
  costs : ∀ t ∈ r'.subproblems, (t.originalCosts r'.vars).Perm
    ((r.mergedInto f t.id).flatMap fun s => s.originalCosts r.vars)
  couplings : ∀ t ∈ r'.subproblems, (t.originalCoupling r'.vars).Perm
    ((r.mergedInto f t.id).flatMap fun s => s.originalCoupling r.vars)
  /-- If different ids get different ones, the subproblems stay what they are. -/
  subproblems : (∀ id ∈ r.assignment.ids, ∀ id' ∈ r.assignment.ids,
      (f id).same (f id') = true → id.same id' = true) →
    ∀ s ∈ r.subproblems, ∃ t ∈ r'.subproblems, (f s.id).same t.id = true ∧
      t.model.contents = s.model.contents.map fun (name, c) => (name, c.renumber t.model.id)

end Reformulation

namespace Reformulation.Trace

variable {first : Nat} {m : Model} {classify : Classify} {config : Config} {r r' : Reformulation}

theorem subproblems_nodup (h : r.Trace first m classify config) :
    (r.subproblems.map (·.id)).Nodup :=
  h.ids_distinct.pairwise.imp_of_mem fun {a b} ha _ different equal => by
    subst equal
    simp [(h.ids_distinct.keys a ha).same_self] at different

/-- A target is the model of a block, with a number, a name and what the block has. -/
theorem exists_built (h : r.Trace first m classify config) (wf : m.WellFormed) {block : Block}
    {target : Model} (ht : (block, target) ∈ r.targets) : ∃ number,
      (block, number) ∈ numbered r.ids ∧ Built first (block, number)
        (r.ordinaryContents m config block ++ convexityContents config r.ids block) target := by
  obtain ⟨⟨_, number⟩, hb, rfl, built⟩ := (exists_of_forall₂ (h.targets_built wf)).2 _ ht
  exact ⟨number, hb, built⟩

theorem master_built (h : r.Trace first m classify config) (wf : m.WellFormed) :
    Built first (.master, 0) (r.ordinaryContents m config .master ++
      convexityContents config r.ids .master) r.master := by
  obtain ⟨number, hb, built⟩ := h.exists_built wf List.mem_cons_self
  obtain rfl : number = 0 := congrArg Prod.snd
    (numbered_unique h.ids_distinct hb (master_numbered r.ids) rfl)
  exact built

section TwoRuns

variable {f : Value → Value} (h : r.Trace first m classify config)
  (h' : r'.Trace first m (classify.relabel f) config) (new : NewIds f r.assignment.ids)
include h h' new

/-- Of a table over the variables a new id has what the ids have that it stands for. -/
theorem union_perm (wf : m.WellFormed) {α : Type} {table : List (Handle × α)}
    (known : ∀ e ∈ table, e.1 ∈ m.vars.map (·.2)) (id : Value) :
    (table.filter fun (v, _) => r'.vars.sends (.subproblem id) v).Perm
      ((r.subproblems.filter fun s => (f s.id).same id).flatMap fun s =>
        table.filter fun (v, _) => r.vars.sends (.subproblem s.id) v) := by
  have one : ∀ e ∈ table.filter fun (v, _) => r'.vars.sends (.subproblem id) v,
      ∃ s ∈ r.subproblems.filter fun s => (f s.id).same id,
        r.vars.sends (.subproblem s.id) e.1 = true ∧
          ∀ s' ∈ r.subproblems.filter fun s => (f s.id).same id,
            r.vars.sends (.subproblem s'.id) e.1 = true → s' = s := by
    intro e he
    obtain ⟨listed, sent⟩ := List.mem_filter.mp he
    obtain ⟨key, own, annotated, equal⟩ := h.exists_annotated wf (known e listed)
    simp only [equal, (h.sends_relabel h' new annotated _).1,
      (h.sends_relabel h' new annotated _).2] at sent ⊢
    cases own with
    | master => cases sent
    | subproblem own =>
        have used := Assignment.mem_ids_of_vars annotated own rfl
        have isKey : own.IsKey := h.sound.vars.blocks _ annotated
        obtain ⟨_, spelled, same⟩ := h.exists_id used
        obtain ⟨s, hs, rfl⟩ := List.mem_map.mp spelled
        have hid := List.mem_map_of_mem (f := Subproblem.id) hs
        have moved := new.congr s.id (h.mem_assignment_ids hid) own used same
        refine ⟨s, List.mem_filter.mpr ⟨hs, ?_⟩, ?_, fun s' hs' there => ?_⟩
        · exact Value.same_trans (new.hashable _ (h.mem_assignment_ids hid)) moved sent
        · exact Value.same_symm (h.ids_distinct.keys _ hid).hashable same
        · have hs' := (List.mem_filter.mp hs').1
          refine List.inj_on_of_nodup_map h.subproblems_nodup hs' hs ?_
          exact h.ids_distinct.unique (List.mem_map_of_mem hs') hid
            (Value.same_symm isKey.hashable there) same
  refine (perm_flatMap_filter (h.subproblems_nodup.of_map.filter _) one).trans (.of_eq ?_)
  refine List.flatMap_congr fun s hs => ?_
  rw [List.filter_filter]
  refine List.filter_congr fun e he => ?_
  obtain ⟨key, own, annotated, equal⟩ := h.exists_annotated wf (known e he)
  obtain ⟨listed, moved⟩ := List.mem_filter.mp hs
  have hid := List.mem_map_of_mem (f := Subproblem.id) listed
  have used := Assignment.mem_ids_of_vars annotated
  simp only [equal, (h.sends_relabel h' new annotated _).1,
    (h.sends_relabel h' new annotated _).2]
  rw [Bool.eq_iff_iff, Bool.and_eq_true, and_iff_left_of_imp]
  intro there
  have carried := new.relabel_same used (b := .subproblem s.id)
    (fun _ equal => Block.subproblem.inj equal ▸ h.mem_assignment_ids hid) there
  exact Block.same_trans (new.relabel_isKey used) carried moved

/-- So has its table, if the tables are put over the variables. -/
theorem tables_perm (wf : m.WellFormed) {α : Type} {table : List (Handle × α)}
    (known : ∀ e ∈ table, e.1 ∈ m.vars.map (·.2)) {share : Subproblem → List (Option Handle × α)}
    (parts : ∀ s ∈ r.subproblems, share s = (table.filter fun (v, _) =>
      r.vars.sends (.subproblem s.id) v).map fun (v, a) => (some v, a)) (id : Value) :
    ((table.filter fun (v, _) => r'.vars.sends (.subproblem id) v).map
      fun (v, a) => (some v, a)).Perm ((r.mergedInto f id).flatMap share) := by
  rw [mergedInto, List.flatMap_congr fun s hs => parts s (List.mem_filter.mp hs).1,
    ← List.map_flatMap]
  exact (h.union_perm h' new wf known id).map _

theorem costs_perm (wf : m.WellFormed) {t : Subproblem} (ht : t ∈ r'.subproblems) :
    (t.originalCosts r'.vars).Perm
      ((r.mergedInto f t.id).flatMap fun s => s.originalCosts r.vars) := by
  rw [h'.originalCosts_eq wf ht]
  exact h.tables_perm h' new wf Model.objectiveTerms_known
    (fun s hs => h.originalCosts_eq wf hs) t.id

theorem couplings_perm (wf : m.WellFormed) {t : Subproblem} (ht : t ∈ r'.subproblems) :
    (t.originalCoupling r'.vars).Perm
      ((r.mergedInto f t.id).flatMap fun s => s.originalCoupling r.vars) := by
  have rows : masterTerms first m r' = masterTerms first m r := by
    rw [masterTerms, masterTerms, h.constraintsOf_eq, h'.constraintsOf_eq,
      h.relabel_assignment h' new]
    exact congrArg (fun keys => (Slice.ofKeys keys).places.flatMap (m.rowTerms first))
      (KeyTable.follows_master f r.assignment.constraints).keysOf
  rw [h'.originalCoupling_eq wf ht, rows]
  refine h.tables_perm h' new wf (fun e he => ?_) (fun s hs => h.originalCoupling_eq wf hs) t.id
  obtain ⟨row, k, there⟩ :=
    CouplingTable.mem_ofEntries_keys.mp (List.mem_map_of_mem (f := (·.1)) he)
  exact masterTerms_known _ there

/-- The masters differ in their convexity constraints alone. -/
theorem master_contents (wf : m.WellFormed) : r'.master.id = r.master.id ∧
    r'.master.name = r.master.name ∧
    ∃ contents, r.master.contents = contents ++ convexityContents config r.ids .master ∧
      r'.master.contents = contents ++ convexityContents config r'.ids .master := by
  have built := h.master_built wf
  have built' := h'.master_built wf
  have master := master_numbered r.ids
  have master' := master_numbered r'.ids
  have itself := h.ordinaryContents_self wf master
  have follower := h.ordinaryContents_relabel h' new master master'
    (KeyTable.follows_master f _) wf (KeyTable.follows_master f _) rfl
  refine ⟨built'.id.trans built.id.symm, built'.name.trans built.name.symm, _, built.contents, ?_⟩
  rw [built'.contents, follower, ← itself]

/-- If different ids get different ones, a subproblem stays what it is. -/
theorem subproblem_contents (wf : m.WellFormed) (injective : ∀ id ∈ r.assignment.ids,
      ∀ id' ∈ r.assignment.ids, (f id).same (f id') = true → id.same id' = true)
    {s : Subproblem} (hs : s ∈ r.subproblems) : ∃ t ∈ r'.subproblems,
      (f s.id).same t.id = true ∧
        t.model.contents = s.model.contents.map fun (name, c) => (name, c.renumber t.model.id) := by
  have hid := List.mem_map_of_mem (f := Subproblem.id) hs
  have used := h.mem_assignment_ids hid
  obtain ⟨_, listed, same⟩ := (h.relabel_ids h' new).1 s.id hid
  obtain ⟨t, ht, rfl⟩ := List.mem_map.mp listed
  obtain ⟨number, hb, built⟩ := h.exists_built wf
    (List.mem_cons_of_mem _ (List.mem_map_of_mem (f := fun s => (Block.subproblem s.id, s.model)) hs))
  obtain ⟨number', hb', built'⟩ := h'.exists_built wf
    (List.mem_cons_of_mem _ (List.mem_map_of_mem (f := fun s => (Block.subproblem s.id, s.model)) ht))
  have takes (table : KeyTable) (within : KeyTable.ids table ⊆ r.assignment.ids) :
      table.Follows f (.subproblem s.id) (.subproblem t.id) :=
    new.follows injective within used same
  refine ⟨t, ht, same, ?_⟩
  have follower := h.ordinaryContents_relabel h' new hb hb' (takes _ (List.subset_append_left _ _))
    wf (takes _ (List.subset_append_right _ _)) rfl
  rw [built'.contents, built.contents, built'.id, follower]
  simp [convexityContents]

/-- What is listed in the places of a table moves with its annotation. -/
theorem moves (wf : m.WellFormed) {registry : Reformulation → Registry}
    {elements : Model → List (Key × Handle)} (table : Assignment → KeyTable)
    (relabeled : ∀ a : Assignment, table (a.relabel f) = (table a).relabel f)
    (within : ∀ entry ∈ table r.assignment, ∀ id, entry.2 = .subproblem id →
      id ∈ r.assignment.ids)
    (covers : (registry r).Covers first m r.ids (table r.assignment))
    (covers' : (registry r').Covers first m r'.ids (table r'.assignment))
    (listed : ∀ q b target key image, View q first m config b target →
      (key, image) ∈ ((table q.assignment).sliceOf b.1).imagesIn (first + b.2) →
        (key, image) ∈ elements target)
    {key : Key} (hk : key ∈ (table r.assignment).map (·.1)) :
    r.Moves r' f registry elements key (m.preimageOf key) := by
  obtain ⟨⟨key, own⟩, he, rfl⟩ := List.mem_map.mp hk
  have tables : table r'.assignment = (table r.assignment).relabel f := by
    rw [h.relabel_assignment h' new, relabeled]
  rw [tables] at covers'
  obtain ⟨b, hb, b', hb', image, image', placed, placed', moved, master⟩ :=
    covers.moves covers' new (fun id hid => h.mem_assignment_ids hid) he (within _ he)
  obtain ⟨target, ht, view⟩ := h.exists_target wf hb
  obtain ⟨target', ht', view'⟩ := h'.exists_target wf hb'
  exact ⟨b.1, target, image, b'.1, target', image', covers.image?_eq hb placed,
    covers.owner?_eq hb placed, ht, listed r b target key image view placed,
    covers'.image?_eq hb' placed', covers'.owner?_eq hb' placed', ht',
    listed r' b' target' key image' view' (by rwa [tables]), moved, master⟩

theorem variable_moves (wf : m.WellFormed) {key : Key} {handle : Handle}
    (hv : (key, handle) ∈ m.vars) : r.Moves r' f (·.vars) Model.vars key handle := by
  rw [← Model.preimageOf_of_mem_vars wf hv]
  refine h.moves h' new wf Assignment.vars (fun _ => rfl)
    (fun _ he => Assignment.mem_ids_of_vars he) h.vars_covers h'.vars_covers
    (fun q b target key image view placed => by rwa [view.vars]) ?_
  rw [(Model.assignment_keys h.assigned).1]
  exact List.mem_map_of_mem (f := (·.1)) hv

theorem constraint_moves_block (wf : m.WellFormed) {key : Key} {handle : Handle}
    (hc : (key, handle) ∈ m.constraints) :
    r.Moves r' f (·.constraints) Model.allConstraints key handle := by
  rw [← Model.preimageOf_of_mem_constraints wf hc]
  refine h.moves h' new wf Assignment.constraints (fun _ => rfl)
    (fun _ he => Assignment.mem_ids_of_constraints he) h.constraints_covers h'.constraints_covers
    (fun q b target key image view placed => ?_) ?_
  · rw [← view.rows] at placed
    exact (List.mem_filter.mp placed).1
  · rw [(Model.assignment_keys h.assigned).2]
    exact List.mem_map_of_mem (f := (·.1)) hc

end TwoRuns

end Reformulation.Trace

namespace Decomposition

/-- With new ids that can be written, a decomposition succeeds again, and ids that become one
have their subproblems merged. -/
theorem decompose_merges {first : Nat} {m : Model} {classify : Classify} {config : Config}
    {r : Reformulation} {f : Value → Value} (regular : m.Regular)
    (h : decompose first m classify config = .ok r) (new : NewIds f r.assignment.ids)
    (writable : ∀ id ∈ r.assignment.ids, (f id).isWritable = true) :
    ∃ r', decompose first m (classify.relabel f) config = .ok r' ∧ r.Merges r' m config f := by
  have wf := regular.toWellFormed
  obtain ⟨r', h'⟩ := new.decompose_relabel regular writable h
  have trace := decompose_trace wf h
  have trace' := decompose_trace wf h'
  exact ⟨r', h', {
    ids := trace.relabel_ids trace' new
    master := trace.master_contents trace' new wf
    vars := fun _ _ hv => trace.variable_moves trace' new wf hv
    constraints := fun _ _ hc => trace.constraint_moves_block trace' new wf hc
    costs := fun _ ht => trace.costs_perm trace' new wf ht
    couplings := fun _ ht => trace.couplings_perm trace' new wf ht
    subproblems := fun injective _ hs => trace.subproblem_contents trace' new wf injective hs }⟩

end Decomposition

/-- What has an index goes to a subproblem of its own. -/
def eachApart : Classify := fun key =>
  match key.index with
  | [id] => .ok (.block (.subproblem id))
  | _ => .ok (.block .master)

theorem eachApart_decomposes :
    ∃ r, Decomposition.decompose 1 twoColumns eachApart .standard = .ok r := by
  obtain ⟨a, assigned, listed⟩ : ∃ a, twoColumns.assignment eachApart = .ok a ∧
      a.ids = [.int 1, .int 2, .int 1] := ⟨_, rfl, rfl⟩
  refine Decomposition.decompose_reassigned twoColumns_regular twoColumns_decomposes assigned
    (fun id hid => ?_) fun _ => ⟨rfl, rfl⟩
  simp only [listed, List.mem_cons, List.not_mem_nil, or_false] at hid
  rcases hid with rfl | rfl | rfl <;> exact ⟨rfl, nofun, by decide +kernel⟩

/-- One id takes the place of all others. -/
theorem NewIds.of_constant {id : Value} (isKey : id.IsKey) (ordinary : id ≠ .dots)
    (unmarked : ∀ mark, id.marked mark = id) (ids : List Value) : NewIds (fun _ => id) ids where
  congr _ _ _ _ _ := isKey.same_self
  hashable _ _ := isKey.hashable
  ordinary _ _ := ordinary
  unmarked _ _ := unmarked
  unseen _ _ := rfl

/-- Two subproblems become one. -/
theorem twoColumns_merges : twoColumns.Regular ∧
    ∃ r, Decomposition.decompose 1 twoColumns eachApart .standard = .ok r ∧
      NewIds (fun _ => .str "both") r.assignment.ids ∧
      ∃ r', Decomposition.decompose 1 twoColumns (eachApart.relabel fun _ => .str "both") .standard =
        .ok r' ∧ r.Merges r' twoColumns .standard fun _ => .str "both" := by
  obtain ⟨r, h⟩ := eachApart_decomposes
  have new : NewIds (fun _ => .str "both") r.assignment.ids :=
    .of_constant ⟨rfl, by simp [Value.same]⟩ (by simp) (fun _ => rfl) _
  exact ⟨twoColumns_regular, r, h, new,
    Decomposition.decompose_merges twoColumns_regular h new fun _ _ => rfl⟩

/-- An id too long to be written is refused where a short one is not. -/
theorem longId_refused : (∃ r, Decomposition.decompose 1 twoColumns firstApart .standard = .ok r) ∧
    (∀ ids, NewIds (fun _ => .int (Int.ofNat (10 ^ 5000))) ids) ∧
      Decomposition.decompose 1 twoColumns
        (firstApart.relabel fun _ => .int (Int.ofNat (10 ^ 5000))) .standard =
          .error (.fault .badValue) :=
  ⟨twoColumns_decomposes, .of_constant (Value.isKey_int _) nofun fun _ => rfl,
    Verdict.eq_error_of_fault? (by decide +kernel)⟩

end BlockAngular
