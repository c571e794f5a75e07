import BlockAngular.Proofs.Decomposition.Shares

/-! # The objective is conserved

Every model of a decomposition has its part of the objective, under one name and with one
sense: the terms whose variables live in the model. The master has the constant besides. The
cost table of a subproblem lists the terms of its part.
-/

namespace BlockAngular

open Decomposition

namespace Content

/-- The objectives of a component, active or not. -/
def allGoals (id : Nat) (name : String) : Content → List (Handle × Objective)
  | .objectives _ family => family.present.map fun (_, position, o) => (⟨id, name, position⟩, o)
  | _ => []

@[simp] theorem outline_allGoals (id : Nat) (name : String) (c : Content) :
    c.outline.allGoals id name = c.allGoals id name := by
  cases c <;> rfl

end Content

namespace Model

/-- All objectives, active or not. -/
def allObjectives (m : Model) : List (Handle × Objective) :=
  m.components.flatMap fun c => c.content.allGoals m.id c.name

theorem allObjectives_eq (m : Model) :
    m.allObjectives = m.outline.flatMap fun (name, content) => content.allGoals m.id name := by
  simp only [outline, contents, List.map_map, List.flatMap_map, allObjectives]
  exact List.flatMap_congr fun c _ => (Content.outline_allGoals m.id c.name c.content).symm

end Model

theorem Decomposition.Outlined.allObjectives_eq {id : Nat} {contents : List (String × Content)}
    {m : Model} (h : Outlined id contents m) :
    m.allObjectives = contents.flatMap fun (name, content) => content.allGoals id name := by
  rw [Model.allObjectives_eq, h.outline, h.id, List.flatMap_map]
  simp

namespace Reformulation

/-- The terms whose variables live in a model. -/
def termsIn (target : Model) (form : AffineForm) : List (Handle × Float) :=
  form.terms.filter fun term => decide (term.1 ∈ target.vars.map (·.2))

/-- What the models and the cost tables have of an objective. -/
structure SplitsForm (r : Reformulation) (label : String) (sense : Sense) (form : AffineForm) :
    Prop where
  /-- A model has one objective, of the terms of its own variables; the constant is the
      master's. -/
  objectives : ∀ block target, (block, target) ∈ r.targets → ∃ handle : Handle,
    handle.component = label ∧ target.allObjectives = [(handle, ⟨Expression.ofTerms
      (if block.isMaster then form.constant else 0.0) (termsIn target form), sense, true⟩)]
  /-- No term is lost, and none is in two models. -/
  terms : ∀ term ∈ form.terms, ∃ t ∈ r.targets, term ∈ termsIn t.2 form ∧
    ∀ t' ∈ r.targets, term ∈ termsIn t'.2 form → t' = t
  costs : ∀ s ∈ r.subproblems, s.costs = termsIn s.model form ∧
    (∀ v k, (v, k) ∈ termsIn s.model form → s.costs.costOf 0.0 v = k) ∧
    ∀ v, v ∉ (termsIn s.model form).map (·.1) → s.costs.costOf 0.0 v = 0.0

/-- The objective in force is split among the models, and without one there is nothing. -/
structure SplitsObjective (r : Reformulation) (m : Model) (config : Config) : Prop where
  inForce : ∀ h o, m.objectiveInForce? = .ok (some (h, o)) → ∃ label form,
    config.objectiveNameFor h.component = .str label ∧
    o.body.mapped (imageReading m r.vars) r.vars.image? "objective" = .ok form ∧
    r.SplitsForm label o.sense form
  absent : m.objectiveInForce? = .ok none → (∀ t ∈ r.targets, t.2.allObjectives = []) ∧
    ∀ s ∈ r.subproblems, s.costs = [] ∧ ∀ v, s.costs.costOf 0.0 v = 0.0

namespace Trace

variable {first : Nat} {m : Model} {classify : Classify} {config : Config} {r : Reformulation}

/-- The objectives of a target are those of its part of the objective. -/
theorem allObjectives_of_outlined {b : Block × Nat} {target : Model}
    (shape : Outlined (first + b.2)
      (r.contentsOf m config b.1 ++ convexityContents config r.ids b.1) target) :
    target.allObjectives = (objectiveContents r.objective r.vars config b.1).flatMap
      fun (name, content) => content.allGoals (first + b.2) name := by
  have ofVariables : ((variableContents r.partition m b.1).flatMap fun (name, content) =>
      content.allGoals (first + b.2) name) = [] := by
    simp [variableContents, List.flatMap_map, Content.allGoals, Model.variableContent]
  have ofConstraints : ((constraintContents r.partition r.vars m b.1).flatMap
      fun (name, content) => content.allGoals (first + b.2) name) = [] := by
    simp [constraintContents, List.flatMap_map, Content.allGoals, constraintContent]
  have ofConvexity : ((convexityContents config r.ids b.1).flatMap fun (name, content) =>
      content.allGoals (first + b.2) name) = [] := by
    unfold convexityContents
    split
    · split <;> simp [Content.allGoals]
    · rfl
  rw [shape.allObjectives_eq, Reformulation.contentsOf]
  simp only [List.flatMap_append, ofVariables, ofConstraints, ofConvexity, List.nil_append,
    List.append_nil]

/-- A target is the model of a block, with a number and what the block has. -/
theorem exists_outlined (h : r.Trace first m classify config) {block : Block} {target : Model}
    (ht : (block, target) ∈ r.targets) : ∃ number, (block, number) ∈ numbered r.ids ∧
      Outlined (first + number)
        (r.contentsOf m config block ++ convexityContents config r.ids block) target := by
  obtain ⟨⟨_, number⟩, hb, rfl, shape⟩ := (exists_of_forall₂ h.outlined).2 _ ht
  exact ⟨number, hb, shape⟩

theorem blocks_nodup (h : r.Trace first m classify config) : (blocks r.ids).Nodup :=
  (blocks_pairwise h.ids_distinct).imp_of_mem fun {a b} ha _ different equal => by
    subst equal
    simp [Block.same_self (blocks_isKey h.ids_distinct ha)] at different

/-- A block has one target. -/
theorem target_unique (h : r.Trace first m classify config) {t t' : Block × Model}
    (ht : t ∈ r.targets) (ht' : t' ∈ r.targets) (same : t.1 = t'.1) : t = t' := by
  have named : r.targets.map (·.1) = blocks r.ids := by
    simp [Reformulation.targets, blocks, Reformulation.ids, Function.comp_def]
  exact List.inj_on_of_nodup_map (by rw [named]; exact h.blocks_nodup) ht ht' same

/-- The terms that live in a block are those of the variables of its model. -/
theorem termsIn_eq (h : r.Trace first m classify config) {b : Block × Nat}
    (hb : b ∈ numbered r.ids) {target : Model} (view : View r first m config b target)
    (form : AffineForm) :
    termsIn target form = form.terms.filter fun term => r.vars.livesIn b.1 term.1 := by
  refine List.filter_congr fun term _ => ?_
  rw [Bool.eq_iff_iff, decide_eq_true_iff]
  refine ⟨fun there => ?_, h.mem_vars_of_livesIn hb view⟩
  obtain ⟨⟨key, image⟩, listed, equal⟩ := List.mem_map.mp there
  rw [view.vars] at listed
  rw [h.livesIn_iff hb, ← equal]
  exact h.vars_covers.imageOwner?_eq hb listed

theorem costs_eq_nil (h : r.Trace first m classify config) (ho : r.objective = none)
    {s : Subproblem} (hs : s ∈ r.subproblems) : s.costs = [] := by
  obtain ⟨tables, made, ofTable⟩ := h.costs
  simp only [ho, costTables, Option.map_none, Option.getD_none, List.foldlM_nil, Success.bind_ok,
    Success.pure_ok] at made
  obtain ⟨empty, started, rfl⟩ := made
  obtain rfl := emptyTables_ok h.ids_distinct started
  rw [ofTable s hs, lookup?_tables h.ids_distinct (List.mem_map_of_mem hs), Option.getD_some]

theorem splitsForm (h : r.Trace first m classify config) (wf : m.WellFormed)
    {o : MappedObjective} (ho : r.objective = some o) (nodup : o.form.vars.Nodup) {label : String}
    (named : config.objectiveNameFor o.name = .str label) : r.SplitsForm label o.sense o.form := by
  refine ⟨fun block target ht => ?_, fun term hterm => ?_, fun s hs => ?_⟩
  · obtain ⟨number, hb, shape⟩ := h.exists_outlined ht
    have view := h.view_of_outlined wf hb shape
    refine ⟨⟨first + number, label, 0⟩, rfl, ?_⟩
    rw [allObjectives_of_outlined (b := (block, number)) shape, h.termsIn_eq hb view]
    simp [objectiveContents, ho, named, Content.allGoals, Family.optional, Family.present,
      AffineForm.objectivePart, AffineForm.toExpression]
  · obtain ⟨owner, hown⟩ := h.objective_owned ho nodup term hterm
    obtain ⟨b, hb, rfl, -⟩ := h.vars_covers.image_of_owner hown
    obtain ⟨target, ht, view⟩ := h.exists_target wf hb
    refine ⟨(b.1, target), ht, ?_, fun t' ht' there => h.target_unique ht' ht ?_⟩
    · rw [h.termsIn_eq hb view]
      exact List.mem_filter.mpr ⟨hterm, (h.livesIn_iff hb).mpr hown⟩
    · obtain ⟨number, hb', view'⟩ := h.exists_numbered wf ht'
      rw [h.termsIn_eq hb' view'] at there
      have owned := (h.livesIn_iff hb').mp (List.mem_filter.mp there).2
      exact Option.some.inj (owned.symm.trans hown)
  · obtain ⟨number, hb, view⟩ := h.subproblem_numbered wf hs
    have costs := h.costs_eq ho nodup hs
    rw [← h.termsIn_eq hb view] at costs
    have own : ((termsIn s.model o.form).map (·.1)).Nodup :=
      List.Nodup.sublist (List.filter_sublist.map _) nodup
    rw [costs]
    exact ⟨rfl, fun v k => CostTable.costOf_of_mem own, fun v => CostTable.costOf_of_absent⟩

end Trace

end Reformulation

namespace Decomposition

/-- The objective is conserved, and the cost tables have the terms of the subproblems. -/
theorem splitsObjective {first : Nat} {m : Model} {classify : Classify} {config : Config}
    {r : Reformulation} (wf : m.WellFormed) (h : decompose first m classify config = .ok r) :
    r.SplitsObjective m config := by
  have trace := decompose_trace wf h
  obtain ⟨own, found, mapped⟩ := trace.objective
  refine ⟨fun handle o inForce => ?_, fun absent => ?_⟩
  · obtain rfl := Except.ok.inj (found.symm.trans inForce)
    simp only [mapObjective, Success.bind_ok, Success.pure_ok] at mapped
    obtain ⟨form, read, ho⟩ := mapped
    obtain ⟨label, named⟩ := trace.named _ ho.symm
    exact ⟨label, form, named, read,
      trace.splitsForm wf ho.symm (Expression.mapped_vars_nodup read) named⟩
  · obtain rfl := Except.ok.inj (found.symm.trans absent)
    have ho : r.objective = none := (Except.ok.inj mapped).symm
    refine ⟨fun t ht => ?_, fun s hs => ?_⟩
    · obtain ⟨number, -, shape⟩ := trace.exists_outlined ht
      rw [Reformulation.Trace.allObjectives_of_outlined (b := (t.1, number)) shape]
      simp [objectiveContents, ho]
    · have empty := trace.costs_eq_nil ho hs
      exact ⟨empty, fun v => by simp [empty, CostTable.costOf]⟩

end Decomposition

/-- One variable of the objective goes to the subproblem, the other one to the master. -/
theorem twoColumns_splitsObjective : twoColumns.WellFormed ∧
    ∃ r, Decomposition.decompose 1 twoColumns firstApart .standard = .ok r ∧
      r.SplitsObjective twoColumns .standard := by
  obtain ⟨r, h⟩ := twoColumns_decomposes
  exact ⟨twoColumns_wellFormed, r, h, Decomposition.splitsObjective twoColumns_wellFormed h⟩

end BlockAngular
